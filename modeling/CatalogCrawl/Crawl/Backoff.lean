import CatalogCrawl.Config.Basic

namespace CatalogCrawl

structure Backoff where
  policy : RetryPolicy
  interval : Span
  retries : Nat

namespace Backoff

def ofPolicy (policy : RetryPolicy) : Backoff := ⟨policy, policy.initialInterval, 0⟩

def nanosInSec : Float := 1000000000.0

def toReal (s : Span) : Float :=
  s.secs.toUInt64.toFloat * nanosInSec + s.subsec.toUInt64.toFloat

/-- The whole nanoseconds of a double; what is not a number counts as nothing. -/
def ofReal (x : Float) : Span :=
  .ofParts (x / nanosInSec).toUInt64.toNat (x.toUInt64.toNat % Span.nanosInSec)

/-- The interval after this one: the longest, as soon as growing would reach it. -/
def grow (policy : RetryPolicy) (interval : Span) : Span :=
  let current := toReal interval
  if toReal policy.maxInterval / policy.multiplier ≤ current then policy.maxInterval
  else ofReal (current * policy.multiplier)

def next (b : Backoff) : Option Span × Backoff :=
  if b.policy.maxRetries ≤ b.retries then (none, b)
  else (some b.interval, ⟨b.policy, grow b.policy b.interval, b.retries + 1⟩)

def reset (b : Backoff) : Backoff := ofPolicy b.policy

end Backoff

end CatalogCrawl

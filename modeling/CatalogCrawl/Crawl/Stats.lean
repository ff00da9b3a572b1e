import CatalogCrawl.Datum

namespace CatalogCrawl

inductive Outcome
  | requeued
  | requeueRejected
  | dropped (attempts : Nat)
  | dispatched (adapters : Nat)
  | stopped
  deriving DecidableEq, Repr

inductive CallOutcome
  | delivered | failed | undelivered
  deriving DecidableEq, Repr

structure CrawlStats where
  cycles : Nat
  dispatched : Nat
  delivered : Nat
  adapterFailures : Nat
  undelivered : Nat
  requeued : Nat
  dropped : Nat
  deriving DecidableEq, Repr

namespace CrawlStats

def zero : CrawlStats := ⟨0, 0, 0, 0, 0, 0, 0⟩

def record (s : CrawlStats) : Outcome → CrawlStats
  | .stopped => s
  | .requeued => { s with cycles := s.cycles + 1, requeued := s.requeued + 1 }
  | .requeueRejected | .dropped _ => { s with cycles := s.cycles + 1, dropped := s.dropped + 1 }
  | .dispatched n => { s with cycles := s.cycles + 1, dispatched := s.dispatched + n }

def recordCall (s : CrawlStats) : CallOutcome → CrawlStats
  | .delivered => { s with delivered := s.delivered + 1 }
  | .failed => { s with adapterFailures := s.adapterFailures + 1 }
  | .undelivered => { s with undelivered := s.undelivered + 1 }

def toJson (s : CrawlStats) : Json :=
  .obj [("cycles", .int s.cycles), ("dispatched", .int s.dispatched),
    ("delivered", .int s.delivered), ("adapter_failures", .int s.adapterFailures),
    ("undelivered", .int s.undelivered), ("requeued", .int s.requeued),
    ("dropped", .int s.dropped)]

def ofDatum? (rules : Datum.Rules) (d : Datum) : Option CrawlStats := do
  let fields ← d.record? rules ["cycles", "dispatched", "delivered", "adapter_failures",
    "undelivered", "requeued", "dropped"]
  let count (name : String) : Option Nat := fields.required name Datum.count?
  some {
    cycles := ← count "cycles"
    dispatched := ← count "dispatched"
    delivered := ← count "delivered"
    adapterFailures := ← count "adapter_failures"
    undelivered := ← count "undelivered"
    requeued := ← count "requeued"
    dropped := ← count "dropped" }

instance : Written CrawlStats := ⟨ofDatum?, toJson⟩

end CrawlStats

end CatalogCrawl

import CatalogCrawl.Config.Basic
import CatalogCrawl.Fault

namespace CatalogCrawl

structure Plan where
  period : Span
  delay : Span
  number : Nat
  deriving DecidableEq, Repr

namespace Plan

def make? (number : Nat) (period delay : Span) : Except CrawlFault Plan :=
  if period.nanos = 0 then .error (.invalidPlan "period must be greater than zero")
  else .ok ⟨period, delay, number⟩

def merge (a b : Plan) : Plan := if a.number < b.number then b else a

def collate? : List Plan → Option Plan
  | [] => none
  | p :: rest => some (rest.foldl merge p)

def agree (pending : List Plan) (fallback : Plan) : Plan :=
  (collate? pending).getD fallback

end Plan

def PartitionConfig.plan? (c : PartitionConfig) (number : Nat) : Except CrawlFault Plan :=
  Plan.make? number c.executionPeriod c.initialDelay

structure Ticker where
  period : Nat
  due : Nat
  deriving DecidableEq, Repr

namespace Ticker

def start (period firstDue : Nat) : Ticker := ⟨period, firstDue⟩

/-- How late a tick may come without moving the later ones. -/
def tolerance : Nat := 5 * Span.nanosInMilli

def tick (t : Ticker) (now : Nat) : Ticker :=
  { t with due := (if t.due + tolerance < now then now else t.due) + t.period }

theorem due_tick_of_on_time {t : Ticker} {now : Nat} (h : now ≤ t.due + tolerance) :
    (t.tick now).due = t.due + t.period := by
  simp [tick, Nat.not_lt.mpr h]

theorem due_le_due_tick (t : Ticker) (now : Nat) : t.due ≤ (t.tick now).due := by
  simp only [tick]
  split <;> omega

end Ticker

end CatalogCrawl

import CatalogCrawl.Config.Basic
import CatalogCrawl.Datum
import CatalogCrawl.Queue.Bell

namespace CatalogCrawl

structure QueueStats where
  queued : Nat
  accepted : Nat
  rejected : Nat
  taken : Nat
  refills : Nat
  deriving DecidableEq, Repr

namespace QueueStats

def rejectionRate (s : QueueStats) : Float :=
  let total := (s.accepted + s.rejected) % Number.word64
  if total = 0 then 0.0
  else s.rejected.toUInt64.toFloat / total.toUInt64.toFloat * 100.0

def toJson (s : QueueStats) : Json :=
  .obj [("queued", .int s.queued), ("accepted", .int s.accepted), ("rejected", .int s.rejected),
    ("taken", .int s.taken), ("refills", .int s.refills)]

def ofDatum? (rules : Datum.Rules) (d : Datum) : Option QueueStats := do
  let fields ← d.record? rules ["queued", "accepted", "rejected", "taken", "refills"]
  let count (name : String) : Option Nat := fields.required name Datum.count?
  some {
    queued := ← count "queued"
    accepted := ← count "accepted"
    rejected := ← count "rejected"
    taken := ← count "taken"
    refills := ← count "refills" }

instance : Written QueueStats := ⟨ofDatum?, toJson⟩

end QueueStats

structure WorkQueue where
  config : QueueConfig
  items : List WorkItem
  closed : Bool
  accepted : Nat
  rejected : Nat
  taken : Nat
  refills : Nat
  bell : Bell
  deriving DecidableEq

namespace WorkQueue

def empty (config : QueueConfig) : WorkQueue :=
  ⟨config, [], false, 0, 0, 0, 0, .silent⟩

def stats (q : WorkQueue) : QueueStats :=
  ⟨q.items.length, q.accepted, q.rejected, q.taken, q.refills⟩

def isFull (q : WorkQueue) : Bool :=
  match q.config.limit? with
  | none => false
  | some limit => limit ≤ q.items.length

def offer (q : WorkQueue) (item : WorkItem) : Bool × WorkQueue :=
  if q.closed || q.isFull then (false, { q with rejected := q.rejected + 1 })
  else
    (true, { q with items := q.items ++ [item], accepted := q.accepted + 1, bell := q.bell.ring })

def room (q : WorkQueue) (count : Nat) : Nat :=
  match q.config.limit? with
  | none => count
  | some limit => min count (limit - q.items.length)

def addAll (q : WorkQueue) (items : List WorkItem) : Nat × WorkQueue :=
  if q.closed then (0, q)
  else
    let added := q.room items.length
    (added, { q with
      items := q.items ++ items.take added
      accepted := q.accepted + added
      rejected := q.rejected + (items.length - added)
      refills := q.refills + 1
      bell := q.bell.ringTimes added })

def take? (q : WorkQueue) : Option WorkItem × WorkQueue :=
  match q.items with
  | [] => (none, q)
  | item :: rest =>
    (some item, { q with
      items := rest
      taken := q.taken + 1
      bell := if rest.isEmpty then q.bell else q.bell.ring })

def close (q : WorkQueue) : WorkQueue :=
  if q.closed then q else { q with closed := true, bell := q.bell.call }

inductive Attempt
  | took (item : WorkItem)
  | over
  | waits (ticket : Nat)
  deriving DecidableEq, Repr

def tryEnrolled (q : WorkQueue) (ticket : Option Nat) : Option Attempt × WorkQueue :=
  let leave (q : WorkQueue) : WorkQueue :=
    match ticket with
    | none => q
    | some t => { q with bell := q.bell.leave t }
  match q.take? with
  | (some item, q) => (some (.took item), leave q)
  | (none, q) =>
    if q.closed then (some .over, leave q)
    else (ticket.map .waits, q)

/-- An attempt to take an item. One who finds a ring but no item enrols again. -/
def attempt (q : WorkQueue) : Attempt × WorkQueue :=
  let (ticket, bell) := q.bell.enrol
  match { q with bell := bell }.tryEnrolled ticket with
  | (some answer, q) => (answer, q)
  | (none, q) =>
    let (ticket, bell) := q.bell.enrol
    match { q with bell := bell }.tryEnrolled ticket with
    | (some answer, q) => (answer, q)
    | (none, q) => (.over, q)

def woken (q : WorkQueue) (ticket : Nat) : Attempt × WorkQueue :=
  { q with bell := q.bell.observe ticket }.attempt

def expire (q : WorkQueue) (ticket : Nat) : Option WorkItem × WorkQueue :=
  let (item, q) := q.take?
  (item, { q with bell := q.bell.leave ticket })

def cancel (q : WorkQueue) (ticket : Nat) : WorkQueue :=
  { q with bell := q.bell.leave ticket }

end WorkQueue

end CatalogCrawl

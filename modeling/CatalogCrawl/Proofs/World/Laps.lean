import CatalogCrawl.Proofs.World.Crawling

namespace CatalogCrawl

inductive Fate
  | dispatched
  | dropped
  | rejected
  | putBack (next : WorkItem)
  deriving DecidableEq

def Fate.next? : Fate → Option WorkItem
  | .putBack next => some next
  | _ => none

/-- A cycle, with the number of the item from which the one at hand descends. -/
structure Lap where
  origin : Nat
  item : WorkItem
  served : Bool
  fate : Fate
  deriving DecidableEq

def Lap.isLast (l : Lap) : Bool := l.fate.next?.isNone

namespace WorkItem

def recorded (item : WorkItem) : Nat := min (item.attempts + 1) maxAttempts

structure Succeeds (next item : WorkItem) : Prop where
  attempts : next.attempts = item.attempts + 1
  url : next.url = item.url
  protocol : next.protocol = item.protocol
  error : next.error.isSome = true

def laps (most : Nat) (item : WorkItem) : Nat := max 1 (most - item.attempts)

end WorkItem

structure Lap.Lawful (most : Nat) (l : Lap) : Prop where
  dispatched : l.fate = .dispatched ↔ l.served = true
  dropped : l.fate = .dropped ↔ l.served = false ∧ most ≤ l.item.recorded
  putBack : ∀ next, l.fate = .putBack next →
    l.served = false ∧ next.attempts < most ∧ next.Succeeds l.item

namespace Cycle

variable {most : Nat} {registry : Registry} {queue : WorkQueue} {item : WorkItem}

inductive Course (most : Nat) (registry : Registry) (queue : WorkQueue) (item : WorkItem) :
    Cycle → Prop
  | dispatched (c : Cycle) (n : Nat) (hr : registry.matching item.protocol ≠ [])
    (ho : c.outcome = .dispatched n) (hq : c.queue = queue) : Course most registry queue item c
  | dropped (c : Cycle) (n : Nat) (hr : registry.matching item.protocol = [])
    (hm : most ≤ item.recorded) (ho : c.outcome = .dropped n) (hq : c.queue = queue) :
    Course most registry queue item c
  | rejected (c : Cycle) (hr : registry.matching item.protocol = []) (hm : item.recorded < most)
    (ho : c.outcome = .requeueRejected)
    (hq : c.queue = { queue with rejected := queue.rejected + 1 }) :
    Course most registry queue item c
  | putBack (c : Cycle) (next : WorkItem) (b : Bell) (hr : registry.matching item.protocol = [])
    (hm : next.attempts < most) (hn : next.Succeeds item) (ho : c.outcome = .requeued)
    (hq : c.queue = { queue with
      items := queue.items ++ [next], accepted := queue.accepted + 1, bell := b }) :
    Course most registry queue item c

theorem Course.taken {registry : Registry} {queue : WorkQueue} {item : WorkItem} {c : Cycle}
    (h : Course most registry queue item c) : c.queue.taken = queue.taken := by
  cases h <;> simp_all

theorem run_course (hm : most ≤ WorkItem.maxAttempts) (registry : Registry) (queue : WorkQueue)
    (item : WorkItem) : Course most registry queue item (run ⟨some most⟩ registry queue item) := by
  unfold run
  simp only
  split
  · rename_i hr
    have hr : registry.matching item.protocol = [] := by simpa using hr
    unfold unmatched
    simp only
    split
    · rename_i ha
      rw [RequeuePolicy.allows_bounded] at ha
      -- Below the limit the count of attempts is not cut off.
      have hs : (item.withError (noAdapterMessage item.protocol)).Succeeds item := by
        refine ⟨?_, rfl, rfl, rfl⟩
        simp only [WorkItem.withError] at ha ⊢
        omega
      unfold WorkQueue.offer
      split
      · rename_i ho
        split at ho
        · cases ho
        · cases ho
          exact .putBack _ _ _ hr ha hs rfl rfl
      · rename_i ho
        split at ho
        · cases ho
          exact .rejected _ hr ha rfl rfl
        · cases ho
    · rename_i ha
      rw [RequeuePolicy.allows_bounded, Nat.not_lt] at ha
      exact .dropped _ _ hr ha rfl rfl
  · rename_i hr
    exact .dispatched _ _ (by simpa using hr) rfl rfl

end Cycle

/-- The laps of an item, the latest first, and what is left of it. -/
inductive Trail (most : Nat) (item : WorkItem) : List Lap → Option WorkItem → Prop
  | start : Trail most item [] (some item)
  | lap {laps : List Lap} (l : Lap) (h : Trail most item laps (some l.item)) (hl : l.Lawful most) :
    Trail most item (l :: laps) l.fate.next?

namespace Trail

variable {most : Nat} {item y : WorkItem} {laps : List Lap} {left : Option WorkItem}

theorem of_some (h : Trail most item laps (some y)) :
    y.attempts = item.attempts + laps.length ∧ laps.length ≤ most - 1 - item.attempts ∧
      y.url = item.url ∧ y.protocol = item.protocol ∧ laps.countP Lap.isLast = 0 := by
  generalize hy : some y = left at h
  induction h generalizing y with
  | start =>
    cases hy
    exact ⟨rfl, Nat.zero_le _, rfl, rfl, rfl⟩
  | lap l h hl ih =>
    cases hf : l.fate with
    | putBack next =>
      rw [hf] at hy
      cases hy
      obtain ⟨ha, -, hu, hp, hc⟩ := ih rfl
      obtain ⟨-, hm, hs⟩ := hl.putBack y hf
      have hn := hs.attempts
      refine ⟨?_, ?_, hs.url.trans hu, hs.protocol.trans hp, ?_⟩
      · rw [List.length_cons]
        omega
      · rw [List.length_cons]
        omega
      · rw [List.countP_cons, hc, Lap.isLast, hf]
        rfl
    | _ =>
      rw [hf] at hy
      cases hy

theorem putBacks_le (h : Trail most item laps left) :
    laps.countP (fun l => !l.isLast) ≤ most - 1 - item.attempts := by
  cases h with
  | start => exact Nat.zero_le _
  | lap l h hl =>
    obtain ⟨ha, hn, -⟩ := h.of_some
    have hc := List.countP_le_length (l := ‹List Lap›) (p := fun l => !l.isLast)
    rw [List.countP_cons]
    split
    · rename_i hb
      simp only [Lap.isLast, Bool.not_eq_true', Option.isNone_eq_false_iff] at hb
      obtain ⟨next, hf⟩ : ∃ next, l.fate = .putBack next := by
        cases hf : l.fate with
        | putBack next => exact ⟨next, rfl⟩
        | _ => simp [hf, Fate.next?] at hb
      obtain ⟨-, hm, hs⟩ := hl.putBack next hf
      have := hs.attempts
      omega
    · omega

theorem last_iff (h : Trail most item laps left) :
    laps.countP Lap.isLast + left.toList.length = 1 := by
  cases h with
  | start => rfl
  | lap l h hl =>
    rw [List.countP_cons, h.of_some.2.2.2.2]
    cases hf : l.fate.next? <;> simp [Lap.isLast, hf]

end Trail

end CatalogCrawl

import CatalogCrawl.Crawl.Delivery
import CatalogCrawl.Proofs.Crawl.Backoff

namespace CatalogCrawl

namespace ResultQueue

variable {q : ResultQueue} {r : Response}

def HasSpace (q : ResultQueue) : Prop := q.isOpen = true ∧ q.held.length < q.capacity

instance (q : ResultQueue) : Decidable q.HasSpace :=
  inferInstanceAs (Decidable (q.isOpen = true ∧ q.held.length < q.capacity))

def IsFull (q : ResultQueue) : Prop := q.isOpen = true ∧ q.capacity ≤ q.held.length

def push (q : ResultQueue) (r : Response) : ResultQueue := { q with held := q.held ++ [r] }

theorem send_of_hasSpace (h : q.HasSpace) : q.send r = (.sent, q.push r) := by
  simp [send, push, h.1, Nat.not_le.2 h.2]

theorem send_of_isFull (h : q.IsFull) : q.send r = (.full, q) := by
  simp [send, h.1, h.2]

theorem send_of_closed (h : q.isOpen = false) : q.send r = (.closed, q) := by
  rw [send, h]
  rfl

theorem trichotomy (q : ResultQueue) : q.HasSpace ∨ q.isOpen = false ∨ q.IsFull := by
  cases h : q.isOpen with
  | false => exact .inr (.inl rfl)
  | true =>
    rcases Nat.lt_or_ge q.held.length q.capacity with hl | hl
    · exact .inl ⟨h, hl⟩
    · exact .inr (.inr ⟨h, hl⟩)

theorem IsFull.not_hasSpace (h : q.IsFull) : ¬ q.HasSpace := fun hs => Nat.not_le.2 hs.2 h.2

theorem IsFull.not_closed (h : q.IsFull) : q.isOpen ≠ false := by simp [h.1]

theorem HasSpace.not_closed (h : q.HasSpace) : q.isOpen ≠ false := by simp [h.1]

end ResultQueue

namespace Delivery

variable {d : Delivery} {q : ResultQueue}

theorem attempt_of_hasSpace (h : q.HasSpace) : d.attempt q = (.delivered, q.push d.response) := by
  rw [attempt, ResultQueue.send_of_hasSpace h]

theorem attempt_of_closed (h : q.isOpen = false) : d.attempt q = (.failed .closed, q) := by
  rw [attempt, ResultQueue.send_of_closed h]

theorem attempt_of_left_eq_zero (h : q.IsFull) (hl : d.backoff.left = 0) :
    d.attempt q = (.failed .full, q) := by
  rw [attempt, ResultQueue.send_of_isFull h, Backoff.next_of_left_eq_zero hl]

theorem attempt_of_left_pos (h : q.IsFull) (hl : 0 < d.backoff.left) : ∃ delay rest,
    d.attempt q = (.waits delay rest, q) ∧ rest.response = d.response ∧
      rest.backoff.left + 1 = d.backoff.left := by
  obtain ⟨delay, rest, hn⟩ : ∃ delay rest, d.backoff.next = (some delay, rest) :=
    ⟨_, _, Backoff.next_of_left_pos hl⟩
  refine ⟨delay, ⟨d.response, rest⟩, ?_, rfl, Backoff.left_of_next hn⟩
  rw [attempt, ResultQueue.send_of_isFull h, hn]

theorem of_attempt_waits {delay : Span} {rest : Delivery} {left : ResultQueue}
    (h : d.attempt q = (.waits delay rest, left)) :
    q.IsFull ∧ left = q ∧ rest.response = d.response ∧
      rest.backoff.left + 1 = d.backoff.left := by
  rcases q.trichotomy with hq | hq | hq
  · rw [attempt_of_hasSpace hq] at h
    cases h
  · rw [attempt_of_closed hq] at h
    cases h
  · rcases Nat.eq_zero_or_pos d.backoff.left with hl | hl
    · rw [attempt_of_left_eq_zero hq hl] at h
      cases h
    · obtain ⟨delay, rest, ha, hr, hb⟩ := attempt_of_left_pos hq hl
      rw [ha] at h
      cases h
      exact ⟨hq, rfl, hr, hb⟩

/-- A delivery that has ended: the queue that each attempt found with the one that it left, and the
result. -/
structure Course where
  attempts : List (ResultQueue × ResultQueue)
  result : Except DeliveryFault Unit

def run (d : Delivery) (found : Nat → ResultQueue) : Course :=
  match h : d.attempt (found 0) with
  | (.delivered, left) => ⟨[(found 0, left)], .ok ()⟩
  | (.failed fault, left) => ⟨[(found 0, left)], .error fault⟩
  | (.waits _ rest, left) =>
    let c := rest.run fun i => found (i + 1)
    ⟨(found 0, left) :: c.attempts, c.result⟩
termination_by d.backoff.left
decreasing_by
  obtain ⟨-, -, -, hb⟩ := of_attempt_waits h
  omega

variable {found : Nat → ResultQueue} {left : ResultQueue}

theorem run_of_delivered (h : d.attempt (found 0) = (.delivered, left)) :
    d.run found = ⟨[(found 0, left)], .ok ()⟩ := by
  rw [run]
  split <;> simp_all

theorem run_of_failed {fault : DeliveryFault} (h : d.attempt (found 0) = (.failed fault, left)) :
    d.run found = ⟨[(found 0, left)], .error fault⟩ := by
  rw [run]
  split <;> simp_all

theorem run_of_waits {delay : Span} {rest : Delivery}
    (h : d.attempt (found 0) = (.waits delay rest, left)) :
    d.run found = ⟨(found 0, left) :: (rest.run fun i => found (i + 1)).attempts,
      (rest.run fun i => found (i + 1)).result⟩ := by
  rw [run]
  split <;> simp_all

inductive Verdict (r : Response) (q : ResultQueue) (more : Nat) :
    ResultQueue → Except DeliveryFault Unit → Prop
  | delivered (h : q.HasSpace) : Verdict r q more (q.push r) (.ok ())
  | closed (h : q.isOpen = false) : Verdict r q more q (.error .closed)
  | full (h : q.IsFull) (hm : more = 0) : Verdict r q more q (.error .full)

namespace Verdict

variable {r : Response} {more : Nat} {result : Except DeliveryFault Unit}

theorem ok_iff (h : Verdict r q more left result) : result = .ok () ↔ q.HasSpace := by
  cases h with
  | delivered hs => exact iff_of_true rfl hs
  | closed hc => exact iff_of_false nofun fun hs => hs.not_closed hc
  | full hf => exact iff_of_false nofun hf.not_hasSpace

theorem closed_iff (h : Verdict r q more left result) :
    result = .error .closed ↔ q.isOpen = false := by
  cases h with
  | delivered hs => exact iff_of_false nofun hs.not_closed
  | closed hc => exact iff_of_true rfl hc
  | full hf => exact iff_of_false nofun hf.not_closed

theorem full_iff (h : Verdict r q more left result) : result = .error .full ↔ q.IsFull := by
  cases h with
  | delivered hs => exact iff_of_false nofun fun hf => hf.not_hasSpace hs
  | closed hc => exact iff_of_false nofun fun hf => hf.not_closed hc
  | full hf => exact iff_of_true rfl hf

theorem left_of_hasSpace (h : Verdict r q more left result) (hs : q.HasSpace) :
    left = q.push r := by
  cases h with
  | delivered => rfl
  | closed hc => exact absurd hc hs.not_closed
  | full hf => exact absurd hs hf.not_hasSpace

theorem left_of_not_hasSpace (h : Verdict r q more left result) (hs : ¬ q.HasSpace) :
    left = q := by
  cases h with
  | delivered h => exact absurd h hs
  | closed => rfl
  | full => rfl

theorem eq_zero_of_isFull (h : Verdict r q more left result) (hf : q.IsFull) : more = 0 := by
  cases h with
  | delivered hs => exact absurd hs hf.not_hasSpace
  | closed hc => exact absurd hc hf.not_closed
  | full _ hm => exact hm

end Verdict

theorem exists_last (d : Delivery) (found : Nat → ResultQueue) :
    ∃ n left, n ≤ d.backoff.left ∧ (∀ i < n, (found i).IsFull) ∧
      (d.run found).attempts =
        (List.range n).map (fun i => (found i, found i)) ++ [(found n, left)] ∧
      Verdict d.response (found n) (d.backoff.left - n) left (d.run found).result := by
  induction hl : d.backoff.left generalizing d found with
  | zero =>
    rcases (found 0).trichotomy with hq | hq | hq
    · rw [run_of_delivered (attempt_of_hasSpace hq)]
      exact ⟨0, _, Nat.le_refl 0, nofun, rfl, .delivered hq⟩
    · rw [run_of_failed (attempt_of_closed hq)]
      exact ⟨0, _, Nat.le_refl 0, nofun, rfl, .closed hq⟩
    · rw [run_of_failed (attempt_of_left_eq_zero hq hl)]
      exact ⟨0, _, Nat.le_refl 0, nofun, rfl, .full hq rfl⟩
  | succ k ih =>
    rcases (found 0).trichotomy with hq | hq | hq
    · rw [run_of_delivered (attempt_of_hasSpace hq)]
      exact ⟨0, _, Nat.zero_le _, nofun, rfl, .delivered hq⟩
    · rw [run_of_failed (attempt_of_closed hq)]
      exact ⟨0, _, Nat.zero_le _, nofun, rfl, .closed hq⟩
    · obtain ⟨delay, rest, ha, hr, hb⟩ := attempt_of_left_pos (d := d) hq (by omega)
      obtain ⟨n, left, hn, hfull, hrun, hlast⟩ := ih rest (fun i => found (i + 1)) (by omega)
      rw [run_of_waits ha]
      refine ⟨n + 1, left, by omega, fun i hi => ?_, ?_, ?_⟩
      · cases i with
        | zero => exact hq
        | succ i => exact hfull i (by omega)
      · simp only [hrun, List.range_succ_eq_map, List.map_cons, List.map_map, List.cons_append]
        rfl
      · rw [← hr, Nat.succ_sub_succ]
        exact hlast

structure Course.GivesUpAt (c : Course) (most : Nat) (r : Response) (found : Nat → ResultQueue) :
    Prop where
  finds : c.attempts.map Prod.fst = (List.range c.attempts.length).map found
  tries : ∀ k, k < c.attempts.length ↔ k ≤ most ∧ ∀ i < k, (found i).IsFull
  length_le : c.attempts.length ≤ most + 1
  leaves : ∀ x ∈ c.attempts, x.2 = x.1 ∨ x.2 = x.1.push r
  once : c.attempts.countP (fun x => x.1.held.length < x.2.held.length) ≤ 1
  ok : c.result = .ok () ↔ ∃ x ∈ c.attempts, x.1.HasSpace ∧ x.2 = x.1.push r
  closed : c.result = .error .closed ↔ ∃ x ∈ c.attempts, x.1.isOpen = false
  full : c.result = .error .full ↔
    c.attempts.length = most + 1 ∧ ∀ x ∈ c.attempts, x.1.IsFull
  fails : ∀ fault, c.result = .error fault → ∀ x ∈ c.attempts, x.2 = x.1

theorem run_givesUpAt (d : Delivery) (found : Nat → ResultQueue) :
    (d.run found).GivesUpAt d.backoff.left d.response found := by
  obtain ⟨n, left, hn, hfull, hrun, hv⟩ := d.exists_last found
  generalize d.run found = c at hrun hv
  have hlength : c.attempts.length = n + 1 := by simp [hrun]
  have hlast : (found n, left) ∈ c.attempts := by simp [hrun]
  have hbefore : ∀ x ∈ c.attempts, x.1.IsFull ∧ x.2 = x.1 ∨ x = (found n, left) := by
    intro x hx
    rw [hrun, List.mem_append, List.mem_map, List.mem_singleton] at hx
    refine hx.imp_left ?_
    rintro ⟨i, hi, rfl⟩
    exact ⟨hfull i (List.mem_range.1 hi), rfl⟩
  have hleaves : ∀ x ∈ c.attempts, (x.1.HasSpace → x.2 = x.1.push d.response) ∧
      (¬ x.1.HasSpace → x.2 = x.1) := by
    intro x hx
    rcases hbefore x hx with ⟨hf, he⟩ | rfl
    · exact ⟨fun hs => absurd hs hf.not_hasSpace, fun _ => he⟩
    · exact ⟨hv.left_of_hasSpace, hv.left_of_not_hasSpace⟩
  refine ⟨?_, fun k => ⟨fun hk => ?_, ?_⟩, ?_, fun x hx => ?_, ?_, ?_, ?_, ?_, ?_⟩
  · rw [hlength, hrun, List.range_succ]
    simp
  · exact ⟨by omega, fun i hi => hfull i (by omega)⟩
  · rintro ⟨hk, hf⟩
    refine Nat.lt_of_not_le fun hlt => ?_
    have hm := hv.eq_zero_of_isFull (hf n (by omega))
    omega
  · omega
  · by_cases hs : x.1.HasSpace
    · exact .inr ((hleaves x hx).1 hs)
    · exact .inl ((hleaves x hx).2 hs)
  · have hz : ((List.range n).map fun i => (found i, found i)).countP
        (fun x => decide (x.1.held.length < x.2.held.length)) = 0 := by
      simp [List.countP_eq_zero]
    rw [hrun, List.countP_append, hz, Nat.zero_add]
    exact List.countP_le_length
  · rw [hv.ok_iff]
    constructor
    · exact fun hs => ⟨_, hlast, hs, (hleaves _ hlast).1 hs⟩
    · rintro ⟨x, hx, hs, -⟩
      rcases hbefore x hx with ⟨hf, -⟩ | rfl
      · exact absurd hs hf.not_hasSpace
      · exact hs
  · rw [hv.closed_iff]
    constructor
    · exact fun hc => ⟨_, hlast, hc⟩
    · rintro ⟨x, hx, hc⟩
      rcases hbefore x hx with ⟨hf, -⟩ | rfl
      · exact absurd hc hf.not_closed
      · exact hc
  · rw [hv.full_iff]
    constructor
    · intro hf
      have hm := hv.eq_zero_of_isFull hf
      refine ⟨by omega, fun x hx => ?_⟩
      rcases hbefore x hx with ⟨h, -⟩ | rfl
      · exact h
      · exact hf
    · exact fun h => h.2 _ hlast
  · intro fault he x hx
    refine (hleaves x hx).2 fun hs => ?_
    rcases hbefore x hx with ⟨hf, -⟩ | rfl
    · exact hf.not_hasSpace hs
    · rw [hv.ok_iff.2 hs] at he
      cases he

end Delivery

end CatalogCrawl

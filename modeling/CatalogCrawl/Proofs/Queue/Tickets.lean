import CatalogCrawl.Proofs.Queue.Attempt
import Mathlib.Data.Multiset.AddSub
import Mathlib.Data.Multiset.ZeroCons

namespace CatalogCrawl

namespace Bell

/-- The tickets that are out are those in line and those reached that do not know it yet. -/
structure Holds (b : Bell) (out : Multiset Nat) : Prop where
  tickets : ((b.waiting ++ (b.rung ++ b.called) : List Nat) : Multiset Nat) = out
  distinct : out.Nodup
  issued : ∀ t ∈ out, t < b.nextTicket
  permit : b.permit = true → b.waiting = []

variable {b : Bell} {out : Multiset Nat} {ticket : Nat}

theorem Holds.nodup (h : b.Holds out) : (b.waiting ++ (b.rung ++ b.called)).Nodup := by
  rw [← Multiset.coe_nodup, h.tickets]
  exact h.distinct

theorem Holds.mem_iff (h : b.Holds out) :
    ticket ∈ out ↔ ticket ∈ b.waiting ∨ ticket ∈ b.rung ∨ ticket ∈ b.called := by
  rw [← h.tickets, Multiset.mem_coe, List.mem_append, List.mem_append]

theorem reached_iff : b.reached ticket = true ↔ ticket ∈ b.rung ∨ ticket ∈ b.called := by
  simp [reached]

theorem holds_silent : silent.Holds 0 :=
  ⟨rfl, Multiset.nodup_zero, fun _ h => absurd h (Multiset.notMem_zero _), fun _ => rfl⟩

theorem Holds.ring (h : b.Holds out) : b.ring.Holds out := by
  cases hw : b.waiting with
  | nil => exact ⟨by simpa [Bell.ring, hw] using h.tickets, h.distinct,
      by simpa [Bell.ring, hw] using h.issued, by simp [Bell.ring, hw]⟩
  | cons t rest =>
    refine ⟨?_, h.distinct, by simpa [Bell.ring, hw] using h.issued, ?_⟩
    · rw [← h.tickets, Multiset.coe_eq_coe]
      simp only [Bell.ring, hw, List.cons_append]
      exact List.perm_middle
    · intro hp
      have hn := h.permit (by simpa [Bell.ring, hw] using hp)
      rw [hw] at hn
      cases hn

theorem Holds.ringTimes (n : Nat) (h : b.Holds out) : (Bell.ringTimes n b).Holds out := by
  induction n generalizing b with
  | zero => exact h
  | succ n ih => exact ih h.ring

theorem Holds.call (h : b.Holds out) : b.call.Holds out := by
  refine ⟨?_, h.distinct, h.issued, fun _ => rfl⟩
  rw [← h.tickets, Multiset.coe_eq_coe]
  simp only [Bell.call, List.nil_append]
  exact List.perm_append_comm_assoc _ _ _

theorem Holds.enrol (h : b.Holds out) :
    (b.permit = true ∧ b.enrol.1 = none ∧ b.enrol.2.Holds out) ∨
      (b.permit = false ∧ b.enrol.1 = some b.nextTicket ∧
        b.enrol.2.Holds (b.nextTicket ::ₘ out) ∧ b.nextTicket ∉ out) := by
  cases hp : b.permit with
  | true =>
    refine .inl ⟨rfl, by simp [Bell.enrol, hp], ?_⟩
    simp only [Bell.enrol, hp, if_true]
    exact ⟨h.tickets, h.distinct, h.issued, fun _ => h.permit hp⟩
  | false =>
    have hfresh : b.nextTicket ∉ out := fun hm => Nat.lt_irrefl _ (h.issued _ hm)
    refine .inr ⟨rfl, by simp [Bell.enrol, hp], ?_, hfresh⟩
    simp only [Bell.enrol, hp, Bool.false_eq_true, if_false]
    refine ⟨?_, Multiset.nodup_cons.2 ⟨hfresh, h.distinct⟩, ?_, by simp⟩
    · rw [← h.tickets, Multiset.cons_coe, Multiset.coe_eq_coe]
      simp
    · intro t ht
      rcases Multiset.mem_cons.1 ht with rfl | ht
      · exact Nat.lt_succ_self _
      · exact Nat.lt_succ_of_lt (h.issued t ht)

theorem Holds.erase_rung (h : b.Holds out) (ht : ticket ∈ b.rung) :
    { b with rung := b.rung.erase ticket }.Holds (out.erase ticket) ∧ ticket ∉ b.called := by
  have hn := h.nodup
  have hw : ticket ∉ b.waiting := fun hm =>
    (List.disjoint_of_nodup_append hn) hm (List.mem_append_left _ ht)
  have hc : ticket ∉ b.called := fun hm =>
    (List.disjoint_of_nodup_append hn.of_append_right) ht hm
  refine ⟨⟨?_, h.distinct.erase _, fun t hm => h.issued t (Multiset.mem_of_mem_erase hm),
    h.permit⟩, hc⟩
  rw [← h.tickets, Multiset.coe_erase, List.erase_append_right _ hw, List.erase_append_left _ ht]

theorem Holds.erase_waiting (h : b.Holds out) (ht : ticket ∈ b.waiting) :
    { b with waiting := b.waiting.erase ticket }.Holds (out.erase ticket) ∧
      ticket ∉ b.called := by
  have hc : ticket ∉ b.called := fun hm =>
    (List.disjoint_of_nodup_append h.nodup) ht (List.mem_append_right _ hm)
  refine ⟨⟨?_, h.distinct.erase _, fun t hm => h.issued t (Multiset.mem_of_mem_erase hm), ?_⟩, hc⟩
  · rw [← h.tickets, Multiset.coe_erase, List.erase_append_left _ ht]
  · intro hp
    simp [h.permit hp]

theorem Holds.erase_called (h : b.Holds out) (ht : ticket ∈ b.called) :
    { b with called := b.called.erase ticket }.Holds (out.erase ticket) ∧
      ticket ∉ b.waiting ∧ ticket ∉ b.rung := by
  have hn := h.nodup
  have hw : ticket ∉ b.waiting := fun hm =>
    (List.disjoint_of_nodup_append hn) hm (List.mem_append_right _ ht)
  have hr : ticket ∉ b.rung := fun hm =>
    (List.disjoint_of_nodup_append hn.of_append_right) hm ht
  refine ⟨⟨?_, h.distinct.erase _, fun t hm => h.issued t (Multiset.mem_of_mem_erase hm),
    h.permit⟩, hw, hr⟩
  rw [← h.tickets, Multiset.coe_erase, List.erase_append_right _ hw, List.erase_append_right _ hr]

theorem Holds.observe (h : b.Holds out) (ht : b.reached ticket = true) :
    (b.observe ticket).Holds (out.erase ticket) := by
  rcases reached_iff.1 ht with hr | hc
  · have he := h.erase_rung hr
    simpa [Bell.observe, List.erase_of_not_mem he.2] using he.1
  · have he := h.erase_called hc
    simpa [Bell.observe, List.erase_of_not_mem he.2.2] using he.1

theorem Holds.leave (h : b.Holds out) (ht : ticket ∈ out) :
    (b.leave ticket).Holds (out.erase ticket) := by
  rcases h.mem_iff.1 ht with hw | hr | hc
  · have he := h.erase_waiting hw
    have hr : ticket ∉ b.rung := fun hm =>
      (List.disjoint_of_nodup_append h.nodup) hw (List.mem_append_left _ hm)
    simpa [Bell.leave, hr, List.erase_of_not_mem he.2] using he.1
  · simpa [Bell.leave, hr] using (h.erase_rung hr).1.ring
  · have he := h.erase_called hc
    simpa [Bell.leave, he.2.2, List.erase_of_not_mem he.2.1] using he.1

/-- Somebody is on the way, or nobody is in line. -/
def Served (b : Bell) : Prop := b.waiting = [] ∨ b.rung ≠ []

theorem served_ring (b : Bell) : b.ring.Served := by
  unfold ring Served
  split
  · exact .inl (by assumption)
  · exact .inr (List.cons_ne_nil _ _)

theorem served_ringTimes (n : Nat) (h : b.Served) : (ringTimes n b).Served := by
  induction n generalizing b with
  | zero => exact h
  | succ n ih => exact ih (served_ring b)

theorem Served.leave (h : b.Served) (ticket : Nat) : (b.leave ticket).Served := by
  unfold Bell.leave
  split
  · exact served_ring _
  · exact h.imp_left fun hw => by simp [hw]

theorem mem_waiting_of_ring {t : Nat} (h : t ∈ b.ring.waiting) : t ∈ b.waiting := by
  unfold ring at h
  split at h
  · exact h
  · rename_i hw
    rw [hw]
    exact List.mem_cons_of_mem _ h

theorem mem_waiting_of_leave {t : Nat} (h : t ∈ (b.leave ticket).waiting) : t ∈ b.waiting := by
  unfold leave at h
  split at h
  · exact mem_waiting_of_ring (b := { b with rung := b.rung.erase ticket }) h
  · exact List.mem_of_mem_erase h

end Bell

namespace WorkQueue

def Attempt.tickets : Attempt → Multiset Nat
  | .waits ticket => {ticket}
  | .took _ | .over => 0

structure Enrolled (q : WorkQueue) (out : Multiset Nat) : Prop where
  holds : q.bell.Holds out
  served : q.items ≠ [] → q.bell.Served
  shut : q.closed = true → q.bell.waiting = []

variable {q : WorkQueue} {out : Multiset Nat} {ticket : Nat}

theorem enrolled_empty (c : QueueConfig) : (empty c).Enrolled 0 :=
  ⟨Bell.holds_silent, fun h => absurd rfl h, fun _ => rfl⟩

theorem Enrolled.offer (h : q.Enrolled out) (item : WorkItem) :
    (q.offer item).2.Enrolled out := by
  unfold WorkQueue.offer
  split
  · exact ⟨h.holds, h.served, h.shut⟩
  · rename_i hc
    refine ⟨h.holds.ring, fun _ => Bell.served_ring _, fun hs => ?_⟩
    exact absurd (by simp [show q.closed = true from hs]) hc

theorem Enrolled.addAll (h : q.Enrolled out) (items : List WorkItem) :
    (q.addAll items).2.Enrolled out := by
  unfold WorkQueue.addAll
  split
  · exact h
  · rename_i hc
    refine ⟨h.holds.ringTimes _, fun hi => ?_, fun hs => absurd hs hc⟩
    cases hn : q.room items.length with
    | zero =>
      refine h.served ?_
      simpa [hn] using hi
    | succ n => exact Bell.served_ringTimes n (Bell.served_ring _)

theorem Enrolled.close (h : q.Enrolled out) : q.close.Enrolled out := by
  unfold WorkQueue.close
  split
  · exact h
  · exact ⟨h.holds.call, fun _ => .inl rfl, fun _ => rfl⟩

theorem passed_holds {b : Bell} (h : b.Holds out) (rest : List WorkItem) :
    (passed b rest).Holds out := by
  unfold passed
  split
  · exact h
  · exact h.ring

theorem passed_served {b : Bell} {rest : List WorkItem} (h : rest ≠ []) :
    (passed b rest).Served := by
  rw [passed, if_neg (by simpa using h)]
  exact Bell.served_ring b

theorem mem_waiting_of_passed {b : Bell} {rest : List WorkItem} {t : Nat}
    (h : t ∈ (passed b rest).waiting) : t ∈ b.waiting := by
  unfold passed at h
  split at h
  · exact h
  · exact Bell.mem_waiting_of_ring h

theorem enrolled_of_released (hb : q.bell.Holds out) (hs : q.closed = true → q.bell.waiting = [])
    {q' : WorkQueue} (rest : List WorkItem) (hi : q'.items = rest) (hc : q'.closed = q.closed)
    (hq : q'.bell = released (passed q.bell.enrol.2 rest) q.bell.enrol.1) : q'.Enrolled out := by
  rcases hb.enrol with ⟨hp, he, h⟩ | ⟨hp, he, h, hfresh⟩ <;>
    rw [he] at hq <;> simp only [released] at hq
  · refine ⟨hq ▸ passed_holds h rest, fun hr => hq ▸ passed_served (hi ▸ hr), fun _ => ?_⟩
    refine List.eq_nil_iff_forall_not_mem.2 fun t ht => ?_
    have hm := mem_waiting_of_passed (hq ▸ ht)
    simp [Bell.enrol, hp, hb.permit hp] at hm
  · have hl := (passed_holds h rest).leave (Multiset.mem_cons_self _ _)
    rw [Multiset.erase_cons_head] at hl
    refine ⟨hq ▸ hl, fun hr => hq ▸ (passed_served (hi ▸ hr)).leave _, fun hcl => ?_⟩
    refine List.eq_nil_iff_forall_not_mem.2 fun t ht => ?_
    rw [hq] at ht
    have hm := mem_waiting_of_passed (Bell.mem_waiting_of_leave ht)
    simp only [Bell.enrol, hp, Bool.false_eq_true, if_false, hs (hc ▸ hcl), List.nil_append,
      List.mem_singleton] at hm
    exact hfresh (hm ▸ hl.mem_iff.2 (.inl ht))

theorem holds_awaited {b : Bell} (h : b.Holds out) :
    (awaited b).Holds (b.nextTicket ::ₘ out) := by
  unfold awaited
  rcases h.enrol with ⟨hp, -, he⟩ | ⟨hp, -, he, -⟩
  · rw [if_pos hp]
    rcases he.enrol with ⟨hp', -, -⟩ | ⟨-, -, he', -⟩
    · simp [Bell.enrol, hp] at hp'
    · simpa [Bell.enrol, hp] using he'
  · rwa [if_neg (by simp [hp])]

theorem enrolled_attempt (hb : q.bell.Holds out) (hs : q.closed = true → q.bell.waiting = []) :
    q.attempt.2.Enrolled (q.attempt.1.tickets + out) := by
  by_cases hi : q.items = []
  · by_cases hc : q.closed = true
    · rw [attempt_of_closed hi hc]
      simp only [Attempt.tickets, Multiset.zero_add]
      exact enrolled_of_released hb hs [] hi rfl rfl
    · rw [Bool.not_eq_true] at hc
      rw [attempt_of_open hi hc]
      simp only [Attempt.tickets, Multiset.singleton_add]
      exact ⟨holds_awaited hb, fun h => absurd hi h, fun h => by simp [hc] at h⟩
  · obtain ⟨item, rest, hi⟩ := List.exists_cons_of_ne_nil hi
    rw [attempt_of_cons hi]
    simp only [Attempt.tickets, Multiset.zero_add]
    exact enrolled_of_released hb hs rest rfl rfl rfl

theorem Enrolled.attempt (h : q.Enrolled out) :
    q.attempt.2.Enrolled (q.attempt.1.tickets + out) :=
  enrolled_attempt h.holds h.shut

theorem Enrolled.woken (h : q.Enrolled (ticket ::ₘ out)) (hr : q.bell.reached ticket = true) :
    (q.woken ticket).2.Enrolled ((q.woken ticket).1.tickets + out) := by
  have ho := h.holds.observe hr
  rw [Multiset.erase_cons_head] at ho
  exact enrolled_attempt (q := { q with bell := q.bell.observe ticket }) ho h.shut

theorem Enrolled.expire (h : q.Enrolled (ticket ::ₘ out)) :
    (q.expire ticket).2.Enrolled out := by
  have hm := Multiset.mem_cons_self ticket out
  by_cases hi : q.items = []
  · have hl := h.holds.leave hm
    rw [Multiset.erase_cons_head] at hl
    simp only [WorkQueue.expire, take?_of_nil hi]
    refine ⟨hl, fun hn => absurd hi hn, fun hc => ?_⟩
    refine List.eq_nil_iff_forall_not_mem.2 fun t ht => ?_
    simpa [h.shut hc] using Bell.mem_waiting_of_leave ht
  · obtain ⟨item, rest, hi⟩ := List.exists_cons_of_ne_nil hi
    have hl := (passed_holds h.holds rest).leave hm
    rw [Multiset.erase_cons_head] at hl
    simp only [WorkQueue.expire, take?_of_cons hi]
    refine ⟨hl, fun hn => (passed_served hn).leave _, fun hc => ?_⟩
    refine List.eq_nil_iff_forall_not_mem.2 fun t ht => ?_
    simpa [h.shut hc] using mem_waiting_of_passed (Bell.mem_waiting_of_leave ht)

theorem Enrolled.cancel (h : q.Enrolled (ticket ::ₘ out)) : (q.cancel ticket).Enrolled out := by
  have hl := h.holds.leave (Multiset.mem_cons_self ticket out)
  rw [Multiset.erase_cons_head] at hl
  refine ⟨hl, fun hn => (h.served hn).leave _, fun hc => ?_⟩
  refine List.eq_nil_iff_forall_not_mem.2 fun t ht => ?_
  simpa [h.shut hc] using Bell.mem_waiting_of_leave ht

theorem Enrolled.eq_zero_of_unreached (h : q.Enrolled out)
    (hu : ∀ t ∈ out, q.bell.reached t = false) (hq : q.items ≠ [] ∨ q.closed = true) :
    out = 0 := by
  have hr : ∀ t, t ∈ q.bell.rung ∨ t ∈ q.bell.called → False := fun t ht => by
    have hn := hu t (h.holds.mem_iff.2 (.inr ht))
    rw [Bell.reached_iff.2 ht] at hn
    cases hn
  have hw : q.bell.waiting = [] := by
    rcases hq with hi | hc
    · rcases h.served hi with hw | hn
      · exact hw
      · exact absurd (List.eq_nil_iff_forall_not_mem.2 fun t ht => hr t (.inl ht)) hn
    · exact h.shut hc
  refine Multiset.eq_zero_of_forall_notMem fun t ht => ?_
  rcases h.holds.mem_iff.1 ht with hm | hm
  · simp [hw] at hm
  · exact hr t hm

end WorkQueue

end CatalogCrawl

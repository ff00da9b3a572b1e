import CatalogCrawl.Proofs.World.Limits

namespace CatalogCrawl.World

variable {w v : World}

def times (happens : World → Event → Bool) (w : World) : List Event → Nat
  | [] => 0
  | e :: rest => (happens w e).toNat + times happens (w.react e) rest

theorem times_append (happens : World → Event → Bool) (w : World) (events later : List Event) :
    w.times happens (events ++ later) =
      w.times happens events + (w.play events).times happens later := by
  induction events generalizing w with
  | nil => simp [times]
  | cons e rest ih =>
    rw [List.cons_append, times, ih, times, Nat.add_assoc]
    rfl

theorem times_mono {f g : World → Event → Bool} (h : ∀ w e, f w e = true → g w e = true)
    (w : World) (events : List Event) : w.times f events ≤ w.times g events := by
  induction events generalizing w with
  | nil => exact Nat.le_refl _
  | cons e rest ih => exact Nat.add_le_add (Bool.toNat_le_toNat (h w e)) (ih _)

theorem times_add_le (happens : World → Event → Bool) (I : World → Prop) (rank : World → Nat)
    {events : List Event} (step : ∀ w, ∀ e ∈ events, I w →
      I (w.react e) ∧ (happens w e).toNat + rank (w.react e) ≤ rank w)
    (h : I w) : I (w.play events) ∧ w.times happens events + rank (w.play events) ≤ rank w := by
  induction events generalizing w with
  | nil => exact ⟨h, Nat.le_of_eq (Nat.zero_add _)⟩
  | cons e rest ih =>
    obtain ⟨hi, hr⟩ := step w e List.mem_cons_self h
    obtain ⟨hp, ht⟩ := ih (fun w k hk => step w k (List.mem_cons_of_mem e hk)) hi
    refine ⟨hp, ?_⟩
    have hw : w.play (e :: rest) = (w.react e).play rest := rfl
    rw [times, hw]
    omega

theorem play_induction {I : World → Prop} {events : List Event}
    (step : ∀ w, ∀ e ∈ events, I w → I (w.react e)) (h : I w) : I (w.play events) := by
  induction events generalizing w with
  | nil => exact h
  | cons e rest ih =>
    exact ih (fun w k hk => step w k (List.mem_cons_of_mem e hk)) (step w e List.mem_cons_self h)

/-- Whether a task takes a turn for which it is ready. -/
def acts (id : TaskId) (w : World) : Event → Bool
  | .step (.turn i _) => i == id && (w.acting? i).isSome
  | _ => false

def outcome? (w : World) (e : Event) : Option TaskResult :=
  if (w.react e).ended.length = w.ended.length then none
  else (w.react e).ended.head?.map EndedJob.result

theorem outcome?_of_eq {e : Event} (h : (w.react e).ended = w.ended) : w.outcome? e = none := by
  rw [outcome?, h, if_pos rfl]

theorem outcome?_of_cons {e : Event} {x : EndedJob} (h : (w.react e).ended = x :: w.ended) :
    w.outcome? e = some x.result := by
  rw [outcome?, h, if_neg (by simp)]
  rfl

theorem acts_iff {id : TaskId} {e : Event} : w.acts id e = true ↔
    ∃ signalFirst j, e = .step (.turn id signalFirst) ∧ w.acting? id = some j := by
  constructor
  · intro h
    unfold acts at h
    split at h
    · rename_i i signalFirst
      rw [Bool.and_eq_true, beq_iff_eq] at h
      obtain ⟨rfl, h⟩ := h
      obtain ⟨j, hj⟩ := Option.isSome_iff_exists.1 h
      exact ⟨signalFirst, j, rfl, hj⟩
    · cases h
  · rintro ⟨signalFirst, j, rfl, hj⟩
    simp [acts, hj]

theorem react_of_acts {id : TaskId} {signalFirst : Bool} {j : Job} (h : w.acting? id = some j) :
    w.react (.step (.turn id signalFirst)) = j.task.turn w id signalFirst := by
  rw [react, step_turn_eq, h]
  obtain ⟨-, -, rfl⟩ := mem_of_acting? h
  rfl

theorem bystander {id : TaskId} {e : Event} (hn : w.acts id e = false) (hi : id < w.nextId) :
    ∀ j ∈ (w.react e).jobs, j.id = id → j ∈ w.jobs ∨
      ∃ t : CrawlTask, ⟨id, .crawl t⟩ ∈ w.jobs ∧ j.task = .crawl { t with doomed := true } := by
  rintro j hj rfl
  rcases (tends_react w e).jobs j hj with hm | ⟨k, hk, he, -⟩ | ⟨t, hm, ht⟩ | ⟨hs, -⟩
  · exact .inl hm
  · obtain ⟨i, signalFirst, rfl, ha⟩ := of_actor_eq_job hk
    obtain ⟨-, -, rfl⟩ := mem_of_acting? ha
    simp [acts, he, ha] at hn
  · exact .inr ⟨t, hm, ht⟩
  · exact absurd hi (Nat.not_lt.2 hs)

theorem nextId_react (w : World) (e : Event) : w.nextId ≤ (w.react e).nextId :=
  (tends_react w e).nextId

theorem still_play {id : TaskId} {t : Task} {before : List Event}
    (hb : w.times (acts id) before = 0) (hi : id < w.nextId)
    (h : ∀ j ∈ w.jobs, j.id = id → j = ⟨id, t⟩) (hc : t.isCrawl = false) :
    ∀ j ∈ (w.play before).jobs, j.id = id → j = ⟨id, t⟩ := by
  induction before generalizing w with
  | nil => exact h
  | cons e rest ih =>
    rw [times, Nat.add_eq_zero_iff, Bool.toNat_eq_zero] at hb
    refine ih hb.2 (Nat.lt_of_lt_of_le hi (w.nextId_react e)) fun j hj hid => ?_
    rcases bystander hb.1 hi j hj hid with hm | ⟨s, hm, -⟩
    · exact h j hm hid
    · cases h _ hm rfl
      cases hc

def ofTask (w : World) (id : TaskId) (f : Task → Nat) : Nat :=
  match w.job? id with
  | some j => f j.task
  | none => 0

section Rank

variable {id : TaskId} {e : Event} {f : Task → Nat} {m : Nat} {served : Served}

theorem ofTask_le (h : ∀ j ∈ w.jobs, j.id = id → f j.task ≤ m) : w.ofTask id f ≤ m := by
  unfold ofTask
  split
  · rename_i j hj
    obtain ⟨hm, hi⟩ := mem_of_job? hj
    exact h j hm hi
  · exact Nat.zero_le m

theorem ofTask_of_mem (h : w.Sound none 0 served) {t : Task} (hm : ⟨id, t⟩ ∈ w.jobs)
    (f : Task → Nat) : w.ofTask id f = f t := by
  have hj : w.job? id = some ⟨id, t⟩ := h.job?_of_mem hm
  rw [ofTask, hj]

theorem ofTask_react (h : w.Sound none 0 served) (hi : id < w.nextId)
    (hf : ∀ t : CrawlTask, f (.crawl { t with doomed := true }) = f (.crawl t)) {b : Bool}
    (quiet : w.acts id e = false → b = false)
    (own : ∀ signalFirst t, e = .step (.turn id signalFirst) → w.acting? id = some ⟨id, t⟩ →
      b.toNat ≤ f t ∧ ∀ j ∈ (w.react e).jobs, j.id = id → b.toNat + f j.task ≤ f t) :
    b.toNat + (w.react e).ofTask id f ≤ w.ofTask id f := by
  cases ha : w.acts id e with
  | true =>
    obtain ⟨signalFirst, j, rfl, hj⟩ := acts_iff.1 ha
    obtain ⟨-, hm, rfl⟩ := mem_of_acting? hj
    obtain ⟨hb, hn⟩ := own signalFirst j.task rfl hj
    have hle := ofTask_le (f := f) (m := f j.task - b.toNat) fun k hk hid =>
      Nat.le_sub_of_add_le (Nat.add_comm _ _ ▸ hn k hk hid)
    rw [ofTask_of_mem h hm]
    omega
  | false =>
    rw [quiet ha, Bool.toNat_false, Nat.zero_add]
    refine ofTask_le fun j hj hid => ?_
    rcases bystander ha hi j hj hid with hm | ⟨t, hm, ht⟩
    · rw [← hid, ofTask_of_mem h hm]
    · rw [ht, hf, ofTask_of_mem h hm]

end Rank

end CatalogCrawl.World

import CatalogCrawl.Proofs.World.Jumps
import CatalogCrawl.Proofs.World.Line

namespace CatalogCrawl

variable {w v u : World} {id : TaskId} {n : Nat} {e : Event}

open World

namespace PlanStage

def insertsLeft : PlanStage → Nat
  | .ticking _ | .locking => 1
  | .looking | .pausing _ => 0

end PlanStage

namespace Task

def insertsLeft : Task → Nat
  | .plan t => t.stage.insertsLeft
  | _ => 0

def addsItems : Task → Bool
  | .plan _ | .refill .. => true
  | _ => false

theorem GoesOn.addsItems {t s : Task} (h : t.GoesOn s) : s.addsItems = t.addsItems := by
  unfold GoesOn at h
  split at h <;> first | rfl | exact h.elim

end Task

namespace World

def inserts (id : TaskId) (w : World) (e : Event) : Bool :=
  w.acts id e && decide (w.queue.refills < (w.react e).queue.refills)

def InsertsLocked (w : World) (id : TaskId) (v : World) : Prop :=
  ∃ l items, (l = w.refillLock ∨ l = w.refillLock.enter id) ∧ l.heldBy id = true ∧
    v.queue = (w.queue.addAll items).2 ∧ v.refillLock = l.leave id ∧ id ∉ v.refillLock.ids

end World

namespace PlanTask

variable {t : PlanTask}

/-- The plan is in its action, or waits for a tick that is due. -/
def AtTick (w : World) (t : PlanTask) : Prop :=
  t.stage = .locking ∨ (∃ seen, t.stage = .ticking seen) ∧ t.ticker.due ≤ w.now

theorem Ticks.told (h : t.Ticks w) (hr : w.Raised t.signal) :
    (∃ seen, t.stage = .ticking seen) ∧ t.ticker.due ≤ w.now := by
  refine ⟨h.1.resolve_left fun hl => ?_, h.2⟩
  cases hl.2.symm.trans hr

structure LastTurn (t : PlanTask) (w : World) (id : TaskId) (v : World) : Prop where
  inserts : (decide (w.queue.refills < v.queue.refills)).toNat ≤ t.stage.insertsLeft
  atTick : t.AtTick w ∨ v.queue.refills = w.queue.refills ∧
    ∀ j ∈ v.jobs, j.id = id → j.task.insertsLeft = 0
  left : ∀ j ∈ v.jobs, j.id = id →
    (decide (w.queue.refills < v.queue.refills)).toNat + j.task.insertsLeft ≤ t.stage.insertsLeft

theorem LastTurn.of_done (hq : v.queue = w.queue)
    (ho : ∀ j ∈ v.jobs, j.id = id → j.task.insertsLeft = 0) : t.LastTurn w id v := by
  have hd : decide (w.queue.refills < v.queue.refills) = false := by
    rw [hq, decide_eq_false (Nat.lt_irrefl _)]
  refine ⟨?_, .inr ⟨by rw [hq], ho⟩, fun j hj hi => ?_⟩
  · rw [hd]
    exact Nat.zero_le _
  · rw [hd, ho j hj hi]
    exact Nat.zero_le _

theorem LastTurn.of_atTick (ht : t.AtTick w)
    (ho : (v.queue = w.queue ∧ ∀ j ∈ v.jobs, j.id = id → j.task.insertsLeft ≤ 1) ∨
      ∀ j ∈ v.jobs, j.id = id → j.task.insertsLeft ≤ 0) : t.LastTurn w id v := by
  have hl : t.stage.insertsLeft = 1 := by
    rcases ht with hs | ⟨⟨seen, hs⟩, -⟩ <;> rw [hs] <;> rfl
  have hb := Bool.toNat_le (decide (w.queue.refills < v.queue.refills))
  refine ⟨hl ▸ hb, .inl ht, fun j hj hi => ?_⟩
  rw [hl]
  rcases ho with ⟨hq, ho⟩ | ho
  · rw [hq, decide_eq_false (Nat.lt_irrefl _), Bool.toNat_false, Nat.zero_add]
    exact ho j hj hi
  · have := ho j hj hi
    omega

theorem Round.told (h : t.Round w id v) (hr : w.Raised t.signal)
    (hready : t.isReady w id = true) : t.LastTurn w id v := by
  cases h with
  | rests hn => cases hn.symm.trans hready
  | ends hs => exact .of_done rfl (own_removeJob (P := (·.insertsLeft = 0)))
  | heeds seen hs => exact .of_done rfl (own_keepFirst (P := (·.insertsLeft = 0)) rfl)
  | waits seen hs hn => cases hn.symm.trans hr
  | asks ticker ht =>
    exact .of_atTick (.inr (ht.told hr))
      (.inl ⟨rfl, own_keepLast (P := (·.insertsLeft ≤ 1)) (Nat.le_refl 1)⟩)
  | refills ticker ht =>
    exact .of_atTick (.inr (ht.told hr))
      (.inr (own_keepFirst (P := (·.insertsLeft ≤ 0)) (Nat.le_refl 0)))
  | adds hs =>
    exact .of_atTick (.inl hs) (.inr (own_keepFirst (P := (·.insertsLeft ≤ 0)) (Nat.le_refl 0)))

end PlanTask

namespace World

structure Scheduled (w : World) : Prop extends w.Settled, w.Planned, w.Latched

theorem Scheduled.react (h : w.Scheduled) (e : Event) : (w.react e).Scheduled :=
  ⟨h.toSettled.react e, h.toPlanned.react h.toSettled e,
    h.toLatched.react h.toSettled h.toPlanned e⟩

theorem Scheduled.play (h : w.Scheduled) (events : List Event) : (w.play events).Scheduled :=
  play_induction (fun _ e _ h => h.react e) h

theorem play_scheduled (s : Setup) (events : List Event) : (s.world.play events).Scheduled :=
  Scheduled.play ⟨setup_settled s, setup_planned s, setup_latched s⟩ events

structure CalledOff (w : World) (id : TaskId) : Prop extends w.Scheduled where
  issued : id < w.nextId
  signalled : ∀ j ∈ w.jobs, j.id = id → ∃ i, j.task.signal? = some i ∧ w.Raised i

theorem CalledOff.of_plan (h : w.Scheduled) {t : PlanTask} (hm : ⟨id, .plan t⟩ ∈ w.jobs)
    (hr : w.Raised t.signal) : w.CalledOff id := by
  obtain ⟨n, hs⟩ := h.sound
  refine ⟨h, hs.lt_nextId hm, fun j hj hid => ?_⟩
  rw [hs.eq_of_mem hm hj hid]
  exact ⟨t.signal, rfl, hr⟩

theorem CalledOff.react (h : w.CalledOff id) (e : Event) : (w.react e).CalledOff id := by
  refine ⟨h.toScheduled.react e, Nat.lt_of_lt_of_le h.issued (w.nextId_react e), fun j hj hid => ?_⟩
  obtain ⟨k, hk, hi, hs⟩ := h.heir e j hj (hid ▸ h.issued)
  obtain ⟨i, hsig, hr⟩ := h.signalled k hk (hi.trans hid)
  exact ⟨i, hs ▸ hsig, (h.onward e).raised (h.toPlanned.told k hk i hsig).1 hr⟩

theorem CalledOff.round (h : w.CalledOff id) (signalFirst : Bool) {task : Task}
    (ha : w.acting? id = some ⟨id, task⟩) : ∃ t : PlanTask, task = .plan t ∧ w.Raised t.signal ∧
      t.isReady w id = true ∧ t.Round w id (w.react (.step (.turn id signalFirst))) := by
  have hm := (mem_of_acting? ha).2.1
  obtain ⟨i, hs, hr⟩ := h.signalled _ hm rfl
  have hf := h.refills _ hm
  cases task with
  | plan t =>
    cases hs
    refine ⟨t, rfl, hr, (Option.filter_eq_some_iff.1 ha).2, ?_⟩
    rw [react_of_acts ha]
    exact t.turn_round hf.1 hf.2 signalFirst
  | _ => cases hs

theorem inserts_of_acts {signalFirst : Bool} {task : Task} (ha : w.acting? id = some ⟨id, task⟩) :
    w.inserts id (.step (.turn id signalFirst)) =
      decide (w.queue.refills < (w.react (.step (.turn id signalFirst))).queue.refills) := by
  rw [inserts, acts_iff.2 ⟨signalFirst, _, rfl, ha⟩, Bool.true_and]

theorem CalledOff.inserts_left (h : w.CalledOff id) (e : Event) :
    (w.inserts id e).toNat + (w.react e).ofTask id Task.insertsLeft ≤
      w.ofTask id Task.insertsLeft := by
  obtain ⟨n, hs⟩ := h.sound
  refine ofTask_react hs h.issued (fun _ => rfl) (fun hq => by rw [inserts, hq, Bool.false_and]) ?_
  rintro signalFirst task rfl ha
  obtain ⟨t, rfl, hr, hready, hround⟩ := h.round signalFirst ha
  rw [inserts_of_acts ha]
  have hl := hround.told hr hready
  exact ⟨hl.inserts, hl.left⟩

theorem CalledOff.play (h : w.CalledOff id) (later : List Event) : (w.play later).CalledOff id ∧
    w.times (inserts id) later ≤ w.ofTask id Task.insertsLeft := by
  obtain ⟨hv, ht⟩ := times_add_le (inserts id) (CalledOff · id) (ofTask · id Task.insertsLeft)
    (fun w e (_ : e ∈ later) h => ⟨h.react e, h.inserts_left e⟩) h
  exact ⟨hv, Nat.le_trans (Nat.le_add_right _ _) ht⟩

theorem CalledOff.first_turn (h : w.CalledOff id) {t : PlanTask} (hm : ⟨id, .plan t⟩ ∈ w.jobs)
    (ha : w.acts id e = true) (after : List Event) :
    t.AtTick w ∨ w.times (inserts id) (e :: after) = 0 := by
  obtain ⟨n, hs⟩ := h.sound
  obtain ⟨signalFirst, j, rfl, hj⟩ := acts_iff.1 ha
  obtain ⟨-, hjm, hid⟩ := mem_of_acting? hj
  cases hs.eq_of_mem hm hjm hid
  obtain ⟨t', ht, hr, hready, hround⟩ := h.round signalFirst hj
  cases ht
  refine (hround.told hr hready).atTick.imp_right fun ⟨hq, hown⟩ => ?_
  have hle := ((h.react (.step (.turn id signalFirst))).play after).2
  have hz := ofTask_le (f := Task.insertsLeft) (m := 0) fun j hj hi => Nat.le_of_eq (hown j hj hi)
  rw [times, inserts_of_acts hj, hq, decide_eq_false (Nat.lt_irrefl _)]
  simp only [Bool.toNat_false]
  omega

theorem CalledOff.untouched (h : w.CalledOff id) {t : PlanTask} (hm : ⟨id, .plan t⟩ ∈ w.jobs)
    {before : List Event} (hb : w.times (acts id) before = 0) :
    ∀ j ∈ (w.play before).jobs, j.id = id → j = ⟨id, .plan t⟩ := by
  obtain ⟨n, hs⟩ := h.sound
  exact still_play hb h.issued (fun j hj hid => hs.eq_of_mem hm hj hid) rfl

theorem refills_abort (w : World) (id : TaskId) :
    (w.abort id).queue.refills = w.queue.refills := by
  obtain ⟨jobs, q, l, ha, rfl | ⟨ticket, rfl⟩⟩ := w.abort_eq id
  · rw [ha]
  · rw [ha]
    rfl

theorem Deed.refills (h : w.Deed id n v) : v.queue.refills = w.queue.refills := by
  cases h with
  | chore hc =>
    cases hc with
    | abort task => exact w.refills_abort task
    | _ => rfl
  | opens =>
    obtain ⟨journal, hs⟩ := w.spawnPool_eq
    rw [hs]
    rfl
  | _ => rfl

theorem Deeds.refills (h : Deeds id n w v) : v.queue.refills = w.queue.refills := by
  induction h with
  | refl => rfl
  | head hd _ ih => exact ih.trans hd.refills

theorem InsertsLocked.of_leave (h : w.Latched) {t : Task} (hm : ⟨id, t⟩ ∈ w.jobs)
    {l : Turnstile} {items : List WorkItem}
    (hl : l = w.refillLock ∨ t.inLine = false ∧ l = w.refillLock.enter id)
    (hh : l.heldBy id = true) (hq : v.queue = (w.queue.addAll items).2)
    (hv : v.refillLock = l.leave id) : w.InsertsLocked id v := by
  refine ⟨l, items, hl.imp_right And.right, hh, hq, hv, ?_⟩
  have hc : l.ids.count id ≤ 1 := by
    rcases hl with rfl | ⟨ht, rfl⟩
    · exact h.once id
    · rw [Turnstile.count_enter, if_pos rfl, Lines.count_absent hm h ht]
  rw [hv, Turnstile.mem_ids, Turnstile.count_leave, if_pos rfl]
  omega

theorem refillTurn_inserts {items : List WorkItem} {entered : Bool} (h : w.Latched)
    (hm : (⟨id, .refill items entered⟩ : Job) ∈ w.jobs)
    (hq : w.queue.refills < (w.refillTurn id items entered).queue.refills) :
    w.InsertsLocked id (w.refillTurn id items entered) := by
  unfold refillTurn at hq ⊢
  cases entered with
  | true =>
    simp only [if_true] at hq ⊢
    split at hq
    · rename_i hh
      rw [if_pos hh]
      exact .of_leave h hm (.inl rfl) hh rfl rfl
    · exact absurd hq (Nat.lt_irrefl _)
  | false =>
    simp only [Bool.false_eq_true, if_false] at hq ⊢
    split at hq
    · rename_i hh
      rw [if_pos hh]
      exact .of_leave h hm (.inr ⟨rfl, rfl⟩) hh rfl rfl
    · exact absurd hq (Nat.lt_irrefl _)

theorem refills_lockTurn (w : World) (id : TaskId) (deadline : Nat) (entered : Bool) :
    (w.lockTurn id deadline entered).queue.refills = w.queue.refills := by
  unfold lockTurn
  cases entered with
  | true =>
    simp only [if_true]
    split
    · rfl
    · split <;> rfl
  | false =>
    simp only [Bool.false_eq_true, if_false]
    split
    · rfl
    · split <;> rfl

end World

theorem PlanTask.Round.inserts {t : PlanTask} (h : t.Round w id v) (hw : w.Latched)
    (hm : (⟨id, .plan t⟩ : Job) ∈ w.jobs) (hq : w.queue.refills < v.queue.refills) :
    w.InsertsLocked id v := by
  have idle (hq : w.queue.refills < w.queue.refills) : w.InsertsLocked id v :=
    absurd hq (Nat.lt_irrefl _)
  cases h with
  | rests => exact idle hq
  | ends => exact idle hq
  | heeds => exact idle hq
  | waits => exact idle hq
  | asks => exact idle hq
  | refills ticker ht hh =>
    refine .of_leave hw hm (.inr ⟨?_, rfl⟩) hh rfl rfl
    rcases ht.1 with ⟨hs, -⟩ | ⟨seen, hs⟩ <;> simp [Task.inLine, hs]
  | adds hs hh => exact .of_leave hw hm (.inl rfl) hh rfl rfl

namespace World

theorem turn_inserts (h : w.Scheduled) {k : Job} (ha : w.acting? id = some k) {signalFirst : Bool}
    (hq : w.queue.refills < (w.react (.step (.turn id signalFirst))).queue.refills) :
    w.InsertsLocked id (w.react (.step (.turn id signalFirst))) := by
  obtain ⟨served, hs⟩ := h.sound
  obtain ⟨-, hm, rfl⟩ := mem_of_acting? ha
  rw [react_of_acts ha] at hq ⊢
  rcases k with ⟨id, task⟩
  have idle {x : World} (he : x.queue.refills = w.queue.refills)
      (hq : w.queue.refills < x.queue.refills) : False :=
    Nat.lt_irrefl _ (he ▸ hq)
  cases hl : task.usesLock with
  | true =>
    cases task with
    | plan t =>
      obtain ⟨hact, hpause⟩ := h.toPlanned.refills _ hm
      exact (t.turn_round hact hpause signalFirst).inserts h.toLatched hm hq
    | refill items entered => exact refillTurn_inserts h.toLatched hm hq
    | lock deadline entered => exact (idle (w.refills_lockTurn id deadline entered) hq).elim
    | _ => cases hl
  | false =>
    cases hg : task.isManage with
    | true =>
      cases task with
      | manage t =>
        refine (idle (x := t.turn w id) ?_ hq).elim
        rcases t.turn_does h.toWired (h.proper id t hm nofun) with he | ⟨n, v, hd, he⟩
        · rw [he]
        · have hv : (t.turn w id).queue.refills = v.queue.refills := by
            generalize t.turn w id = u at he
            cases he <;> rfl
          exact hv.trans hd.refills
      | _ => cases hg
    | false =>
      have hv : w.Aloof id (task.turn w id signalFirst) :=
        Task.turn_aloof hg hl (hs.isSteady hm) w signalFirst
      exact (idle hv.refills hq).elim

theorem react_inserts (h : w.Scheduled) (hq : w.queue.refills < (w.react e).queue.refills) :
    (∃ items, e = .addAll items) ∨
    ∃ id signalFirst, e = .step (.turn id signalFirst) ∧ w.InsertsLocked id (w.react e) := by
  have idle (he : (w.react e).queue.refills = w.queue.refills) : False :=
    Nat.lt_irrefl _ (he ▸ hq)
  cases e with
  | step s =>
    cases s with
    | turn id signalFirst =>
      cases ha : w.acting? id with
      | some k => exact .inr ⟨id, signalFirst, rfl, turn_inserts h ha hq⟩
      | none =>
        refine (idle ?_).elim
        rw [react, step_turn_eq, ha]
        rfl
    | pass nanos => exact (idle rfl).elim
  | launch t =>
    refine (idle ?_).elim
    rw [react]
    split <;> rfl
  | cancel id =>
    refine (idle ?_).elim
    simp only [react]
    split
    · split
      · exact w.refills_abort id
      · rfl
    · rfl
  | offer item => exact (idle (w.queue.refills_offer item)).elim
  | addAll items => exact .inl ⟨items, rfl⟩
  | close =>
    refine (idle ?_).elim
    simp only [react, WorkQueue.close]
    split <;> rfl
  | schedule p =>
    obtain ⟨signals, hf, -⟩ := w.follow_cases p
    refine (idle ?_).elim
    rw [react, hf]
  | dropManager =>
    obtain ⟨v, hc, -, hd⟩ := w.dropManager_cases
    refine (idle ?_).elim
    rw [react, hd]
    exact (hc.deeds 0).refills
  | _ => exact (idle rfl).elim

theorem Tends.isLive {a : Actor} {calm : Prop} (h : w.Tends a calm v) (hi : id < w.nextId)
    (ha : ∀ k, a = .job k → k.id ≠ id) (hl : v.isLive id = true) : w.isLive id = true := by
  obtain ⟨j, hj, he⟩ := List.any_eq_true.1 hl
  rw [beq_iff_eq] at he
  subst he
  rcases h.jobs j hj with hm | ⟨k, hk, hid, -⟩ | ⟨t, hm, -⟩ | ⟨hn, -⟩
  · exact isLive_of_mem hm
  · exact absurd hid.symm (ha k hk)
  · exact isLive_of_mem (j := ⟨j.id, .crawl t⟩) hm
  · exact absurd hi (Nat.not_lt.2 hn)

theorem isLive_react (hi : id < w.nextId) (hl : (w.react e).isLive id = true) :
    w.isLive id = true := by
  by_cases ha : ∃ k, w.actor e = .job k ∧ k.id = id
  · obtain ⟨k, hk, rfl⟩ := ha
    obtain ⟨_, _, -, ha⟩ := of_actor_eq_job hk
    exact isLive_of_mem (mem_of_acting? ha).2.1
  · exact (tends_react w e).isLive hi (fun k hk hid => ha ⟨k, hk, hid⟩) hl

structure Lined (w : World) (id : TaskId) : Prop extends w.Scheduled where
  issued : id < w.nextId
  adds : ∀ j ∈ w.jobs, j.id = id → j.task.addsItems = true
  there : id ∈ w.refillLock.ids → w.isLive id = true

theorem Lined.of_mem (h : w.Scheduled) {t : Task} (hm : ⟨id, t⟩ ∈ w.jobs)
    (ht : t.addsItems = true) : w.Lined id := by
  obtain ⟨n, hs⟩ := h.sound
  refine ⟨h, hs.lt_nextId hm, fun j hj hid => ?_, fun _ => isLive_of_mem hm⟩
  rw [hs.eq_of_mem hm hj hid]
  exact ht

theorem Lined.react (h : w.Lined id) (e : Event) : (w.react e).Lined id := by
  refine ⟨h.toScheduled.react e, Nat.lt_of_lt_of_le h.issued (w.nextId_react e), ?_, fun hk => ?_⟩
  · rintro j hj rfl
    rcases (tends_react w e).jobs j hj with hm | ⟨k, hk, hid, hg⟩ | ⟨t, hm, -⟩ | ⟨hn, -⟩
    · exact h.adds j hm rfl
    · obtain ⟨_, _, -, ha⟩ := of_actor_eq_job hk
      rw [hg.addsItems]
      exact h.adds k (mem_of_acting? ha).2.1 hid.symm
    · cases h.adds _ hm rfl
    · exact absurd h.issued (Nat.not_lt.2 hn)
  · have hl := react_lines h.toLatched h.toSettled h.toPlanned e
    by_cases ho : (w.actor e).id? = some id
    · refine (hl.own id ho hk).2.2 ?_
      cases ha : w.actor e with
      | outside t => rfl
      | job k =>
        rw [ha] at ho
        obtain ⟨_, _, -, hk⟩ := of_actor_eq_job ha
        have hadds := h.adds k (mem_of_acting? hk).2.1 (Option.some.inj ho)
        rcases k with ⟨i, task⟩
        cases task <;> first | rfl | cases hadds
    · have hw := Nat.lt_of_lt_of_le (Turnstile.mem_ids.1 hk) (hl.within id ho)
      obtain ⟨j, hj, he⟩ := List.any_eq_true.1 (h.there (Turnstile.mem_ids.2 hw))
      rw [beq_iff_eq] at he
      subst he
      exact hl.stays j hj ho hk

theorem Lined.waits (h : w.Lined id) (hk : id ∈ w.refillLock.ids) :
    ∃ j ∈ w.jobs, j.id = id ∧ j.task.inLine = true := by
  obtain ⟨j, hj, he⟩ := List.any_eq_true.1 (h.there hk)
  rw [beq_iff_eq] at he
  exact ⟨j, hj, he, h.inLine j hj (he ▸ hk)⟩

section Stopping

variable {t : ManagerTask} {p c : TaskId}

theorem awaitPlan_answer (hp : ∀ j ∈ w.jobs, j.id = p → j.task.signal? ≠ none)
    (hi : p < w.nextId) (hn : c ≠ p) (deadline : Nat) :
    (t.awaitPlan w c p deadline).isLive p = false ∨
      t.awaitPlan w c p deadline = t.stay w c (.planEnding p deadline) := by
  have gone {x : World} (hx : x.isLive p = false) (hl : p < x.nextId) :
      (t.askSlot x c).isLive p = false := by
    have ha : x.Aside (.job ⟨c, .manage t⟩) False (t.askSlot x c) :=
      ManagerTask.askSlot_aside False.elim
    rw [← Bool.not_eq_true] at hx ⊢
    exact fun hk => hx (ha.isLive hl (fun k hk => by cases hk; exact hn) hk)
  unfold ManagerTask.awaitPlan
  cases hl : w.isLive p with
  | false => exact .inl (gone hl hi)
  | true =>
    simp only [Bool.not_true, Bool.false_eq_true, if_false]
    split
    · exact .inl (gone (abort_plan hp) (by rw [← w.nextId_abort p] at hi; exact hi))
    · exact .inr rfl

structure Stopping (w : World) (c p : TaskId) : Prop extends w.CalledOff p where
  called : c < w.nextId
  waits : w.isLive p = true → ∀ j ∈ w.jobs, j.id = c →
    ∃ deadline, j.task = .manage ⟨.stop, .planEnding p deadline⟩

def returns (c : TaskId) (w : World) (e : Event) : Bool := w.acts c e && (w.outcome? e).isSome

def Awaits (c p : TaskId) (w v : World) : Prop :=
  v.isLive p = false ∨ v.ended = w.ended ∧ ∀ j ∈ v.jobs, j.id = c →
    ∃ deadline, j.task = .manage ⟨.stop, .planEnding p deadline⟩

theorem awaitPlan_awaits (ht : t.call = .stop) (hp : ∀ j ∈ w.jobs, j.id = p → j.task.signal? ≠ none)
    (hi : p < w.nextId) (hn : c ≠ p) (deadline : Nat) :
    Awaits c p w (t.awaitPlan w c p deadline) := by
  refine (awaitPlan_answer hp hi hn deadline).imp_right fun hs => ?_
  rw [hs]
  refine ⟨rfl, own_keepLast (P := fun task => ∃ deadline, task =
    .manage ⟨.stop, .planEnding p deadline⟩) ⟨deadline, ?_⟩⟩
  rw [ht]

theorem Awaits.returned (h : Awaits c p w (w.react e)) (hr : w.returns c e = true) :
    (w.react e).isLive p = false := by
  rw [returns, Bool.and_eq_true] at hr
  refine h.resolve_right fun ⟨he, _⟩ => ?_
  rw [outcome?_of_eq he] at hr
  cases hr.2

theorem Stopping.turn (h : w.Stopping c p) (signalFirst : Bool) {k : Job}
    (ha : w.acting? c = some k) : Awaits c p w (w.react (.step (.turn c signalFirst))) := by
  cases hl : w.isLive p with
  | false =>
    rw [← Bool.not_eq_true] at hl
    refine .inl ?_
    rw [← Bool.not_eq_true]
    exact fun hv => hl (isLive_react h.issued hv)
  | true =>
    obtain ⟨-, hm, rfl⟩ := mem_of_acting? ha
    obtain ⟨deadline, ht⟩ := h.waits hl k hm rfl
    rcases k with ⟨c, task⟩
    cases ht
    have hp : ∀ j ∈ w.jobs, j.id = p → j.task.signal? ≠ none := by
      intro j hj hid hs
      obtain ⟨i, hi, -⟩ := h.signalled j hj hid
      cases hs.symm.trans hi
    have hv : w.react (.step (.turn c signalFirst)) =
        ManagerTask.awaitPlan w c ⟨.stop, .planEnding p deadline⟩ p deadline := react_of_acts ha
    rw [hv]
    exact awaitPlan_awaits rfl hp h.issued (fun hc => hp _ hm hc rfl) deadline

theorem Stopping.react (h : w.Stopping c p) (e : Event) : (w.react e).Stopping c p := by
  refine ⟨h.toCalledOff.react e, Nat.lt_of_lt_of_le h.called (w.nextId_react e),
    fun hl j hj hid => ?_⟩
  cases ha : w.acts c e with
  | true =>
    obtain ⟨signalFirst, k, rfl, hk⟩ := acts_iff.1 ha
    rcases h.turn signalFirst hk with hn | ⟨-, hw⟩
    · cases hn.symm.trans hl
    · exact hw j hj hid
  | false =>
    have hwaits := h.waits (isLive_react h.issued hl)
    rcases bystander ha h.called j hj hid with hm | ⟨s, hm, -⟩
    · exact hwaits j hm hid
    · obtain ⟨deadline, hd⟩ := hwaits _ hm rfl
      cases hd

theorem Stopping.returned (h : w.Stopping c p) (hr : w.returns c e = true) :
    (w.react e).isLive p = false := by
  obtain ⟨signalFirst, k, rfl, hk⟩ := acts_iff.1 (Bool.and_eq_true_iff.1 hr).1
  exact (h.turn signalFirst hk).returned hr

theorem Scheduled.stop_turn (h : w.Scheduled) {s : Schedule} (hs : w.manager.schedule = some s)
    (ha : w.acting? c = some ⟨c, .manage ⟨.stop, .entering⟩⟩) (signalFirst : Bool) :
    (w.react (.step (.turn c signalFirst))).Raised s.signal ∧
      Awaits c s.task w (w.react (.step (.turn c signalFirst))) := by
  obtain ⟨hi, hsig⟩ := h.followed s hs
  have hne : c ≠ s.task := fun hc => by cases hsig _ (mem_of_acting? ha).2.1 hc
  let x := (w.changeManager fun m => { m with schedule := none }).setSignal s.signal true
  let deadline := w.now + w.manager.shutdownTimeout.nanos
  have hturn : w.react (.step (.turn c signalFirst)) =
      ManagerTask.awaitPlan x c ⟨.stop, .entering⟩ s.task deadline := by
    have hr : w.react (.step (.turn c signalFirst)) = ManagerTask.turn w c ⟨.stop, .entering⟩ :=
      react_of_acts ha
    rw [hr]
    simp only [ManagerTask.turn, ManagerTask.enter, hs]
    rfl
  have hx : x.Wired := by
    have hr : w.Chore (w.setSignal s.signal true) := .raise s.signal
    have hk := hr.wired h.toWired
    exact ⟨hk.signals, hk.closed, hk.slot, fun s hs => (by cases hs)⟩
  have hraised : x.Raised s.signal := raised_setSignal (w := w.changeManager _) (h.plan s hs)
  have hl : s.signal < x.signals.length := by
    simpa [x, setSignal, changeManager] using h.plan s hs
  have hdoes : ManagerTask.Does c ⟨.stop, .entering⟩ x _ :=
    ManagerTask.awaitPlan_does hx rfl s.task deadline
  obtain ⟨n, v, hd, he⟩ := hdoes
  rw [hturn]
  refine ⟨(hd.onward.trans he.apart.onward).raised hl hraised, ?_⟩
  exact awaitPlan_awaits (w := x) rfl (fun j hj hid hno => by cases hno.symm.trans (hsig j hj hid))
    hi hne deadline

theorem Scheduled.stops (h : w.Scheduled) {s : Schedule} (hs : w.manager.schedule = some s)
    (ha : w.acting? c = some ⟨c, .manage ⟨.stop, .entering⟩⟩) (signalFirst : Bool) :
    let e := .step (.turn c signalFirst)
    (w.react e).Stopping c s.task ∧
      (w.returns c e = true → (w.react e).isLive s.task = false) := by
  intro e
  obtain ⟨n, hn⟩ := h.sound
  obtain ⟨hi, hsig⟩ := h.followed s hs
  obtain ⟨hraised, hawaits⟩ := h.stop_turn hs ha signalFirst
  refine ⟨⟨⟨h.react e, Nat.lt_of_lt_of_le hi (w.nextId_react e), fun j hj hid => ?_⟩, ?_, ?_⟩,
    hawaits.returned⟩
  · obtain ⟨k, hk, hkid, hks⟩ := h.heir e j hj (hid ▸ hi)
    exact ⟨s.signal, hks ▸ hsig k hk (hkid.trans hid), hraised⟩
  · exact Nat.lt_of_lt_of_le (hn.lt_nextId (mem_of_acting? ha).2.1) (w.nextId_react e)
  · intro hl
    exact (hawaits.resolve_left fun hno => by cases hno.symm.trans hl).2

end Stopping

theorem Lined.play (h : w.Lined id) (later : List Event) : (w.play later).Lined id :=
  play_induction (I := (Lined · id)) (fun _ e _ h => h.react e) h

theorem CalledOff.gone (h : w.CalledOff id) (hl : w.isLive id = false) (later : List Event) :
    w.times (inserts id) later = 0 := by
  have hz : w.ofTask id Task.insertsLeft ≤ 0 := ofTask_le fun j hj hid => by
    rw [← hid, isLive_of_mem hj] at hl
    cases hl
  exact Nat.le_zero.1 (Nat.le_trans (h.play later).2 hz)

theorem CalledOff.isReady (h : w.CalledOff id) {t : PlanTask} (hm : ⟨id, .plan t⟩ ∈ w.jobs) :
    t.stage = .locking ∨ t.isReady w id = true := by
  obtain ⟨i, hi, hr⟩ := h.signalled _ hm rfl
  cases hi
  cases hs : t.stage with
  | looking => exact .inr (by rw [PlanTask.isReady, hs])
  | ticking seen =>
    have hheard : (w.signal t.signal).Heard seen := h.toPlanned.hears _ hm seen hs
    refine .inr ?_
    rw [PlanTask.isReady, hs]
    exact Bool.or_eq_true_iff.2 (.inl (hheard.hasNews hr))
  | locking => exact .inl rfl
  | pausing due => exact absurd hs ((h.toPlanned.refills _ hm).2 due)

theorem CalledOff.now_react (h : w.CalledOff id) {t : PlanTask} (hm : ⟨id, .plan t⟩ ∈ w.jobs)
    (hs : t.stage ≠ .locking)
    (hv : ∀ nanos, e = .step (.pass nanos) → w.Elapses (Span.nanosInMilli ∣ ·) none nanos) :
    (w.react e).now = w.now := by
  rw [(time_react w e).1, Nat.add_eq_left]
  unfold elapsed
  split
  · rename_i nanos
    have hready : t.isReady w id = true := (h.isReady hm).resolve_left hs
    refine Nat.eq_zero_of_not_pos fun hpos => ?_
    have hquiet : t.isReady w id = false :=
      (hv nanos rfl).quiet w.now (.inl rfl) (Nat.le_refl _) (Nat.lt_add_of_pos_right hpos) _ hm
    cases hquiet.symm.trans hready
  · rfl

theorem CalledOff.on_time (h : w.CalledOff id) {t : PlanTask} (hm : ⟨id, .plan t⟩ ∈ w.jobs)
    {later : List Event} (hv : w.IsVirtual later) :
    t.AtTick w ∨ w.times (inserts id) later = 0 := by
  induction later generalizing w with
  | nil => exact .inr rfl
  | cons e rest ih =>
    cases ha : w.acts id e with
    | true => exact h.first_turn hm ha rest
    | false =>
      by_cases hs : t.stage = .locking
      · exact .inl (.inl hs)
      -- No time passes before its turn, so its tick is as far off as when it was told to end.
      have hnow := h.now_react hm hs hv.1
      have hidle : w.times (inserts id) (e :: rest) = (w.react e).times (inserts id) rest := by
        rw [times, inserts, ha, Bool.false_and, Bool.toNat_false, Nat.zero_add]
      rw [hidle]
      cases hl : (w.react e).isLive id with
      | false => exact .inr ((h.react e).gone hl rest)
      | true =>
        obtain ⟨j, hj, hid⟩ := List.any_eq_true.1 hl
        have hb : w.times (acts id) [e] = 0 := by
          rw [times, ha]
          rfl
        cases h.untouched hm hb j hj (beq_iff_eq.1 hid)
        refine (ih (h.react e) hj hv.2).imp_left fun hat => ?_
        rw [PlanTask.AtTick, hnow] at hat
        exact hat

theorem Scheduled.told_or_followed (h : w.Scheduled) {t : PlanTask}
    (hm : ⟨id, .plan t⟩ ∈ w.jobs) :
    w.Raised t.signal ∨ ∃ k, w.manager.schedule = some k ∧ k.task = id :=
  (h.told _ hm t.signal rfl).2

theorem CalledOff.at_tick (h : w.CalledOff id) {t : PlanTask} (hm : ⟨id, .plan t⟩ ∈ w.jobs)
    {before after : List Event} (hb : w.times (acts id) before = 0)
    (ha : (w.play before).acts id e = true) :
    t.AtTick (w.play before) ∨ w.times (inserts id) (before ++ e :: after) = 0 := by
  obtain ⟨signalFirst, k, rfl, hk⟩ := acts_iff.1 ha
  obtain ⟨-, hkm, hid⟩ := mem_of_acting? hk
  rw [h.untouched hm hb k hkm hid] at hkm
  refine ((h.play before).1.first_turn hkm ha after).imp_right fun hz => ?_
  rw [times_append, hz, Nat.add_zero]
  have hle :=
    times_mono (fun w e (h : w.inserts id e = true) => (Bool.and_eq_true_iff.1 h).1) w before
  exact Nat.le_zero.1 (Nat.le_trans hle (Nat.le_of_eq hb))

theorem Scheduled.stopped (h : w.Scheduled) {c : TaskId} {k : Schedule} {signalFirst : Bool}
    (ha : w.acting? c = some ⟨c, .manage ⟨.stop, .entering⟩⟩) (hk : w.manager.schedule = some k)
    {before after later : List Event}
    (he : .step (.turn c signalFirst) :: later = before ++ e :: after)
    (hr : (w.play before).returns c e = true) :
    ((w.play before).react e).isLive k.task = false ∧
    ((w.play before).react e).times (inserts k.task) after = 0 := by
  obtain ⟨hs, hfirst⟩ := h.stops hk ha signalFirst
  have hgone : (w.react (.step (.turn c signalFirst))).CalledOff k.task ∧
      ((w.play before).react e).CalledOff k.task ∧
      ((w.play before).react e).isLive k.task = false := by
    cases before with
    | nil =>
      cases he
      exact ⟨hs.toCalledOff, hs.toCalledOff, hfirst hr⟩
    | cons x rest =>
      cases he
      have hv : ((w.react (.step (.turn c signalFirst))).play rest).Stopping c k.task :=
        play_induction (I := (Stopping · c k.task)) (fun _ e _ h => h.react e) hs
      exact ⟨hs.toCalledOff, hv.toCalledOff.react e, hv.returned hr⟩
  exact ⟨hgone.2.2, hgone.2.1.gone hgone.2.2 after⟩

/-- Plans are called off, whatever follows what: every plan is followed or has been told to end; one
that was told adds the workload at most once more. It has something to do at once unless it waits for
the lock, so that in virtual time it does so only if it was in its action or its tick was due when it
was told; if time goes by before its next turn all the same, then only if the tick was due by that
turn. When a call that stops the manager comes back the plan that it took has gone and adds nothing
more. Nothing is added in bulk from inside but by a task that has the refill lock meanwhile, and such
a task stands in the line for the lock only while it waits for it. -/
theorem called_off (s : Setup) (events later : List Event) :
    let w := s.world.play events
    let v := w.play later
    (∀ id t, ⟨id, .plan t⟩ ∈ w.jobs →
      w.Raised t.signal ∨ ∃ k, w.manager.schedule = some k ∧ k.task = id) ∧
    (∀ id t, ⟨id, .plan t⟩ ∈ w.jobs → w.Raised t.signal →
      w.times (inserts id) later ≤ 1 ∧
      (t.stage = .locking ∨ t.isReady w id = true) ∧
      (w.IsVirtual later → t.AtTick w ∨ w.times (inserts id) later = 0) ∧
      ∀ before e after, later = before ++ e :: after → w.times (acts id) before = 0 →
        (w.play before).acts id e = true →
        t.AtTick (w.play before) ∨ w.times (inserts id) later = 0) ∧
    (∀ c k signalFirst, w.acting? c = some ⟨c, .manage ⟨.stop, .entering⟩⟩ →
      w.manager.schedule = some k → ∀ before e after,
      .step (.turn c signalFirst) :: later = before ++ e :: after →
      (w.play before).returns c e = true →
      ((w.play before).react e).isLive k.task = false ∧
      ((w.play before).react e).times (inserts k.task) after = 0) ∧
    (∀ e, w.queue.refills < (w.react e).queue.refills → (∃ items, e = .addAll items) ∨
      ∃ id signalFirst, e = .step (.turn id signalFirst) ∧ w.InsertsLocked id (w.react e)) ∧
    (∀ id task, ⟨id, task⟩ ∈ w.jobs → task.addsItems = true → id ∈ v.refillLock.ids →
      ∃ j ∈ v.jobs, j.id = id ∧ j.task.inLine = true) := by
  intro w v
  have hw : w.Scheduled := play_scheduled s events
  refine ⟨fun id t hm => hw.told_or_followed hm, fun id t hm hr => ?_, ?_, ?_, ?_⟩
  · have ho : w.CalledOff id := .of_plan hw hm hr
    obtain ⟨n, hs⟩ := hw.sound
    refine ⟨Nat.le_trans (ho.play later).2 ?_, ho.isReady hm, ho.on_time hm, ?_⟩
    · rw [ofTask_of_mem hs hm]
      show t.stage.insertsLeft ≤ 1
      cases t.stage <;> simp [PlanStage.insertsLeft]
    · rintro before e after rfl hb ha
      exact ho.at_tick hm hb ha
  · intro c k signalFirst ha hk before e after he hr
    exact hw.stopped ha hk he hr
  · exact fun e hq => react_inserts hw hq
  · exact fun id task hm ht hk => ((Lined.of_mem hw hm ht).play later).waits hk

def overtaken : List Event :=
  [.launch (.lock 0 false), .step (.turn 0 true), .schedule ⟨⟨1⟩, .zero, 1⟩, .step (.turn 1 true),
    .launch (.manage ⟨.stop, .entering⟩), .step (.turn 2 true)]

def wayOut : List Event :=
  [.unlock 0, .step (.turn 1 true), .step (.turn 1 true), .step (.turn 2 true)]

def toldEarly : List Event :=
  [.schedule ⟨.ofMillis 1000, .ofMillis 1000, 1⟩, .step (.turn 0 true),
    .launch (.manage ⟨.stop, .entering⟩), .step (.turn 1 true)]

def endsAtOnce : List Event :=
  [.step (.turn 0 false), .step (.turn 0 false), .step (.turn 1 true)]

theorem called_off_overtaken :
    let w := Account.lone.world.play overtaken
    let v := Account.lone.world.play toldEarly
    ((∃ t, ⟨1, .plan t⟩ ∈ w.jobs ∧ w.Raised t.signal ∧ t.AtTick w) ∧
      w.times (inserts 1) wayOut = 1 ∧ w.times (inserts 1) wayOut ≤ 1 ∧
      (w.play wayOut).isLive 1 = false) ∧
    (∃ t, ⟨0, .plan t⟩ ∈ v.jobs ∧ v.Raised t.signal ∧ ¬ t.AtTick v) ∧
      v.IsVirtual endsAtOnce ∧ v.times (inserts 0) endsAtOnce = 0 := by
  intro w v
  refine ⟨?_, ?_⟩
  · obtain ⟨t, hj, hr, ht⟩ : ∃ t, w.job? 1 = some ⟨1, .plan t⟩ ∧ w.Raised t.signal ∧ t.AtTick w :=
      ⟨_, rfl, rfl, .inl rfl⟩
    have hm := (mem_of_job? hj).1
    refine ⟨⟨t, hm, hr, ht⟩, by decide, ?_, by decide⟩
    exact ((called_off Account.lone overtaken wayOut).2.1 1 t hm hr).1
  · obtain ⟨t, hj, hr, ht⟩ : ∃ t, v.job? 0 = some ⟨0, .plan t⟩ ∧ v.Raised t.signal ∧
        ¬ t.AtTick v := by
      refine ⟨_, rfl, rfl, ?_⟩
      rintro (hs | ⟨-, hd⟩)
      · cases hs
      · exact absurd hd (by decide)
    have hm := (mem_of_job? hj).1
    have hv : v.IsVirtual endsAtOnce := .turn (.turn (.turn trivial))
    refine ⟨⟨t, hm, hr, ht⟩, hv, ?_⟩
    have hlate := ((called_off Account.lone toldEarly endsAtOnce).2.1 0 t hm hr).2.2.1 hv
    exact hlate.resolve_left ht

end World

end CatalogCrawl

import CatalogCrawl.Proofs.World.Plans

namespace CatalogCrawl

variable {w v u : World} {id : TaskId} {n : Nat} {e : Event} {served : Served}

namespace Turnstile

def ids (l : Turnstile) : List Nat := l.holder.toList ++ l.waiting

theorem count_enter (l : Turnstile) (who i : Nat) :
    (l.enter who).ids.count i = l.ids.count i + if who = i then 1 else 0 := by
  rcases l with ⟨_ | holder, waiting⟩
  · simp [enter, ids, List.count_cons]
  · simp [enter, ids, List.count_cons, List.count_append, List.count_nil]
    omega

theorem ids_leave (l : Turnstile) (who : Nat) : (l.leave who).ids = l.ids.erase who := by
  rcases l with ⟨_ | holder, waiting⟩
  · simp [leave, heldBy, ids]
  · by_cases h : holder = who
    · cases waiting <;> simp [leave, heldBy, ids, h]
    · simp [leave, heldBy, ids, h]

theorem count_leave (l : Turnstile) (who i : Nat) :
    (l.leave who).ids.count i = l.ids.count i - if who = i then 1 else 0 := by
  rw [ids_leave]
  by_cases h : who = i
  · rw [h, List.count_erase_self, if_pos rfl]
  · rw [List.count_erase_of_ne (Ne.symm h), if_neg h, Nat.sub_zero]

theorem mem_ids {l : Turnstile} {i : Nat} : i ∈ l.ids ↔ 0 < l.ids.count i :=
  List.count_pos_iff.symm

end Turnstile

def Task.inLine : Task → Bool
  | .plan t => t.stage == .locking
  | .refill _ entered | .lock _ entered => entered
  | _ => false

theorem Task.inLine_of_usesLock {t : Task} (h : t.usesLock = false) : t.inLine = false := by
  cases t <;> first | rfl | cases h

namespace World

structure Latched (w : World) : Prop where
  once : ∀ i, w.refillLock.ids.count i ≤ 1
  known : ∀ i ∈ w.refillLock.ids, i < w.nextId
  inLine : ∀ j ∈ w.jobs, j.id ∈ w.refillLock.ids → j.task.inLine = true

structure Lines (own : Option TaskId) (mayKeep : Bool) (w v : World) : Prop where
  within : ∀ i, own ≠ some i → v.refillLock.ids.count i ≤ w.refillLock.ids.count i
  stays : ∀ j ∈ w.jobs, own ≠ some j.id → j.id ∈ v.refillLock.ids → v.isLive j.id = true
  own : ∀ i, own = some i → i ∈ v.refillLock.ids → v.refillLock.ids.count i ≤ 1 ∧
    (∀ j ∈ v.jobs, j.id = i → j.task.inLine = true) ∧ (mayKeep = false → v.isLive i = true)

theorem isLive_of_mem {j : Job} (h : j ∈ w.jobs) : w.isLive j.id = true :=
  List.any_eq_true.2 ⟨j, h, beq_self_eq_true j.id⟩

namespace Lines

variable {mayKeep : Bool} {t s : Task}

theorem of_lock (hl : v.refillLock = w.refillLock) (hj : ∀ j ∈ w.jobs, v.isLive j.id = true) :
    Lines none mayKeep w v :=
  ⟨fun i _ => Nat.le_of_eq (by rw [hl]), fun j hm _ _ => hj j hm, nofun⟩

theorem trans (h : Lines none mayKeep w v) (k : Lines none mayKeep v u) :
    Lines none mayKeep w u := by
  refine ⟨fun i _ => ?_, fun j hj _ hi => ?_, nofun⟩
  · exact Nat.le_trans (k.within i nofun) (h.within i nofun)
  · have hv : j.id ∈ v.refillLock.ids :=
      Turnstile.mem_ids.2 (Nat.lt_of_lt_of_le (Turnstile.mem_ids.1 hi) (k.within j.id nofun))
    obtain ⟨x, hx, he⟩ := List.any_eq_true.1 (h.stays j hj nofun hv)
    rw [beq_iff_eq] at he
    rw [← he] at hi ⊢
    exact k.stays x hx nofun hi

theorem refl {own : Option TaskId} (h : w.Latched)
    (hm : ∀ i, own = some i → w.isLive i = true) : Lines own mayKeep w w := by
  refine ⟨fun i _ => Nat.le_refl _, fun j hj _ _ => isLive_of_mem hj, fun i hi hk => ?_⟩
  exact ⟨h.once i, fun j hj he => h.inLine j hj (he ▸ hk), fun _ => hm i hi⟩

theorem count_absent (hm : (⟨id, t⟩ : Job) ∈ w.jobs) (h : w.Latched) (ht : t.inLine = false) :
    w.refillLock.ids.count id = 0 := by
  rw [List.count_eq_zero]
  intro hk
  cases ht.symm.trans (h.inLine _ hm hk)

theorem of_absent (hm : (⟨id, t⟩ : Job) ∈ w.jobs) (h : w.Latched) (ht : t.inLine = false)
    (hl : v.refillLock = w.refillLock) (hj : ∀ j ∈ w.jobs, j.id ≠ id → j ∈ v.jobs) :
    Lines (some id) mayKeep w v := by
  refine ⟨fun i _ => Nat.le_of_eq (by rw [hl]), fun j hk hn _ => ?_, fun i hi hk => ?_⟩
  · exact isLive_of_mem (hj j hk fun he => hn (by rw [he]))
  · cases hi
    rw [hl, Turnstile.mem_ids, count_absent hm h ht] at hk
    cases hk

theorem of_leave {l : Turnstile} (hm : (⟨id, t⟩ : Job) ∈ w.jobs) (h : w.Latched)
    (hl : l = w.refillLock ∨ t.inLine = false ∧ l = w.refillLock.enter id)
    (hv : v.refillLock = l.leave id) (hj : ∀ j ∈ w.jobs, j.id ≠ id → j ∈ v.jobs) :
    Lines (some id) mayKeep w v := by
  have hc : l.ids.count id ≤ 1 := by
    rcases hl with rfl | ⟨ht, rfl⟩
    · exact h.once id
    · rw [Turnstile.count_enter, if_pos rfl, count_absent hm h ht]
  refine ⟨fun i hi => ?_, fun j hk hn _ => ?_, fun i hi hk => ?_⟩
  · have hne : id ≠ i := fun he => hi (by rw [he])
    rw [hv, Turnstile.count_leave, if_neg hne]
    rcases hl with rfl | ⟨-, rfl⟩
    · exact Nat.le_refl _
    · rw [Turnstile.count_enter, if_neg hne]
      exact Nat.le_refl _
  · exact isLive_of_mem (hj j hk fun he => hn (by rw [he]))
  · cases hi
    have hp := Turnstile.mem_ids.1 hk
    rw [hv, Turnstile.count_leave, if_pos rfl] at hp
    omega

theorem of_enter (hm : (⟨id, t⟩ : Job) ∈ w.jobs) (h : w.Latched) (ht : t.inLine = false)
    (hv : v.refillLock = w.refillLock.enter id) (hj : ∀ j ∈ w.jobs, j.id ≠ id → j ∈ v.jobs)
    (hi : ∀ j ∈ v.jobs, j.id = id → j.task.inLine = true)
    (hk : mayKeep = false → v.isLive id = true) : Lines (some id) mayKeep w v := by
  refine ⟨fun i hi => ?_, fun j hj' hn _ => ?_, fun i he _ => ?_⟩
  · have hne : id ≠ i := fun he => hi (by rw [he])
    rw [hv, Turnstile.count_enter, if_neg hne]
    exact Nat.le_refl _
  · exact isLive_of_mem (hj j hj' fun he => hn (by rw [he]))
  · cases he
    rw [hv, Turnstile.count_enter, if_pos rfl, count_absent hm h ht]
    exact ⟨Nat.le_refl _, hi, hk⟩

end Lines

theorem Latched.lines {own : Option TaskId} {mayKeep : Bool} (h : w.Latched)
    (hl : Lines own mayKeep w v) (hn : w.nextId ≤ v.nextId)
    (hi : ∀ i, own = some i → i < w.nextId)
    (hj : ∀ j ∈ v.jobs, own ≠ some j.id → j ∈ w.jobs ∨ w.nextId ≤ j.id ∨
      ∃ t : CrawlTask, (⟨j.id, .crawl t⟩ : Job) ∈ w.jobs) : v.Latched := by
  have old : ∀ i ∈ v.refillLock.ids, own ≠ some i → i ∈ w.refillLock.ids := by
    intro i hm ho
    exact Turnstile.mem_ids.2 (Nat.lt_of_lt_of_le (Turnstile.mem_ids.1 hm) (hl.within i ho))
  refine ⟨fun i => ?_, fun i hm => ?_, fun j hm hk => ?_⟩
  · by_cases ho : own = some i
    · by_cases hm : i ∈ v.refillLock.ids
      · exact (hl.own i ho hm).1
      · rw [List.count_eq_zero.2 hm]
        exact Nat.zero_le 1
    · exact Nat.le_trans (hl.within i ho) (h.once i)
  · by_cases ho : own = some i
    · exact Nat.lt_of_lt_of_le (hi i ho) hn
    · exact Nat.lt_of_lt_of_le (h.known i (old i hm ho)) hn
  · by_cases ho : own = some j.id
    · exact (hl.own j.id ho hk).2.1 j hm rfl
    · have hw := old j.id hk ho
      rcases hj j hm ho with hj | hj | ⟨t, hj⟩
      · exact h.inLine j hj hw
      · exact absurd (h.known j.id hw) (Nat.not_lt.2 hj)
      · cases h.inLine _ hj hw

section Aborting

variable {mayKeep : Bool} {t : Task}

theorem Lines.of_removed (hm : (⟨id, t⟩ : Job) ∈ w.jobs) (h : w.Latched)
    (hl : v.refillLock = w.refillLock ∧ t.inLine = false ∨ v.refillLock = w.refillLock.leave id)
    (hj : ∀ j ∈ w.jobs, j.id ≠ id → j ∈ v.jobs) : Lines none mayKeep w v := by
  have hn : id ∉ v.refillLock.ids := by
    rw [Turnstile.mem_ids]
    rcases hl with ⟨hl, ht⟩ | hl
    · rw [hl, Lines.count_absent hm h ht]
      exact Nat.lt_irrefl 0
    · have ho := h.once id
      rw [hl, Turnstile.count_leave, if_pos rfl]
      omega
  refine ⟨fun i _ => ?_, fun j hk _ hi => ?_, nofun⟩
  · rcases hl with ⟨hl, -⟩ | hl
    · exact Nat.le_of_eq (by rw [hl])
    · rw [hl, Turnstile.count_leave]
      exact Nat.sub_le _ _
  · exact isLive_of_mem (hj j hk fun he => hn (he ▸ hi))

theorem abort_lines (h : w.Latched) (id : TaskId) : Lines none mayKeep w (w.abort id) := by
  unfold abort
  cases hj : w.job? id with
  | none => exact .of_lock rfl fun j hm => isLive_of_mem hm
  | some j =>
    obtain ⟨hm, hi⟩ := mem_of_job? hj
    rcases j with ⟨i, task⟩
    cases hi
    cases task with
    | crawl t =>
      simp only
      split
      · refine .of_lock rfl fun j hj => ?_
        by_cases he : j.id = i
        · have hk : (⟨i, .crawl { t with doomed := true }⟩ : Job) ∈
              (w.keepInPlace i (.crawl { t with doomed := true })).jobs :=
            List.mem_map.2 ⟨_, hm, if_pos (beq_self_eq_true i)⟩
          rw [he]
          exact isLive_of_mem hk
        · exact isLive_of_mem (stay_keepInPlace j hj he)
      · exact .of_removed hm h (.inl ⟨rfl, rfl⟩) stay_removeJob
      · exact .of_removed hm h (.inl ⟨rfl, rfl⟩) stay_removeJob
    | poll ticket deadline =>
      cases ticket with
      | some ticket => exact .of_removed hm h (.inl ⟨rfl, rfl⟩) stay_removeJob
      | none => exact .of_removed hm h (.inr rfl) stay_removeJob
    | _ => exact .of_removed hm h (.inr rfl) stay_removeJob

theorem abort_latched (h : w.Latched) (id : TaskId) : (w.abort id).Latched := by
  have hl : Lines none false w (w.abort id) := abort_lines h id
  refine h.lines hl (Nat.le_of_eq (w.nextId_abort id).symm) nofun
    fun j hm _ => ?_
  rcases mem_jobs_abort hm with hm | ⟨t, item, -, hm, -⟩
  · exact .inl hm
  · exact .inr (.inr ⟨t, hm⟩)

theorem Deed.latched (hd : w.Deed id n v) (h : w.Latched) :
    v.Latched ∧ Lines none mayKeep w v := by
  have same (hl : v.refillLock = w.refillLock) (hj : v.jobs = w.jobs) (hn : v.nextId = w.nextId) :
      v.Latched ∧ Lines none mayKeep w v := by
    have hw : Lines none mayKeep w v := .of_lock hl fun j hm => isLive_of_mem (hj ▸ hm)
    exact ⟨h.lines hw (Nat.le_of_eq hn.symm) nofun fun j hm _ => .inl (hj ▸ hm), hw⟩
  cases hd with
  | chore hc =>
    cases hc with
    | abort task => exact ⟨abort_latched h task, abort_lines h task⟩
    | _ => exact same rfl rfl rfl
  | opens =>
    obtain ⟨journal, hs⟩ := w.spawnPool_eq
    rw [hs]
    have hw : Lines none mayKeep w (w.withPool journal) :=
      .of_lock rfl fun j hm => isLive_of_mem (List.mem_append_left _ hm)
    refine ⟨h.lines hw (Nat.le_add_right _ _) nofun fun j hm _ => ?_, hw⟩
    refine (List.mem_append.1 hm).imp_right fun hm => .inl ?_
    obtain ⟨i, -, rfl⟩ := List.mem_mapIdx.1 hm
    exact Nat.le_add_right _ _
  | _ => exact same rfl rfl rfl

theorem Deeds.latched (hd : Deeds id n w v) (h : w.Latched) :
    v.Latched ∧ Lines none mayKeep w v := by
  induction hd with
  | refl w => exact ⟨h, .of_lock rfl fun j hm => isLive_of_mem hm⟩
  | head hd _ ih =>
    obtain ⟨hv, hl⟩ := hd.latched h
    obtain ⟨hu, hk⟩ := ih hv
    exact ⟨hu, hl.trans hk⟩

end Aborting

end World

open World

namespace PlanTask

variable {t : PlanTask}

theorem Round.lines (h : t.Round w id v) (hm : (⟨id, .plan t⟩ : Job) ∈ w.jobs) (hw : w.Latched) :
    Lines (some id) false w v := by
  have out (hs : t.stage ≠ .locking) : (Task.plan t).inLine = false := by
    simpa [Task.inLine] using hs
  have ticks (hs : t.Ticks w) : (Task.plan t).inLine = false := by
    rcases hs.1 with ⟨hs, -⟩ | ⟨seen, hs⟩ <;> exact out (by simp [hs])
  cases h with
  | rests => exact .refl hw fun i hi => by cases hi; exact isLive_of_mem hm
  | ends hs => exact .of_absent hm hw (out hs) rfl stay_removeJob
  | heeds seen hs => exact .of_absent hm hw (out (by simp [hs])) rfl stay_keepFirst
  | waits seen hs => exact .of_absent hm hw (out (by simp [hs])) rfl stay_keepLast
  | asks ticker hs =>
    exact .of_enter hm hw (ticks hs) rfl stay_keepLast (own_keepLast (P := (·.inLine = true)) rfl)
      fun _ => isLive_of_mem (mem_jobs_keepLast.2 (.inr rfl))
  | refills ticker hs => exact .of_leave hm hw (.inr ⟨ticks hs, rfl⟩) rfl stay_keepFirst
  | adds => exact .of_leave hm hw (.inl rfl) rfl stay_keepFirst

end PlanTask

namespace World

theorem refillTurn_lines {items : List WorkItem} {entered : Bool}
    (hm : (⟨id, .refill items entered⟩ : Job) ∈ w.jobs) (hw : w.Latched) :
    Lines (some id) false w (w.refillTurn id items entered) := by
  unfold refillTurn
  cases entered with
  | true =>
    simp only [if_true]
    split
    · exact .of_leave hm hw (.inl rfl) rfl stay_removeJob
    · exact .refl hw fun i hi => by cases hi; exact isLive_of_mem hm
  | false =>
    simp only [Bool.false_eq_true, if_false]
    split
    · exact .of_leave hm hw (.inr ⟨rfl, rfl⟩) rfl stay_removeJob
    · exact .of_enter hm hw rfl rfl stay_keepLast (own_keepLast (P := (·.inLine = true)) rfl)
        fun _ => isLive_of_mem (mem_jobs_keepLast.2 (.inr rfl))

theorem lockTurn_lines {deadline : Nat} {entered : Bool}
    (hm : (⟨id, .lock deadline entered⟩ : Job) ∈ w.jobs) (hw : w.Latched) :
    Lines (some id) true w (w.lockTurn id deadline entered) := by
  have gone (v : World) : ∀ j ∈ (v.finish id (.flag true)).jobs, j.id = id → j.task.inLine = true :=
    own_removeJob (w := v) (P := (·.inLine = true))
  unfold lockTurn
  cases entered with
  | true =>
    simp only [if_true]
    split
    · refine ⟨fun i _ => Nat.le_refl _, fun j hj hn _ => ?_, fun i hi _ => ?_⟩
      · exact isLive_of_mem (stay_removeJob j hj fun he => hn (by rw [he]))
      · cases hi
        exact ⟨hw.once id, gone w, nofun⟩
    split
    · exact .of_leave hm hw (.inl rfl) rfl stay_removeJob
    · exact .refl hw fun i hi => by cases hi; exact isLive_of_mem hm
  | false =>
    simp only [Bool.false_eq_true, if_false]
    split
    · exact .of_enter hm hw rfl rfl stay_removeJob (gone _) nofun
    split
    · exact .of_leave hm hw (.inr ⟨rfl, rfl⟩) rfl stay_removeJob
    · exact .of_enter hm hw rfl rfl stay_keepLast (own_keepLast (P := (·.inLine = true)) rfl) nofun

end World

namespace ManagerTask

variable {t : ManagerTask}

theorem Ends.stay (h : t.Ends id v n u) :
    u.refillLock = v.refillLock ∧ ∀ j ∈ v.jobs, j.id ≠ id → j ∈ u.jobs := by
  cases h with
  | stays => exact ⟨rfl, stay_keepLast⟩
  | returns => exact ⟨rfl, stay_removeJob⟩
  | leaves => exact ⟨rfl, stay_removeJob⟩

theorem Ends.lines {mayKeep : Bool} (he : t.Ends id v n u) (hl : Lines none mayKeep w v)
    (hm : (⟨id, .manage t⟩ : Job) ∈ w.jobs) (h : w.Latched) : Lines (some id) mayKeep w u := by
  obtain ⟨hlock, hjobs⟩ := he.stay
  refine ⟨fun i _ => ?_, fun j hj hn hk => ?_, fun i hi hk => ?_⟩
  · rw [hlock]
    exact hl.within i nofun
  · rw [hlock] at hk
    obtain ⟨x, hx, hid⟩ := List.any_eq_true.1 (hl.stays j hj nofun hk)
    rw [beq_iff_eq] at hid
    rw [← hid]
    exact isLive_of_mem (hjobs x hx fun hc => hn (by rw [← hid, hc]))
  · cases hi
    rw [hlock, Turnstile.mem_ids] at hk
    have hz := Nat.lt_of_lt_of_le hk (hl.within id nofun)
    rw [Lines.count_absent hm h rfl] at hz
    cases hz

end ManagerTask

namespace Actor

def id? : Actor → Option TaskId
  | .job k => some k.id
  | .outside _ => none

/-- Whether one who acts may have the refill lock when it is over. -/
def mayKeep : Actor → Bool
  | .job ⟨_, .lock ..⟩ => true
  | _ => false

end Actor

namespace World

theorem turn_lines (h : w.Latched) (hw : w.Settled) (hp : w.Planned) {k : Job}
    (ha : w.acting? id = some k) (signalFirst : Bool) :
    Lines (some k.id) (Actor.job k).mayKeep w (w.react (.step (.turn id signalFirst))) := by
  obtain ⟨served, hs⟩ := hw.sound
  obtain ⟨-, hm, rfl⟩ := mem_of_acting? ha
  rw [react_of_acts ha]
  rcases k with ⟨id, task⟩
  cases hl : task.usesLock with
  | true =>
    cases task with
    | plan t =>
      obtain ⟨hact, hpause⟩ := hp.refills _ hm
      exact (t.turn_round hact hpause signalFirst).lines hm h
    | refill items entered => exact refillTurn_lines hm h
    | lock deadline entered => exact lockTurn_lines hm h
    | _ => cases hl
  | false =>
    cases hg : task.isManage with
    | true =>
      cases task with
      | manage t =>
        rcases t.turn_does hw.toWired (hw.proper id t hm nofun) with he | ⟨n, v, hd, he⟩
        · show Lines (some id) _ w (t.turn w id)
          rw [he]
          exact .refl h fun i hi => by cases hi; exact isLive_of_mem hm
        · exact he.lines (hd.latched h).2 hm h
      | _ => cases hg
    | false =>
      have hv : w.Aloof id (task.turn w id signalFirst) :=
        Task.turn_aloof hg hl (hs.isSteady hm) w signalFirst
      exact .of_absent hm h (Task.inLine_of_usesLock hl) hv.lock hv.others

theorem react_lines (h : w.Latched) (hw : w.Settled) (hp : w.Planned) (e : Event) :
    Lines (w.actor e).id? (w.actor e).mayKeep w (w.react e) := by
  have same (v : World) (hl : v.refillLock = w.refillLock) (hj : ∀ j ∈ w.jobs, j ∈ v.jobs) :
      Lines none false w v :=
    .of_lock hl fun j hm => isLive_of_mem (hj j hm)
  cases e with
  | step s =>
    cases s with
    | turn id signalFirst =>
      cases ha : w.acting? id with
      | some k =>
        rw [actor, ha]
        exact turn_lines h hw hp ha signalFirst
      | none =>
        rw [actor, react, step_turn_eq, ha]
        exact same w rfl fun j hm => hm
    | pass nanos => exact same _ rfl fun j hm => hm
  | launch t =>
    simp only [react]
    split
    · exact same _ rfl fun j hm => List.mem_append_left _ hm
    · exact same w rfl fun j hm => hm
  | cancel id =>
    simp only [react]
    split
    · split
      · exact abort_lines h id
      · exact same w rfl fun j hm => hm
    · exact same w rfl fun j hm => hm
  | unlock holder =>
    refine ⟨fun i _ => ?_, fun j hm _ _ => isLive_of_mem hm, fun _ hi => by cases hi⟩
    show (w.refillLock.leave holder).ids.count i ≤ _
    rw [Turnstile.count_leave]
    exact Nat.sub_le _ _
  | schedule p =>
    obtain ⟨signals, hf, -⟩ := w.follow_cases p
    rw [react, hf]
    exact same _ rfl fun j hm => List.mem_append_left _ hm
  | dropManager =>
    obtain ⟨v, hc, -, hd⟩ := w.dropManager_cases
    have hl : Lines none false w v := ((hc.deeds 0).latched h).2
    rw [react, hd]
    exact ⟨hl.within, hl.stays, hl.own⟩
  | _ => exact same _ rfl fun j hm => hm

theorem Latched.react (h : w.Latched) (hw : w.Settled) (hp : w.Planned) (e : Event) :
    (w.react e).Latched := by
  obtain ⟨n, hs⟩ := hw.sound
  refine h.lines (react_lines h hw hp e) (w.nextId_react e) (fun i hi => ?_) fun j hj ho => ?_
  · cases ha : w.actor e with
    | job k =>
      rw [ha] at hi
      cases hi
      obtain ⟨_, _, -, hk⟩ := of_actor_eq_job ha
      exact hs.issued k (by rw [others_none]; exact (mem_of_acting? hk).2.1)
    | outside t =>
      rw [ha] at hi
      cases hi
  · rcases (tends_react w e).jobs j hj with hm | ⟨k, hk, hi, -⟩ | ⟨t, hm, -⟩ | ⟨hn, -⟩
    · exact .inl hm
    · rw [hk] at ho
      exact absurd (by rw [hi]; rfl) ho
    · exact .inr (.inr ⟨t, hm⟩)
    · exact .inr (.inl hn)

theorem setup_latched (s : Setup) : s.world.Latched := by
  obtain ⟨hj, -, -, -, -, hl, -⟩ := setup_fresh s
  refine ⟨?_, ?_, ?_⟩
  · simp [hl, Turnstile.free, Turnstile.ids]
  · simp [hl, Turnstile.free, Turnstile.ids]
  · simp [hj]

end World

end CatalogCrawl

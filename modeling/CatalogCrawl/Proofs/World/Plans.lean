import CatalogCrawl.Proofs.World.Order

namespace CatalogCrawl

variable {w v u : World} {id : TaskId} {n : Nat} {e : Event} {served : Served}

namespace PlanTask

variable {t : PlanTask}

def Ticks (w : World) (t : PlanTask) : Prop :=
  (t.stage = .looking ∧ (w.signal t.signal).raised = false ∨ ∃ seen, t.stage = .ticking seen) ∧
    t.ticker.due ≤ w.now

def askMessage : String := "partition manager: execute plan - waiting for queue lock"

inductive Round (w : World) (id : TaskId) (t : PlanTask) : World → Prop
  | rests (h : t.isReady w id = false) : t.Round w id w
  | ends (h : t.stage ≠ .locking) : t.Round w id (w.finish id .nothing)
  | heeds (seen : Nat) (h : t.stage = .ticking seen) :
    t.Round w id (w.keepFirst id (.plan { t with stage := .looking }))
  | waits (seen : Nat) (h : t.stage = .looking) (hr : (w.signal t.signal).raised = false)
    (hv : seen = (w.signal t.signal).version) :
    t.Round w id (w.keepLast id (.plan { t with stage := .ticking seen }))
  | asks (ticker : Ticker) (h : t.Ticks w) :
    t.Round w id (((w.report (.debug askMessage)).enterLock id).keepLast id
      (.plan { t with ticker := ticker, stage := .locking }))
  | refills (ticker : Ticker) (h : t.Ticks w) (hh : (w.refillLock.enter id).heldBy id = true) :
    t.Round w id (({ t with ticker := ticker } : PlanTask).refillNow
      ((w.report (.debug askMessage)).enterLock id) id)
  | adds (h : t.stage = .locking) (hh : w.refillLock.heldBy id = true) :
    t.Round w id (t.refillNow w id)

theorem act_round (ha : t.action = .refill) (h : t.Ticks w) : t.Round w id (t.act w id) := by
  unfold act
  simp only
  split
  · split
    · rename_i hh
      exact .refills _ h hh
    · exact .asks _ h
  · rename_i hl
    cases ha.symm.trans hl

theorem turn_round (ha : t.action = .refill) (hp : ∀ due, t.stage ≠ .pausing due)
    (signalFirst : Bool) : t.Round w id (t.turn w id signalFirst) := by
  unfold turn
  split
  · rename_i hs
    unfold look
    simp only
    split
    · exact .ends (by simp [hs])
    rename_i hr
    simp only [Bool.or_eq_true, not_or, Bool.not_eq_true] at hr
    split
    · rename_i hd
      exact act_round ha ⟨.inl ⟨hs, hr.1⟩, by simpa using hd⟩
    · exact .waits _ hs hr.1 rfl
  · rename_i seen hs
    simp only
    split
    · split
      · exact .heeds seen hs
      · exact .ends (by simp [hs])
    rename_i hn
    split
    · rename_i hd
      exact act_round ha ⟨.inr ⟨seen, hs⟩, by simpa using hd⟩
    · rename_i hd
      have hd' : ¬ t.ticker.due ≤ w.now := by simpa using hd
      refine .rests ?_
      simpa [isReady, hs, hd'] using hn
  · rename_i hs
    split
    · rename_i hh
      exact .adds hs hh
    · rename_i hh
      exact .rests (by simpa [isReady, hs] using hh)
  · rename_i due hs
    exact absurd hs (hp due)

def Refills (t : PlanTask) : Prop := t.action = .refill ∧ ∀ due, t.stage ≠ .pausing due

def Hears (w : World) (t : PlanTask) : Prop :=
  ∀ seen, t.stage = .ticking seen → (w.signal t.signal).Heard seen

structure Heir (w : World) (t s : PlanTask) : Prop where
  refills : s.Refills
  hears : s.Hears w
  signal : s.signal = t.signal

theorem Round.own (h : t.Round w id v) (ht : t.Refills) :
    ∀ j ∈ v.jobs, j ∈ w.jobs ∨ ∃ s : PlanTask, j = ⟨id, .plan s⟩ ∧ t.Heir w s := by
  have last {x : World} {s : PlanTask} (hx : x.jobs = w.jobs) (hs : t.Heir w s) :
      ∀ j ∈ (x.keepLast id (.plan s)).jobs, j ∈ w.jobs ∨
        ∃ s : PlanTask, j = ⟨id, .plan s⟩ ∧ t.Heir w s := by
    intro j hj
    rcases World.mem_jobs_keepLast.1 hj with ⟨hm, -⟩ | rfl
    · exact .inl (hx ▸ hm)
    · exact .inr ⟨s, rfl, hs⟩
  have first {x : World} {s : PlanTask} (hx : x.jobs = w.jobs) (hs : t.Heir w s) :
      ∀ j ∈ (x.keepFirst id (.plan s)).jobs, j ∈ w.jobs ∨
        ∃ s : PlanTask, j = ⟨id, .plan s⟩ ∧ t.Heir w s := by
    intro j hj
    rcases World.mem_jobs_keepFirst.1 hj with rfl | ⟨hm, -⟩
    · exact .inr ⟨s, rfl, hs⟩
    · exact .inl (hx ▸ hm)
  cases h with
  | rests => exact fun j hj => .inl hj
  | ends => exact fun j hj => .inl (World.mem_jobs_removeJob.1 hj).1
  | heeds => exact first rfl ⟨⟨ht.1, nofun⟩, nofun, rfl⟩
  | waits seen _ hr hv =>
    refine last rfl ⟨⟨ht.1, nofun⟩, fun k hk => ?_, rfl⟩
    cases hk
    exact hv ▸ Signal.heard_version (Bool.eq_false_iff.1 hr)
  | asks => exact last rfl ⟨⟨ht.1, nofun⟩, nofun, rfl⟩
  | refills => exact first rfl ⟨⟨ht.1, nofun⟩, nofun, rfl⟩
  | adds => exact first rfl ⟨⟨ht.1, nofun⟩, nofun, rfl⟩

end PlanTask

namespace Task

def signal? : Task → Option Nat
  | .plan t => some t.signal
  | _ => none

def Refills : Task → Prop
  | .plan t => t.Refills
  | _ => True

def Hears (w : World) : Task → Prop
  | .plan t => t.Hears w
  | _ => True

theorem refills_of_none {t : Task} (h : t.signal? = none) : t.Refills := by
  cases t with
  | plan t => cases h
  | _ => trivial

theorem hears_of_none {t : Task} (h : t.signal? = none) : t.Hears w := by
  cases t with
  | plan t => cases h
  | _ => trivial

theorem Hears.onward {t : Task} (h : t.Hears w) (ho : w.Onward v)
    (hi : ∀ i, t.signal? = some i → i < w.signals.length) : t.Hears v := by
  cases t with
  | plan t => exact fun seen hs => (h seen hs).rises (ho.rises _ (hi _ rfl))
  | _ => trivial

end Task

theorem Task.GoesOn.signal? {t s : Task} (h : t.GoesOn s) (ht : t.signal? = none) :
    s.signal? = none := by
  unfold GoesOn at h
  split at h
  all_goals first | rfl | cases ht | exact h.elim

theorem Task.signal?_of_isEntry {t : Task} (h : t.isEntry = true) : t.signal? = none := by
  cases t <;> first | rfl | cases h

theorem Actor.Starts.signal? {a : Actor} {config : CrawlerConfig} {t : Task} (h : a.Starts config t)
    (ha : a ≠ .outside none) : t.signal? = none := by
  unfold Starts at h
  split at h
  · rfl
  · rfl
  · exact absurd rfl ha
  · obtain ⟨rfl, he⟩ := h
    exact Task.signal?_of_isEntry he
  · exact h.elim

namespace World

/-- A task that is there afterwards refills the queue if it is a plan; it is new and no plan, or it is
a plan with the same signal as before. -/
def Stems (w : World) (j : Job) : Prop :=
  j.task.Refills ∧ j.task.Hears w ∧ (w.nextId ≤ j.id ∧ j.task.signal? = none ∨
    ∃ k ∈ w.jobs, k.id = j.id ∧ k.task.signal? = j.task.signal?)

structure Planned (w : World) : Prop where
  refills : ∀ j ∈ w.jobs, j.task.Refills
  hears : ∀ j ∈ w.jobs, j.task.Hears w
  told : ∀ j ∈ w.jobs, ∀ i, j.task.signal? = some i → i < w.signals.length ∧
    (w.Raised i ∨ ∃ s, w.manager.schedule = some s ∧ s.task = j.id)
  followed : ∀ s, w.manager.schedule = some s → s.task < w.nextId ∧
    ∀ j ∈ w.jobs, j.id = s.task → j.task.signal? = some s.signal

theorem Planned.stems (h : w.Planned) {j : Job} (hj : j ∈ w.jobs) : w.Stems j :=
  ⟨h.refills j hj, h.hears j hj, .inr ⟨j, hj, rfl, rfl⟩⟩

theorem Planned.onward (h : w.Planned) (ho : w.Onward v) (hn : w.nextId ≤ v.nextId)
    (hj : ∀ j ∈ v.jobs, w.Stems j)
    (hs : v.manager.schedule = w.manager.schedule ∨ v.manager.schedule = none ∧
      ∀ s, w.manager.schedule = some s → v.Raised s.signal ∨ v.isLive s.task = false) :
    v.Planned := by
  refine ⟨fun j hm => (hj j hm).1, fun j hm => (hj j hm).2.1.onward ho fun i hi => ?_,
    fun j hm i hi => ?_, fun s hk => ?_⟩
  · rcases (hj j hm).2.2 with ⟨-, hx⟩ | ⟨k, hk, -, hx⟩
    · cases hx.symm.trans hi
    · exact (h.told k hk i (hx.trans hi)).1
  · rcases (hj j hm).2.2 with ⟨-, hx⟩ | ⟨k, hk, he, hx⟩
    · cases hx.symm.trans hi
    · obtain ⟨hl, ht⟩ := h.told k hk i (hx.trans hi)
      refine ⟨Nat.lt_of_lt_of_le hl ho.signals, ?_⟩
      rcases ht with hr | ⟨s, hw, hid⟩
      · exact .inl (ho.raised hl hr)
      · rcases hs with hs | ⟨-, hs⟩
        · exact .inr ⟨s, hs.trans hw, hid.trans he⟩
        · rcases hs s hw with hr | hgone
          · have hsig := (h.followed s hw).2 k hk hid.symm
            cases hsig.symm.trans (hx.trans hi)
            exact .inl hr
          · have hlive : v.isLive s.task = true :=
              List.any_eq_true.2 ⟨j, hm, beq_iff_eq.2 (he.symm.trans hid.symm)⟩
            cases hgone.symm.trans hlive
  · rcases hs with hs | ⟨hs, -⟩
    · obtain ⟨hl, hsig⟩ := h.followed s (hs ▸ hk)
      refine ⟨Nat.lt_of_lt_of_le hl hn, fun j hm he => ?_⟩
      rcases (hj j hm).2.2 with ⟨hnew, -⟩ | ⟨k, hk', hid, hx⟩
      · exact absurd (he ▸ hnew) (Nat.not_le.2 hl)
      · exact hx ▸ hsig k hk' (hid.trans he)
    · cases hs.symm.trans hk

theorem Stems.of_none {j : Job} (h : j.task.signal? = none)
    (ho : w.nextId ≤ j.id ∨ ∃ k ∈ w.jobs, k.id = j.id ∧ k.task.signal? = none) : w.Stems j := by
  refine ⟨Task.refills_of_none h, Task.hears_of_none h, ho.imp (fun hn => ⟨hn, h⟩) ?_⟩
  rintro ⟨k, hk, he, hs⟩
  exact ⟨k, hk, he, hs.trans h.symm⟩

theorem Planned.stems_origin (h : w.Planned) {a : Actor} {j : Job} (ho : j.Origin a w)
    (ha : ∀ k, a = .job k → k ∈ w.jobs ∧ k.task.signal? = none) (hn : a ≠ .outside none) :
    w.Stems j := by
  rcases ho with hm | ⟨k, hk, hi, hg⟩ | ⟨t, hm, ht⟩ | ⟨hi, hs⟩
  · exact h.stems hm
  · obtain ⟨hm, hs⟩ := ha k hk
    exact .of_none (hg.signal? hs) (.inr ⟨k, hm, hi.symm, hs⟩)
  · exact .of_none (by rw [ht]; rfl) (.inr ⟨_, hm, rfl, rfl⟩)
  · exact .of_none (hs.signal? hn) (.inl hi)

theorem Planned.stems_abort (h : w.Planned) (id : TaskId) : ∀ j ∈ (w.abort id).jobs, w.Stems j := by
  intro j hj
  rcases mem_jobs_abort hj with hm | ⟨t, item, -, hm, ht⟩
  · exact h.stems hm
  · exact .of_none (by rw [ht]; rfl) (.inr ⟨_, hm, rfl, rfl⟩)

theorem Planned.stems_turn (h : w.Planned) {signalFirst : Bool} {k : Job}
    (ha : w.acting? id = some k) :
    ∀ j ∈ (w.react (.step (.turn id signalFirst))).jobs, w.Stems j := by
  intro j hj
  obtain ⟨-, hm, rfl⟩ := mem_of_acting? ha
  cases hs : k.task.signal? with
  | none =>
    have hk : w.actor (.step (.turn k.id signalFirst)) = .job k := by rw [actor, ha]; rfl
    have ho := (tends_react w (.step (.turn k.id signalFirst))).jobs j hj
    rw [hk] at ho
    exact h.stems_origin ho (fun x hx => by cases hx; exact ⟨hm, hs⟩)
      fun hk => by cases hk
  | some i =>
    rw [react_of_acts ha] at hj
    have hf := h.refills k hm
    rcases k with ⟨x, task⟩
    cases task with
    | plan t =>
      rcases (t.turn_round hf.1 hf.2 signalFirst).own hf j hj with hj | ⟨s, rfl, hs⟩
      · exact h.stems hj
      · exact ⟨hs.refills, hs.hears, .inr ⟨_, hm, rfl, congrArg some hs.signal.symm⟩⟩
    | _ => cases hs

theorem Chores.jobs (h : w.Chores v) : ∀ j ∈ v.jobs, j ∈ w.jobs ∨
    ∃ s : CrawlTask, ⟨j.id, .crawl s⟩ ∈ w.jobs ∧ j.task = .crawl { s with doomed := true } := by
  induction h with
  | refl => exact fun j hj => .inl hj
  | tail _ hc ih =>
    intro j hj
    have hd : Deed 0 _ 0 _ := .chore hc
    rcases hd.jobs j hj with hm | ⟨s, hm, ht⟩ | ⟨hn, -⟩
    · exact ih j hm
    · rcases ih _ hm with hm | ⟨r, hm, hr⟩
      · exact .inr ⟨s, hm, ht⟩
      · cases hr
        exact .inr ⟨r, hm, ht⟩
    · cases hn

theorem Planned.stems_chores (h : w.Planned) (hc : w.Chores v) : ∀ j ∈ v.jobs, w.Stems j := by
  intro j hj
  rcases hc.jobs j hj with hm | ⟨s, hm, ht⟩
  · exact h.stems hm
  · exact .of_none (by rw [ht]; rfl) (.inr ⟨_, hm, rfl, rfl⟩)

theorem abort_plan (h : ∀ j ∈ w.jobs, j.id = id → j.task.signal? ≠ none) :
    (w.abort id).isLive id = false := by
  have gone (x : World) : (x.removeJob id).isLive id = false := by
    simp [isLive, removeJob]
  unfold abort
  cases hj : w.job? id with
  | none =>
    rw [← Bool.not_eq_true]
    intro hl
    obtain ⟨j, hm, hi⟩ := List.any_eq_true.1 hl
    exact absurd hi (List.find?_eq_none.1 hj j hm)
  | some j =>
    obtain ⟨hm, hi⟩ := mem_of_job? hj
    have hp := h j hm hi
    rcases j with ⟨i, task⟩
    cases task with
    | plan t => exact gone _
    | _ => exact absurd rfl hp

theorem Deed.schedule (h : w.Deed id n v) : v.manager.schedule = w.manager.schedule ∨
    v.manager.schedule = none ∧ ∀ s, w.manager.schedule = some s → w.Raised s.signal := by
  cases h with
  | chore hc => exact .inl (by rw [hc.manager])
  | forget ht => exact .inr ⟨rfl, ht⟩
  | opens =>
    obtain ⟨journal, hs⟩ := w.spawnPool_eq
    exact .inl (by rw [hs]; rfl)
  | _ => exact .inl rfl

theorem Deeds.schedule (h : Deeds id n w v) (hw : w.Wired) :
    v.manager.schedule = w.manager.schedule ∨
    v.manager.schedule = none ∧ ∀ s, w.manager.schedule = some s → v.Raised s.signal := by
  induction h with
  | refl => exact .inl rfl
  | @head w v u m n hd hk ih =>
    have raised {s : Schedule} (hs : w.manager.schedule = some s) (hr : w.Raised s.signal) :
        u.Raised s.signal :=
      (hd.onward.trans hk.onward).raised (hw.plan s hs) hr
    rcases ih (hd.wired hw) with hu | ⟨hu, hr⟩
    · rcases hd.schedule with hv | ⟨hv, hs⟩
      · exact .inl (hu.trans hv)
      · exact .inr ⟨hu.trans hv, fun s hm => raised hm (hs s hm)⟩
    · rcases hd.schedule with hv | ⟨-, hs⟩
      · exact .inr ⟨hu, fun s hm => hr s (hv.trans hm)⟩
      · exact .inr ⟨hu, fun s hm => raised hm (hs s hm)⟩

theorem Planned.follow (h : w.Planned) (hw : w.Sound none 0 served) (p : Plan) :
    (w.follow p).Planned := by
  obtain ⟨signals, hf, ho, hl, hr⟩ := w.follow_cases p
  rw [hf]
  refine ⟨fun j hj => ?_, fun j hj => ?_, fun j hj i hi => ?_, fun s hs => ?_⟩
  · rcases List.mem_append.1 hj with hj | hj
    · exact h.refills j hj
    · cases List.mem_singleton.1 hj
      exact ⟨rfl, nofun⟩
  · rcases List.mem_append.1 hj with hj | hj
    · exact (h.hears j hj).onward ⟨ho.signals, ho.rises, ho.pools, rfl⟩
        fun i hi => (h.told j hj i hi).1
    · cases List.mem_singleton.1 hj
      exact nofun
  · rcases List.mem_append.1 hj with hj | hj
    · obtain ⟨hi', ht⟩ := h.told j hj i hi
      refine ⟨Nat.lt_of_lt_of_le hi' ho.signals, .inl ?_⟩
      rcases ht with ht | ⟨s, hs, he⟩
      · exact ho.raised hi' ht
      · have hsig := (h.followed s hs).2 j hj he.symm
        cases hsig.symm.trans hi
        exact hr s hs hi'
    · cases List.mem_singleton.1 hj
      cases hi
      exact ⟨hl, .inr ⟨_, rfl, rfl⟩⟩
  · cases hs
    refine ⟨Nat.lt_succ_self _, fun j hj he => ?_⟩
    rcases List.mem_append.1 hj with hj | hj
    · exact absurd he (Nat.ne_of_lt (hw.lt_nextId hj))
    · cases List.mem_singleton.1 hj
      rfl

theorem Planned.dropManager (h : w.Planned) : w.dropManager.Planned := by
  obtain ⟨v, hc, ha, hd⟩ := w.dropManager_cases
  have hn := w.nextId_react .dropManager
  rw [World.react, hd] at hn
  rw [hd]
  have ho := hc.onward
  refine h.onward ⟨ho.signals, ho.rises, ho.pools, rfl⟩ hn (fun j hj => h.stems_chores hc j hj)
    (.inr ⟨rfl, fun s hs => .inr ?_⟩)
  obtain ⟨x, hx, rfl⟩ := ha s hs
  refine abort_plan fun j hj hi => ?_
  rcases (h.stems_chores hx j hj).2.2 with ⟨hnew, -⟩ | ⟨k, hk, he, hsig⟩
  · exact absurd (hi ▸ hnew) (Nat.not_le.2 (h.followed s hs).1)
  · rw [← hsig, (h.followed s hs).2 k hk (he.trans hi)]
    exact Option.some_ne_none _

theorem Planned.stems_react (h : w.Planned) (hm : w.isManaging e = false) :
    ∀ j ∈ (w.react e).jobs, w.Stems j := by
  have same (v : World) (hv : v.jobs = w.jobs) : ∀ j ∈ v.jobs, w.Stems j :=
    fun j hj => h.stems (hv ▸ hj)
  cases e with
  | step s =>
    cases s with
    | turn id signalFirst =>
      cases ha : w.acting? id with
      | some k => exact h.stems_turn ha
      | none =>
        refine same _ ?_
        rw [World.react, step_turn_eq, ha]
        rfl
    | pass nanos => exact same _ rfl
  | launch t =>
    intro j hj
    have ho : j.Origin (.outside (some t)) w := (tends_react w (.launch t)).jobs j hj
    exact h.stems_origin ho (by simp) (by simp)
  | cancel id =>
    simp only [World.react]
    split
    · split
      · exact h.stems_abort id
      · exact same w rfl
    · exact same w rfl
  | schedule p => cases hm
  | dropManager => cases hm
  | _ => exact same _ rfl

theorem Planned.react (h : w.Planned) (hw : w.Settled) (e : Event) : (w.react e).Planned := by
  obtain ⟨n, hs⟩ := hw.sound
  have ho := hw.onward e
  have hn := w.nextId_react e
  by_cases hm : w.isManaging e = true
  · rcases of_isManaging hm with ⟨id, signalFirst, t, rfl, ha, hr⟩ | ⟨p, rfl⟩ | rfl
    · refine h.onward ho hn (h.stems_turn ha) ?_
      rw [hr]
      rcases t.turn_does hw.toWired (hw.proper id t (mem_of_acting? ha).2.1 nofun) with
        he | ⟨n, v, hd, he⟩
      · exact .inl (by rw [he])
      · rw [he.apart.manager]
        refine (hd.schedule hw.toWired).imp_right fun hv => ⟨hv.1, fun s hs => .inl ?_⟩
        exact he.apart.onward.raised (Nat.lt_of_lt_of_le (hw.plan s hs) hd.onward.signals) (hv.2 s hs)
    · exact h.follow hs p
    · exact h.dropManager
  · rw [Bool.not_eq_true] at hm
    exact h.onward ho hn (h.stems_react hm) (.inl (by rw [(react_apart hs hm).manager]))

theorem Planned.heir (h : w.Planned) (e : Event) : ∀ j ∈ (w.react e).jobs, j.id < w.nextId →
    ∃ k ∈ w.jobs, k.id = j.id ∧ k.task.signal? = j.task.signal? := by
  intro j hj hi
  have old (hs : w.Stems j) : ∃ k ∈ w.jobs, k.id = j.id ∧ k.task.signal? = j.task.signal? :=
    hs.2.2.resolve_left fun hn => Nat.not_le.2 hi hn.1
  by_cases hm : w.isManaging e = true
  · rcases of_isManaging hm with ⟨id, signalFirst, t, rfl, ha, -⟩ | ⟨p, rfl⟩ | rfl
    · exact old (h.stems_turn ha j hj)
    · obtain ⟨signals, hf, -⟩ := w.follow_cases p
      rw [World.react, hf] at hj
      rcases List.mem_append.1 hj with hj | hj
      · exact ⟨j, hj, rfl, rfl⟩
      · rw [List.mem_singleton.1 hj] at hi
        exact absurd hi (Nat.lt_irrefl _)
    · obtain ⟨v, hc, -, hd⟩ := w.dropManager_cases
      rw [World.react, hd] at hj
      exact old (h.stems_chores hc j hj)
  · exact old (h.stems_react (Bool.not_eq_true _ ▸ hm) j hj)

theorem setup_planned (s : Setup) : s.world.Planned := by
  obtain ⟨hj, -, -, hs, -⟩ := setup_fresh s
  refine ⟨?_, ?_, ?_, ?_⟩
  · simp [hj]
  · simp [hj]
  · simp [hj]
  · simp [hs]

end World

end CatalogCrawl

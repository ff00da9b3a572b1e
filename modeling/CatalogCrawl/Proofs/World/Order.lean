import CatalogCrawl.Proofs.World.Counting
import CatalogCrawl.Proofs.World.Deeds

namespace CatalogCrawl

variable {w v u : World} {id other : TaskId} {t : ManagerTask} {n : Nat} {e : Event}
  {served : Served}

namespace Turnstile

variable {l : Turnstile}

theorem heldBy_enter (h : l.heldBy id = true) (other : TaskId) :
    (l.enter other).heldBy id = true := by
  rcases l with ⟨_ | holder, waiting⟩
  · cases h
  · exact h

theorem heldBy_leave (h : l.heldBy id = true) (hn : other ≠ id) :
    (l.leave other).heldBy id = true := by
  have ho : l.heldBy other = false := by
    simp only [heldBy, beq_iff_eq] at h
    simpa [heldBy, h] using hn.symm
  simp only [leave, ho]
  exact h

end Turnstile

open World

theorem ManagerTask.Proper.onward (h : t.Proper w id) (hw : w.Wired) (ho : w.Onward v)
    (hs : w.manager.slot.heldBy id = true → w.manager.pool = none →
      v.manager.slot.heldBy id = true ∧ v.manager.pool = none) : t.Proper v id := by
  unfold Proper at h ⊢
  split at h
  · exact h
  · obtain ⟨ht, hc⟩ := h
    refine ⟨ht.onward hw ho, hc.call, fun hr => ?_⟩
    obtain ⟨hh, hp⟩ := hc.slot hr
    exact hs hh hp
  · trivial

namespace World

theorem Deed.keepsOut (h : w.Deed id n v) (hn : id ≠ other)
    (hh : w.manager.slot.heldBy other = true) (hp : w.manager.pool = none) :
    v.manager.slot.heldBy other = true ∧ v.manager.pool = none := by
  have alone : w.manager.slot.heldBy id = false := by
    simp only [Turnstile.heldBy, beq_iff_eq] at hh
    simpa [Turnstile.heldBy, hh] using hn.symm
  cases h with
  | chore hc => exact hc.manager ▸ ⟨hh, hp⟩
  | pend => exact ⟨hh, hp⟩
  | enter => exact ⟨Turnstile.heldBy_enter hh id, hp⟩
  | leave => exact ⟨Turnstile.heldBy_leave hh hn, hp⟩
  | vacate hh => cases alone.symm.trans hh
  | forget => exact ⟨hh, hp⟩
  | opens hh => cases alone.symm.trans hh

theorem Deed.jobs (h : w.Deed id n v) : ∀ j ∈ v.jobs, j ∈ w.jobs ∨
    (∃ s : CrawlTask, ⟨j.id, .crawl s⟩ ∈ w.jobs ∧ j.task = .crawl { s with doomed := true }) ∨
    n = 1 ∧ ∃ c, j.task = crawlTask ⟨.created, w.signals.length, w.activities.length, []⟩ c ∧
      j.id ∈ List.range' w.nextId w.manager.crawlerCount := by
  intro j hj
  cases h with
  | chore hc =>
    cases hc with
    | abort task =>
      rcases mem_jobs_abort hj with hm | ⟨s, item, -, hm, ht⟩
      · exact .inl hm
      · exact .inr (.inl ⟨s, hm, ht⟩)
    | _ => exact .inl hj
  | opens =>
    obtain ⟨journal, hs⟩ := w.spawnPool_eq
    rw [hs] at hj
    rcases List.mem_append.1 hj with hm | hm
    · exact .inl hm
    · obtain ⟨i, hi, rfl⟩ := List.mem_mapIdx.1 hm
      rw [length_makeCrawlers] at hi
      refine .inr (.inr ⟨rfl, _, rfl, List.mem_range'_1.2 ⟨Nat.le_add_right _ _, ?_⟩⟩)
      exact Nat.add_lt_add_left hi _
  | _ => exact .inl hj

theorem Deed.manages {s : ManagerTask} (h : w.Deed id n v)
    (hm : (⟨other, .manage s⟩ : Job) ∈ v.jobs) : (⟨other, .manage s⟩ : Job) ∈ w.jobs := by
  rcases h.jobs _ hm with hm | ⟨k, -, hk⟩ | ⟨-, c, hc, -⟩
  · exact hm
  · cases hk
  · cases hc

structure Orderly (w : World) (own : Option TaskId) : Prop extends w.Wired where
  proper : ∀ i (s : ManagerTask), (⟨i, .manage s⟩ : Job) ∈ w.jobs → some i ≠ own → s.Proper w i

theorem Deed.orderly (h : w.Deed id n v) (hw : w.Orderly (some id)) : v.Orderly (some id) := by
  refine ⟨h.wired hw.toWired, fun i s hm hi => ?_⟩
  exact (hw.proper i s (h.manages hm) hi).onward hw.toWired h.onward
    (h.keepsOut fun he => hi (by rw [he]))

theorem Deeds.orderly (h : Deeds id n w v) (hw : w.Orderly (some id)) : v.Orderly (some id) := by
  induction h with
  | refl => exact hw
  | head hd _ ih => exact ih (hd.orderly hw)

theorem Orderly.of_jobs {own own' : Option TaskId} (h : w.Orderly own) (ho : w.Onward v)
    (hp : v.pools = w.pools) (hm : v.manager = w.manager)
    (hj : ∀ i (s : ManagerTask), (⟨i, .manage s⟩ : Job) ∈ v.jobs → some i ≠ own' →
      (⟨i, .manage s⟩ : Job) ∈ w.jobs ∧ some i ≠ own ∨ s.Proper w i) : v.Orderly own' := by
  refine ⟨h.toWired.of_onward ho hp (by rw [hm]) (by rw [hm]), fun i s hk hi => ?_⟩
  have hs : s.Proper w i := (hj i s hk hi).elim (fun hk => h.proper i s hk.1 hk.2) id
  exact hs.onward h.toWired ho fun hh hp => hm ▸ ⟨hh, hp⟩

end World

theorem ManagerTask.Ends.apart (h : t.Ends id v n u) : v.Apart u := by
  cases h <;> exact .of_eq rfl rfl rfl

theorem ManagerTask.Ends.jobs (h : t.Ends id v n u) : ∀ j ∈ u.jobs,
    j ∈ v.jobs ∧ j.id ≠ id ∨
    ∃ stage, j = ⟨id, .manage { t with stage := stage }⟩ ∧
      Proper v id { t with stage := stage } := by
  intro j hj
  cases h with
  | stays stage hs =>
    rcases mem_jobs_keepLast.1 hj with hm | rfl
    · exact .inl hm
    · exact .inr ⟨stage, rfl, hs⟩
  | returns r => exact .inl (mem_jobs_removeJob.1 hj)
  | leaves => exact .inl (mem_jobs_removeJob.1 hj)

theorem ManagerTask.Ends.orderly (h : t.Ends id v n u) (hv : v.Orderly (some id)) :
    u.Orderly none := by
  refine hv.of_jobs h.apart.onward h.apart.pools h.apart.manager fun i s hm _ => ?_
  rcases h.jobs _ hm with ⟨hm, hi⟩ | ⟨stage, he, hs⟩
  · exact .inl ⟨hm, fun hn => hi (Option.some.inj hn)⟩
  · cases he
    exact .inr hs

namespace World

def isManaging (w : World) : Event → Bool
  | .step (.turn id _) => (w.acting? id).any (·.task.isManage)
  | .schedule _ | .dropManager => true
  | _ => false

theorem of_isManaging (h : w.isManaging e = true) :
    (∃ id signalFirst t, e = .step (.turn id signalFirst) ∧
      w.acting? id = some ⟨id, .manage t⟩ ∧ w.react e = t.turn w id) ∨
    (∃ p, e = .schedule p) ∨ e = .dropManager := by
  cases e with
  | step s =>
    cases s with
    | turn id signalFirst =>
      cases hj : w.acting? id with
      | none => simp [isManaging, hj] at h
      | some j =>
        obtain ⟨-, -, rfl⟩ := mem_of_acting? hj
        rcases j with ⟨id, task⟩
        cases task with
        | manage t =>
          refine .inl ⟨id, signalFirst, t, rfl, hj, ?_⟩
          rw [react, step_turn_eq, hj]
          rfl
        | _ => simp [isManaging, hj, Task.isManage] at h
    | pass nanos => cases h
  | schedule p => exact .inr (.inl ⟨p, rfl⟩)
  | dropManager => exact .inr (.inr rfl)
  | _ => cases h

theorem Sound.isSteady (h : w.Sound none 0 served) {j : Job} (hm : j ∈ w.jobs) :
    j.task.IsSteady := by
  have hf := h.fit j (by rwa [others_none])
  rcases j with ⟨i, task⟩
  cases task with
  | crawl t => exact hf.1
  | _ => trivial

theorem react_apart (h : w.Sound none 0 served) (hm : w.isManaging e = false) :
    w.Apart (w.react e) := by
  cases e with
  | step s =>
    cases s with
    | turn id signalFirst =>
      rw [react, step_turn_eq]
      cases hj : w.acting? id with
      | none => exact .refl w
      | some j =>
        have hn : j.task.isManage = false := by simpa [isManaging, hj] using hm
        exact Task.turn_apart hn (h.isSteady (mem_of_acting? hj).2.1) w signalFirst
    | pass nanos => exact .of_eq rfl rfl rfl
  | launch t =>
    simp only [react]
    split <;> exact .of_eq rfl rfl rfl
  | cancel id =>
    simp only [react]
    split
    · split
      · exact abort_apart w id
      · exact .refl w
    · exact .refl w
  | schedule p => cases hm
  | dropManager => cases hm
  | _ => exact .of_eq rfl rfl rfl

theorem manages_react (hm : w.isManaging e = false) {s : ManagerTask}
    (hj : (⟨id, .manage s⟩ : Job) ∈ (w.react e).jobs) :
    (⟨id, .manage s⟩ : Job) ∈ w.jobs ∨ s.Proper w id := by
  rcases (tends_react w e).jobs _ hj with hj | ⟨k, hk, hi, hg⟩ | ⟨c, -, hc⟩ | ⟨-, hs⟩
  · exact .inl hj
  · obtain ⟨i, signalFirst, rfl, ha⟩ := of_actor_eq_job hk
    rcases k with ⟨i, task⟩
    cases task with
    | manage t => simp [isManaging, ha, Task.isManage] at hm
    | _ => exact hg.elim
  · cases hc
  · -- A call that has just been started from outside waits for nobody.
    rcases ha : w.actor e with ⟨i, task⟩ | _ | started
    · rw [ha] at hs
      cases task <;> exact hs.elim
    · rw [ha] at hs
      exact hs.elim
    · rw [ha] at hs
      obtain ⟨rfl, he⟩ := hs
      rcases s with ⟨call, stage⟩
      cases stage with
      | entering => exact .inr trivial
      | _ => cases he

theorem follow_cases (w : World) (p : Plan) : ∃ signals : List Signal, w.follow p = { w with
      jobs := w.jobs ++ [⟨w.nextId, .plan ⟨.start p.period.nanos (w.now + p.delay.nanos),
        w.signals.length, .refill, .looking⟩⟩]
      nextId := w.nextId + 1
      signals := signals
      manager := { w.manager with schedule := some ⟨p, w.nextId, w.signals.length⟩ } } ∧
    w.Onward { w with signals := signals } ∧ w.signals.length < signals.length ∧
    ∀ s, w.manager.schedule = some s → s.signal < w.signals.length →
      ({ w with signals := signals } : World).Raised s.signal := by
  have ha := w.onward_addSignal false
  unfold follow
  cases hs : w.manager.schedule with
  | none =>
    refine ⟨w.signals ++ [Signal.fresh false], by simp [addSignal, spawn, changeManager, hs], ha, by simp,
      fun s hn => by cases hn⟩
  | some s =>
    refine ⟨(w.signals ++ [Signal.fresh false]).modify s.signal (·.set true),
      by simp [addSignal, spawn, changeManager, setSignal, hs],
      ha.trans ((w.addSignal false).2.onward_setSignal s.signal), by simp, fun k hk hl => ?_⟩
    cases hk
    exact raised_setSignal (w := (w.addSignal false).2) (Nat.lt_of_lt_of_le hl ha.signals)

theorem dropManager_cases (w : World) : ∃ v : World, w.Chores v ∧
    (∀ s, w.manager.schedule = some s → ∃ x : World, w.Chores x ∧ v = x.abort s.task) ∧
    w.dropManager = { v with
      results := v.results.modify 0 ResultQueue.dropSender
      manager := { w.manager with pool := none, schedule := none, pending := [] } } := by
  unfold dropManager
  cases hp : w.manager.pool with
  | none =>
    cases hs : w.manager.schedule with
    | none => exact ⟨w, .refl, fun s hn => (by cases hn), by simp only [hp, hs]⟩
    | some s =>
      refine ⟨w.abort s.task, .single (.abort s.task), fun k hk => ?_, by simp only [hp, hs]⟩
      cases hk
      exact ⟨w, .refl, rfl⟩
  | some pool =>
    have hd := ManagerTask.dropPool_chores w pool
    cases hs : w.manager.schedule with
    | none => exact ⟨w.dropPool pool, hd, fun s hn => (by cases hn), by simp only [hp, hs]⟩
    | some s =>
      refine ⟨(w.dropPool pool).abort s.task, hd.tail (.abort s.task), fun k hk => ?_,
        by simp only [hp, hs]⟩
      cases hk
      exact ⟨w.dropPool pool, hd, rfl⟩

theorem Chores.manages {s : ManagerTask} (h : w.Chores v)
    (hm : (⟨id, .manage s⟩ : Job) ∈ v.jobs) : (⟨id, .manage s⟩ : Job) ∈ w.jobs := by
  induction h with
  | refl => exact hm
  | tail _ hc ih =>
    have hd : Deed id _ 0 _ := .chore hc
    exact ih (hd.manages hm)

theorem Orderly.react (h : w.Orderly none) (hs : w.Sound none 0 served) (e : Event) :
    (w.react e).Orderly none := by
  by_cases hm : w.isManaging e = true
  · rcases of_isManaging hm with ⟨id, signalFirst, t, rfl, ha, hr⟩ | ⟨p, rfl⟩ | rfl
    · rw [hr]
      have hj := (mem_of_acting? ha).2.1
      rcases t.turn_does h.toWired (h.proper id t hj nofun) with he | ⟨n, v, hd, he⟩
      · rw [he]
        exact h
      · exact he.orderly (hd.orderly ⟨h.toWired, fun i s hk _ => h.proper i s hk nofun⟩)
    · obtain ⟨signals, hf, ho, hl, -⟩ := w.follow_cases p
      rw [World.react, hf]
      refine ⟨⟨fun q hq => ?_, fun q hq hc => ?_, h.slot, fun s hk => ?_⟩, fun i s hk _ => ?_⟩
      · exact Nat.lt_trans (h.signals q hq) hl
      · exact ho.raised (h.signals q hq) (h.closed q hq hc)
      · cases hk
        exact hl
      · rcases List.mem_append.1 hk with hk | hk
        · exact (h.proper i s hk nofun).onward h.toWired ⟨ho.signals, ho.rises, ho.pools, rfl⟩
            fun hh hp => ⟨hh, hp⟩
        · cases List.mem_singleton.1 hk
    · obtain ⟨v, hc, -, hd⟩ := w.dropManager_cases
      rw [World.react, hd]
      have hv := hc.wired h.toWired
      refine ⟨⟨hv.signals, hv.closed, fun k hk => (by cases hk), fun s hk => (by cases hk)⟩,
        fun i s hk _ => ?_⟩
      have hp := h.proper i s (hc.manages hk) nofun
      have ho := hc.onward
      exact hp.onward h.toWired ⟨ho.signals, ho.rises, ho.pools, rfl⟩ fun hh _ => ⟨hh, rfl⟩
  · rw [Bool.not_eq_true] at hm
    have ha := react_apart hs hm
    refine h.of_jobs ha.onward ha.pools ha.manager fun i s hk _ => ?_
    exact (manages_react hm hk).imp_left fun hk => ⟨hk, nofun⟩

theorem onward_react (h : w.Orderly none) (hs : w.Sound none 0 served) (e : Event) :
    w.Onward (w.react e) := by
  by_cases hm : w.isManaging e = true
  · rcases of_isManaging hm with ⟨id, signalFirst, t, rfl, ha, hr⟩ | ⟨p, rfl⟩ | rfl
    · rw [hr]
      rcases t.turn_does h.toWired (h.proper id t (mem_of_acting? ha).2.1 nofun) with
        he | ⟨n, v, hd, he⟩
      · rw [he]
        exact .refl w
      · exact hd.onward.trans he.apart.onward
    · obtain ⟨signals, hf, ho, -⟩ := w.follow_cases p
      rw [World.react, hf]
      exact ⟨ho.signals, ho.rises, ho.pools, rfl⟩
    · obtain ⟨v, hc, -, hd⟩ := w.dropManager_cases
      rw [World.react, hd]
      have ho := hc.onward
      exact ⟨ho.signals, ho.rises, ho.pools, rfl⟩
  · rw [Bool.not_eq_true] at hm
    exact (react_apart hs hm).onward

theorem setup_fresh (s : Setup) : s.world.jobs = [] ∧ s.world.pools = [] ∧
    s.world.manager.pool = none ∧ s.world.manager.schedule = none ∧ s.world.manager.built = 0 ∧
    s.world.refillLock = .free ∧
    s.world.manager.crawlerCount = Manager.clampCount s.partition.crawlerCount := by
  simp only [Setup.world, withManager]
  split <;> exact ⟨rfl, rfl, rfl, rfl, rfl, rfl, rfl⟩

theorem setup_orderly (s : Setup) : s.world.Orderly none := by
  obtain ⟨hj, hp, hm, hs, -⟩ := setup_fresh s
  refine ⟨⟨?_, ?_, ?_, ?_⟩, ?_⟩
  · simp [hp]
  · simp [hp]
  · simp [hm]
  · simp [hs]
  · simp [hj]

/-- A world as it is between two events. -/
structure Settled (w : World) : Prop extends w.Orderly none where
  sound : ∃ n, w.Sound none 0 (some n)

theorem Settled.react (h : w.Settled) (e : Event) : (w.react e).Settled := by
  obtain ⟨n, hs⟩ := h.sound
  exact ⟨h.toOrderly.react hs e, react_sound hs e⟩

theorem Settled.onward (h : w.Settled) (e : Event) : w.Onward (w.react e) := by
  obtain ⟨n, hs⟩ := h.sound
  exact onward_react h.toOrderly hs e

theorem Settled.play (h : w.Settled) (events : List Event) : (w.play events).Settled :=
  play_induction (fun _ e _ h => h.react e) h

theorem setup_settled (s : Setup) : s.world.Settled :=
  ⟨setup_orderly s, 0, setup_sound s rfl⟩

theorem play_settled (s : Setup) (events : List Event) : (s.world.play events).Settled :=
  (setup_settled s).play events

section Crews

def withCrew (w : World) (crew : List Crawler) : World := { w with
  jobs := w.jobs ++ crew.mapIdx fun i c =>
    ⟨w.nextId + i, crawlTask ⟨.created, w.signals.length, w.activities.length, []⟩ c⟩
  nextId := w.nextId + crew.length
  signals := w.signals ++ [.fresh false]
  activities := w.activities ++ [.idle]
  pools := w.pools ++ [⟨.running, w.signals.length, w.activities.length,
    List.range' w.nextId crew.length⟩] }

theorem mem_jobs_withCrew {crew : List Crawler} {j : Job} (hj : j ∈ (w.withCrew crew).jobs) :
    j ∈ w.jobs ∨ (w.nextId ≤ j.id ∧ j.id < w.nextId + crew.length) ∧
      ∃ c, j.task = crawlTask ⟨.created, w.signals.length, w.activities.length, []⟩ c := by
  refine (List.mem_append.1 hj).imp_right fun hm => ?_
  obtain ⟨k, hk, rfl⟩ := List.mem_mapIdx.1 hm
  exact ⟨⟨Nat.le_add_right _ _, Nat.add_lt_add_left hk _⟩, _, rfl⟩

theorem fillPool_withCrew (w : World) (crew : List Crawler) :
    (w.addPool.2.fillPool w.addPool.1 crew).changePool w.addPool.1
      (fun p => { p with state := .running }) = w.withCrew crew := by
  rw [fillPool_eq crew w.getElem?_addPool]
  simp [addPool, addSignal, addActivity, changePool, withCrew, List.modify_eq_set_getElem?]

theorem startPool_withCrew (w : World) (crew : List Crawler) :
    w.addPool.2.startPool w.addPool.1 crew = .ok (w.withCrew crew) := by
  rw [startPool, getElem?_addPool]
  exact congrArg Except.ok (w.fillPool_withCrew crew)

theorem onward_withCrew (w : World) (crew : List Crawler) : w.Onward (w.withCrew crew) := by
  have ho : w.Onward { w with signals := w.signals ++ [.fresh false] } := w.onward_addSignal false
  refine ⟨ho.signals, ho.rises, fun k p hp => ⟨p, ?_, rfl⟩, rfl⟩
  exact (List.getElem?_append_left (List.getElem?_eq_some_iff.1 hp).1).trans hp

theorem Wired.withCrew (h : w.Wired) (crew : List Crawler) : (w.withCrew crew).Wired := by
  have ho := w.onward_withCrew crew
  refine ⟨fun p hp => ?_, fun p hp hc => ?_, fun k hk => ?_, fun s hk => ?_⟩
  · rcases List.mem_append.1 hp with hp | hp
    · exact Nat.lt_of_lt_of_le (h.signals p hp) ho.signals
    · rw [List.mem_singleton.1 hp]
      simp [World.withCrew]
  · rcases List.mem_append.1 hp with hp | hp
    · exact ho.raised (h.signals p hp) (h.closed p hp hc)
    · rw [List.mem_singleton.1 hp] at hc
      simp at hc
  · simpa [World.withCrew] using Nat.lt_succ_of_lt (h.slot k hk)
  · exact Nat.lt_of_lt_of_le (h.plan s hk) ho.signals

theorem Settled.withCrew (h : w.Settled) (crew : List Crawler) : (w.withCrew crew).Settled := by
  refine ⟨⟨h.toWired.withCrew crew, fun i s hm _ => ?_⟩, ?_⟩
  · rcases mem_jobs_withCrew hm with hm | ⟨-, c, hc⟩
    · exact (h.proper i s hm nofun).onward h.toWired (w.onward_withCrew crew) fun hh hp => ⟨hh, hp⟩
    · cases hc
  · obtain ⟨n, hs⟩ := h.sound
    have ha := hs.poise_none.addPool
    have hf := ha.trans (ha.poised.fillPool w.addPool.1 crew)
    have hc := hf.trans (hf.poised.changePool w.addPool.1
      (f := fun p => { p with state := .running }) fun p => List.Subset.refl _)
    exact ⟨n, w.fillPool_withCrew crew ▸ hc.poised.toSound⟩

end Crews

end World

section Sessions

def Task.isInitial : Task → Bool
  | .load _ | .evict _ | .plan _ => true
  | .crawl t => t.stage == .looking
  | _ => false

def Happening.isOnward : Happening → Bool
  | .setSignal _ raised => raised
  | _ => true

namespace World

theorem Settled.aside (h : w.Settled) (ho : w.Onward v) (hj : v.jobs = w.jobs)
    (hp : v.pools = w.pools) (hm : v.manager = w.manager) (hs : ∃ n, v.Sound none 0 (some n)) :
    v.Settled :=
  ⟨h.toOrderly.of_jobs ho hp hm fun _ _ hk _ => .inl ⟨hj ▸ hk, nofun⟩, hs⟩

theorem Settled.meet (h : w.Settled) {x : Happening} (hx : x.isOnward = true) :
    (w.meet x).Settled := by
  obtain ⟨n, hn⟩ := h.sound
  cases x with
  | event e => exact h.react e
  | dropSender i =>
    exact h.aside (.of_eq rfl rfl rfl) rfl rfl rfl
      ⟨n, hn.pass rfl rfl rfl rfl rfl rfl rfl (List.length_modify _ _ _)⟩
  | setSignal i raised =>
    obtain rfl : raised = true := hx
    exact h.aside (w.onward_setSignal i) rfl rfl rfl ⟨n, hn.pass rfl rfl rfl rfl rfl rfl rfl rfl⟩
  | loseSignal i =>
    exact h.aside (w.onward_loseSignal i) rfl rfl rfl ⟨n, hn.pass rfl rfl rfl rfl rfl rfl rfl rfl⟩
  | warn message =>
    exact h.aside (.of_eq rfl rfl rfl) rfl rfl rfl ⟨n, hn.pass rfl rfl rfl rfl rfl rfl rfl rfl⟩

section Starts

variable {files : Files} {c : Config} {adapters : List Adapter} {uptime : Nat}

theorem initial_start (h : startSession files c adapters uptime = .ok w) :
    ∀ j ∈ w.jobs, j.task.isInitial = true := by
  obtain ⟨p, n, rfl⟩ := of_startSession h
  obtain ⟨i, k, ho⟩ := opened_eq files c adapters uptime
  rw [follow_eq (by rw [ho]; rfl), ho]
  intro j hm
  rcases List.mem_append.1 hm with hm | hm
  · rcases List.mem_append.1 hm with hm | hm
    · rcases List.mem_append.1 hm with hm | hm <;> rw [List.mem_singleton.1 hm] <;> rfl
    · obtain ⟨m, hl, rfl⟩ := List.mem_mapIdx.1 hm
      rfl
  · rw [List.mem_singleton.1 hm]
    rfl

theorem settled_start (h : startSession files c adapters uptime = .ok w) : w.Settled := by
  have hj : ∀ id (s : ManagerTask), (⟨id, .manage s⟩ : Job) ∉ w.jobs := fun id s hm =>
    absurd (initial_start h _ hm) Bool.false_ne_true
  have hw : w.Wired := by
    obtain ⟨p, n, rfl⟩ := of_startSession h
    obtain ⟨i, k, ho⟩ := opened_eq files c adapters uptime
    rw [follow_eq (by rw [ho]; rfl), ho]
    refine ⟨fun p hp => ?_, fun p hp hc => ?_, fun k hk => ?_, fun s hs => ?_⟩
    · rw [List.mem_singleton.1 hp]
      exact Nat.lt_succ_of_lt (Nat.lt_succ_self 1)
    · rw [List.mem_singleton.1 hp] at hc
      rcases hc with hc | hc <;> cases hc
    · cases hk
      exact Nat.one_pos
    · cases hs
      exact Nat.lt_succ_self 2
  exact ⟨⟨hw, fun id s hm => absurd hm (hj id s)⟩, (booked_start h).sound⟩

end Starts

end World

end Sessions

end CatalogCrawl

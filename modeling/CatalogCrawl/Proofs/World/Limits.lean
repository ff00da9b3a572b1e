import CatalogCrawl.Proofs.World.Settings

namespace CatalogCrawl

namespace World

variable {w v : World} {c : Config} {uptime : Nat}

section Beginning

theorem fillPool_eq {pool : Nat} {p : Pool} (crew : List Crawler) (hp : w.pools[pool]? = some p) :
    w.fillPool pool crew = { w with
      jobs := w.jobs ++ crew.mapIdx fun i c => ⟨w.nextId + i, crawlTask p c⟩
      nextId := w.nextId + crew.length
      pools := w.pools.set pool
        { p with crawlers := p.crawlers ++ List.range' w.nextId crew.length } } := by
  induction crew generalizing w p with
  | nil =>
    have hs : w.pools.set pool p = w.pools := by
      obtain ⟨hl, rfl⟩ := List.getElem?_eq_some_iff.1 hp
      exact List.set_getElem_self hl
    simp [fillPool, hs]
  | cons c rest ih =>
    have hl : pool < w.pools.length := (List.getElem?_eq_some_iff.1 hp).1
    have hm : w.pools.modify pool (fun q => { q with crawlers := q.crawlers ++ [w.nextId] }) =
        w.pools.set pool { p with crawlers := p.crawlers ++ [w.nextId] } := by
      rw [List.modify_eq_set_getElem?, hp]
      rfl
    have hf : w.fillPool pool (c :: rest) =
        ((w.spawn (crawlTask p c)).2.changePool pool fun q =>
          { q with crawlers := q.crawlers ++ [w.nextId] }).fillPool pool rest := by
      simp only [fillPool, List.foldl_cons, hp]
      rfl
    rw [hf, ih (p := { p with crawlers := p.crawlers ++ [w.nextId] })]
    · simp only [changePool, spawn, hm, List.set_set, List.mapIdx_cons, List.length_cons,
        List.range'_succ, List.append_assoc, List.cons_append, List.nil_append, Nat.add_zero]
      simp only [Nat.add_assoc, Nat.add_comm 1]
      rfl
    · simp [changePool, spawn, hm, hl]

theorem length_makeCrawlers (m : Manager) : (makeCrawlers m).length = m.crawlerCount := by
  simp [makeCrawlers]

def withPool (w : World) (journal : Journal) : World := { w with
  journal := journal
  jobs := w.jobs ++ (makeCrawlers w.manager).mapIdx fun i c =>
    ⟨w.nextId + i, crawlTask ⟨.created, w.signals.length, w.activities.length, []⟩ c⟩
  nextId := w.nextId + w.manager.crawlerCount
  signals := w.signals ++ [.fresh false]
  activities := w.activities ++ [.idle]
  pools := w.pools ++ [⟨.running, w.signals.length, w.activities.length,
    List.range' w.nextId w.manager.crawlerCount⟩]
  manager := { w.manager with
    built := w.manager.built + w.manager.crawlerCount
    pool := some w.pools.length } }

theorem getElem?_addPool (w : World) : w.addPool.2.pools[w.addPool.1]? =
    some ⟨.created, w.signals.length, w.activities.length, []⟩ := by
  simp [addPool, addSignal, addActivity]

theorem spawnPool_eq (w : World) : ∃ journal, w.spawnPool = w.withPool journal := by
  have hc := length_makeCrawlers w.manager
  unfold spawnPool
  simp only
  split
  · refine ⟨(w.warn unboundedMessage).journal, ?_⟩
    rw [fillPool_eq (makeCrawlers w.manager) (w.warn unboundedMessage).getElem?_addPool]
    simp [addPool, addSignal, addActivity, changePool, changeManager, hc, warn, withPool,
      List.modify_eq_set_getElem?]
  · refine ⟨w.journal, ?_⟩
    rw [fillPool_eq (makeCrawlers w.manager) w.getElem?_addPool]
    simp [addPool, addSignal, addActivity, changePool, changeManager, hc, withPool,
      List.modify_eq_set_getElem?]

theorem follow_eq (h : w.manager.schedule = none) (p : Plan) : w.follow p = { w with
    jobs := w.jobs ++ [⟨w.nextId, .plan ⟨.start p.period.nanos (w.now + p.delay.nanos),
      w.signals.length, .refill, .looking⟩⟩]
    nextId := w.nextId + 1
    signals := w.signals ++ [.fresh false]
    manager := { w.manager with schedule := some ⟨p, w.nextId, w.signals.length⟩ } } := by
  unfold follow
  simp [addSignal, spawn, changeManager, h]

def furnished (files : Files) (c : Config) (adapters : List Adapter) (uptime : Nat)
    (journal : Journal) : World := { World.empty c.queue .log with
  manager := .ofConfig c.partition c.crawler true (workload c.nodes)
  uptime := uptime
  registry := .ofList adapters
  clock := .own 0
  queryAdapters := [.cache]
  files := files
  journal := journal }

theorem opened_eq (files : Files) (c : Config) (adapters : List Adapter) (uptime : Nat) :
    ∃ i j, opened files c adapters uptime =
      (((furnished files c adapters uptime i).startLoader
        (.empty c.crawler.resultQueueCapacity 1)).startEviction c.cache.ttl
          c.cache.evictionPeriod).withPool j := by
  have hf : ∃ i, furnish files c adapters uptime = furnished files c adapters uptime i := by
    unfold furnish withManager
    simp only
    split <;> split <;> exact ⟨_, rfl⟩
  obtain ⟨i, hf⟩ := hf
  obtain ⟨j, hp⟩ := spawnPool_eq (((furnished files c adapters uptime i).startLoader
    (.empty c.crawler.resultQueueCapacity 1)).startEviction c.cache.ttl c.cache.evictionPeriod)
  refine ⟨i, j, ?_⟩
  rw [opened, populate, hf, hp]

structure Staffed (w : World) : Prop where
  crew : ∃ id t, (⟨id, .crawl t⟩ : Job) ∈ w.jobs ∧ t.stage = .looking ∧
    w.signal t.signal = .fresh false
  slot : w.manager.slot = .free
  pool : ∃ k p, w.manager.pool = some k ∧ w.pools[k]? = some p ∧ p.state = .running
  schedule : ∃ s u, w.manager.schedule = some s ∧ (⟨s.task, .plan u⟩ : Job) ∈ w.jobs ∧
    u.stage = .looking ∧ u.signal = s.signal ∧ s.signal < w.signals.length

theorem begun_start {files : Files} {adapters : List Adapter} (hc : c.Checked)
    (h : startSession files c adapters uptime = .ok w) :
    w.Calm c uptime ∧ w.now = 0 ∧ w.Staffed := by
  obtain ⟨p, n, rfl⟩ := of_startSession h
  obtain ⟨i, j, ho⟩ := opened_eq files c adapters uptime
  rw [follow_eq (by rw [ho]; rfl), ho]
  refine ⟨⟨rfl, rfl, rfl, fun j hm => ?_, fun e hm => (by cases hm)⟩, rfl, ⟨?_, rfl,
    ⟨0, _, rfl, rfl, rfl⟩, _, _, rfl, List.mem_append_right _ List.mem_cons_self, rfl, rfl,
    Nat.lt_succ_self 2⟩⟩
  · rcases List.mem_append.1 hm with hm | hm
    · rcases List.mem_append.1 hm with hm | hm
      · rcases List.mem_append.1 hm with hm | hm
        · rw [List.mem_singleton.1 hm]
          trivial
        · rw [List.mem_singleton.1 hm]
          exact hc.eviction
      · obtain ⟨i, hi, rfl⟩ := List.mem_mapIdx.1 hm
        exact config_makeCrawlers _ (List.getElem_mem hi)
    · rw [List.mem_singleton.1 hm]
      trivial
  · have hn : 0 < (makeCrawlers
        (.ofConfig c.partition c.crawler true (workload c.nodes))).length := by
      rw [length_makeCrawlers, Manager.ofConfig, hc.clampCount]
      exact hc.crawlers.1
    exact ⟨_, _, List.mem_append_left _ (List.mem_append_right _ (List.mem_mapIdx.2 ⟨0, hn, rfl⟩)),
      rfl, rfl⟩

end Beginning

section Crashing

variable {served : Served} {id : TaskId}

theorem Sound.job?_of_mem (h : w.Sound none 0 served) {j : Job} (hm : j ∈ w.jobs) :
    w.job? j.id = some j := by
  have hd := h.distinct
  rw [others_none] at hd
  cases hk : w.job? j.id with
  | none => exact absurd (beq_self_eq_true j.id) (List.find?_eq_none.1 hk j hm)
  | some k =>
    obtain ⟨hk, hi⟩ := mem_of_job? hk
    rw [List.inj_on_of_nodup_map hd hk hm hi]

theorem Sound.eq_of_mem (h : w.Sound none 0 served) {t : Task} (hm : ⟨id, t⟩ ∈ w.jobs) {j : Job}
    (hj : j ∈ w.jobs) (hi : j.id = id) : j = ⟨id, t⟩ := by
  have hk : w.job? j.id = some j := h.job?_of_mem hj
  rw [hi, h.job?_of_mem hm] at hk
  exact (Option.some.inj hk).symm

theorem Sound.lt_nextId (h : w.Sound none 0 served) {j : Job} (hj : j ∈ w.jobs) :
    j.id < w.nextId :=
  h.issued j (by rwa [others_none])

theorem Sound.react_turn (h : w.Sound none 0 served) {t : Task} (hm : ⟨id, t⟩ ∈ w.jobs)
    (hr : t.isReady w id = true) (signalFirst : Bool) :
    w.react (.step (.turn id signalFirst)) = t.turn w id signalFirst := by
  have hj := h.job?_of_mem hm
  simp only at hj
  simp only [react, step, hj, hr, if_true]

def HasCrash (w : World) : Prop := ∃ e ∈ w.ended, e.result.isCrash = true

theorem look_crashes (h : w.Sound none 0 served) {t : CrawlTask} (hm : ⟨id, .crawl t⟩ ∈ w.jobs)
    (ht : t.stage = .looking) (hs : w.signal t.signal = .fresh false)
    (hn : w.shows (w.now + t.crawler.config.waitForWorkItem.nanos) = false) :
    (w.react (.step (.turn id true))).HasCrash := by
  have hr : (Task.crawl t).isReady w id = true := by simp [Task.isReady, CrawlTask.isReady, ht]
  rw [h.react_turn hm hr]
  refine ⟨⟨id, w.now, .crashed .instant⟩, ?_, rfl⟩
  simp [Task.turn, CrawlTask.turn, ht, CrawlTask.look, hs, Signal.fresh, hn, finish]

theorem shutDown_crashes {t : ManagerTask} {k : Nat} {p : Pool} {timeout : Span}
    (hp : w.pools[k]? = some p) (hr : p.state = .running)
    (hn : w.shows (w.now + timeout.nanos) = false) : (t.shutDown w id k timeout).HasCrash := by
  have crash_crashes (v : World) : (t.crash v id k .instant).HasCrash := by
    unfold ManagerTask.crash
    split <;> exact ⟨_, List.mem_cons_self, rfl⟩
  unfold ManagerTask.shutDown beginShutdown
  simp only [hp, hr, reduceCtorEq, if_false, if_true]
  rw [if_neg]
  · exact crash_crashes _
  · exact Bool.not_eq_true _ ▸ hn

theorem stop_crashes_late {plan : TaskId} {deadline : Nat} (hl : w.isLive plan = false)
    (hw : w.manager.slot = .free)
    (hp : ∃ k p, w.manager.pool = some k ∧ w.pools[k]? = some p ∧ p.state = .running)
    (hn : w.shows (w.now + w.manager.shutdownTimeout.nanos) = false) :
    (ManagerTask.turn w id ⟨.stop, .planEnding plan deadline⟩).HasCrash := by
  obtain ⟨k, p, hk, hp, hr⟩ := hp
  have hh : (w.enterSlot id).manager.slot.heldBy id = true := by
    rw [enterSlot, changeManager, hw]
    exact Turnstile.heldBy_enter_free id
  have hm : (w.enterSlot id).manager.pool = some k := hk
  simp only [ManagerTask.turn, ManagerTask.awaitPlan, hl, Bool.not_false, if_true,
    ManagerTask.askSlot, hh, ManagerTask.decideSlot, hm]
  exact shutDown_crashes (p := p) hp hr hn

section Stopping

def stopTask : Task := .manage ⟨.stop, .entering⟩

def waitingTask (w : World) (plan : TaskId) : Task :=
  .manage ⟨.stop, .planEnding plan (w.now + w.manager.shutdownTimeout.nanos)⟩

def stopWaiting (w : World) (s : Schedule) : World :=
  (((w.spawn stopTask).2.changeManager fun m => { m with schedule := none }).setSignal
    s.signal true).keepLast w.nextId (w.waitingTask s.task)

def stopping (id plan : TaskId) : List Happening :=
  [.event (.launch stopTask), .event (.step (.turn id true)), .event (.step (.turn plan true)),
    .event (.step (.turn id true))]

variable {s : Schedule} {u : PlanTask}

theorem react_turn_stop (h : (w.spawn stopTask).2.Sound none 0 served)
    (hs : w.manager.schedule = some s) (hm : ⟨s.task, .plan u⟩ ∈ w.jobs)
    (ht : 0 < w.manager.shutdownTimeout.nanos) :
    (w.spawn stopTask).2.react (.step (.turn w.nextId true)) = w.stopWaiting s := by
  have hl : (((w.spawn stopTask).2.changeManager fun m => { m with schedule := none }).setSignal
      s.signal true).isLive s.task = true :=
    List.any_eq_true.2 ⟨_, List.mem_append_left _ hm, beq_self_eq_true s.task⟩
  have ha : (w.spawn stopTask).2.manager.schedule = some s := hs
  rw [h.react_turn (List.mem_append_right _ List.mem_cons_self) rfl]
  simp only [stopTask, Task.turn, ManagerTask.turn, ManagerTask.enter]
  rw [← stopTask, ha]
  exact (if_neg (by rw [hl]; decide)).trans (if_neg (Nat.not_le.2 (Nat.lt_add_of_pos_right ht)))

theorem react_turn_plan (h : (w.stopWaiting s).Sound none 0 served)
    (hm : ⟨s.task, .plan u⟩ ∈ w.jobs) (hi : s.task ≠ w.nextId) (hl : u.stage = .looking)
    (hu : u.signal = s.signal) (hb : s.signal < w.signals.length) :
    (w.stopWaiting s).react (.step (.turn s.task true)) =
      (w.stopWaiting s).finish s.task .nothing := by
  have hk : ⟨s.task, .plan u⟩ ∈ (w.stopWaiting s).jobs :=
    mem_jobs_keepLast.2 (.inl ⟨List.mem_append_left _ hm, hi⟩)
  have hr : ((w.stopWaiting s).signal u.signal).raised = true := by
    show ((w.signals.modify s.signal (·.set true))[u.signal]?.getD _).raised = true
    rw [hu, List.getElem?_modify_eq, List.getElem?_eq_getElem hb]
    rfl
  rw [h.react_turn hk (by simp [Task.isReady, PlanTask.isReady, hl])]
  simp only [Task.turn, PlanTask.turn, hl, PlanTask.look, hr, Bool.true_or, if_true]

theorem stop_crashes {n : Nat} (h : w.Sound none 0 (some n)) (hw : w.Staffed)
    (ht : 0 < w.manager.shutdownTimeout.nanos)
    (hn : w.shows (w.now + w.manager.shutdownTimeout.nanos) = false) :
    ∃ plan, (w.undergo (stopping w.nextId plan)).HasCrash ∧
      (w.undergo (stopping w.nextId plan)).now = w.now := by
  obtain ⟨s, u, hs, hm, hl, hu, hb⟩ := hw.schedule
  have hi : s.task ≠ w.nextId := Nat.ne_of_lt (h.lt_nextId hm)
  obtain ⟨n1, h1⟩ : ∃ n, (w.spawn stopTask).2.Sound none 0 (some n) :=
    react_sound h (.launch stopTask)
  have turn_stop := react_turn_stop h1 hs hm ht
  obtain ⟨n2, h2⟩ : ∃ n, (w.stopWaiting s).Sound none 0 (some n) := turn_stop ▸ react_sound h1 _
  let free : World := (w.stopWaiting s).finish s.task .nothing
  have turn_plan : (w.stopWaiting s).react (.step (.turn s.task true)) = free :=
    react_turn_plan h2 hm hi hl hu hb
  obtain ⟨n3, h3⟩ : ∃ n, free.Sound none 0 (some n) := turn_plan ▸ react_sound h2 _
  have turn_free : (free.react (.step (.turn w.nextId true))).HasCrash := by
    have hg : free.isLive s.task = false := by simp [free, isLive, finish, removeJob]
    have hk : ⟨w.nextId, w.waitingTask s.task⟩ ∈ free.jobs :=
      mem_jobs_removeJob.2 ⟨mem_jobs_keepLast.2 (.inr rfl), hi.symm⟩
    rw [h3.react_turn hk (by simp [waitingTask, Task.isReady, ManagerTask.isReady, hg])]
    exact stop_crashes_late hg hw.slot hw.pool hn
  refine ⟨s.task, ?_, ?_⟩
  · have launch_stop : w.react (.launch stopTask) = (w.spawn stopTask).2 := rfl
    simp only [stopping, undergo, List.foldl_cons, List.foldl_nil, meet]
    rwa [launch_stop, turn_stop, turn_plan]
  · simp only [stopping, undergo, List.foldl_cons, List.foldl_nil, meet, time_react, stopTask,
      elapsed, Nat.add_zero]

end Stopping

def CalmUntil (w : World) (time : Nat) : Prop :=
  ∀ list : List Happening, (∀ x ∈ list, x.isOrdinary = true) → (w.undergo list).now ≤ time →
    ∀ e ∈ (w.undergo list).ended, e.result.isCrash = false

theorem CalmUntil.not_hasCrash {time : Nat} (h : w.CalmUntil time) (list : List Happening)
    (hx : ∀ x ∈ list, x.isOrdinary = true) (ht : (w.undergo list).now ≤ time) :
    ¬ (w.undergo list).HasCrash := by
  rintro ⟨e, he, hc⟩
  rw [h list hx ht e he] at hc
  cases hc

theorem Staffed.pass (h : w.Staffed) (nanos : Nat) : (w.step (.pass nanos)).Staffed :=
  ⟨h.crew, h.slot, h.pool, h.schedule⟩

theorem shows_eq_false (h : w.uptime = uptime) {time : Nat} (hn : ¬ shownFrom uptime time) :
    w.shows time = false := by
  rwa [← Bool.not_eq_true, shows_iff h]

theorem Calm.lasts {n time : Nat} (h : w.Calm c uptime) (hw : w.Staffed)
    (hs : w.Sound none 0 (some n)) (ht : w.now ≤ time) (hc : w.CalmUntil time) :
    c.Lasts uptime time := by
  -- Time passes up to the instant in question, and then a crawler looks, or the manager stops.
  let later : World := w.step (.pass (time - w.now))
  have hn : later.now = time := Nat.add_sub_cancel' ht
  have hl : later.Staffed := hw.pass _
  obtain ⟨m, hm⟩ : ∃ n, later.Sound none 0 (some n) := react_sound hs (.step (.pass _))
  have hwait : shownFrom uptime (time + c.crawler.waitForWorkItem.nanos) := by
    obtain ⟨id, t, hj, hstage, hsignal⟩ := hl.crew
    by_contra hx
    have hk : t.crawler.config = c.crawler := h.tasks _ hj
    have hcrash : (later.react (.step (.turn id true))).HasCrash := by
      refine look_crashes hm hj hstage hsignal ?_
      rw [hn, hk]
      exact shows_eq_false h.uptime hx
    refine hc.not_hasCrash [.event (.step (.pass (time - w.now))), .event (.step (.turn id true))]
      (by simp [Happening.isOrdinary]) ?_ hcrash
    exact Nat.le_of_eq ((time_react later (.step (.turn id true))).1.trans hn)
  refine ⟨hwait, ?_⟩
  by_contra hx
  -- As the clock shows the end of a wait, it is the time limit that is too long, hence not zero.
  have hd : later.manager.shutdownTimeout = c.partition.shutdownTimeout := h.shutdownTimeout
  have hpos : 0 < later.manager.shutdownTimeout.nanos := by
    unfold shownFrom at hwait hx
    rw [hd]
    omega
  have hshows : later.shows (later.now + later.manager.shutdownTimeout.nanos) = false := by
    rw [hd, hn]
    exact shows_eq_false h.uptime hx
  obtain ⟨plan, hp, he⟩ := stop_crashes hm hl hpos hshows
  refine hc.not_hasCrash (.event (.step (.pass (time - w.now))) :: stopping _ plan)
    (by simp [stopping, stopTask, Happening.isOrdinary]) ?_ hp
  exact Nat.le_of_eq (he.trans hn)

end Crashing

section Sessions

variable {files : Files} {adapters : List Adapter}

theorem time_opened (files : Files) (c : Config) (adapters : List Adapter) (uptime : Nat) :
    (opened files c adapters uptime).now = 0 ∧
      (opened files c adapters uptime).uptime = uptime := by
  obtain ⟨i, j, ho⟩ := opened_eq files c adapters uptime
  rw [ho]
  exact ⟨rfl, rfl⟩

theorem startSession_cases (hv : c.validate = .ok ()) (files : Files) (adapters : List Adapter)
    (uptime : Nat) :
    (c.Begins uptime ∧ ∃ w, startSession files c adapters uptime = .ok w) ∨
      ¬ c.Begins uptime ∧
        ∃ crash, startSession files c adapters uptime = .error (.crashed crash) := by
  have hc := c.checked hv
  unfold startSession
  simp only [hv, hc.plan?, Except.mapError, bind, Except.bind]
  by_cases hq : ResultQueue.maxCapacity < c.crawler.resultQueueCapacity
  · refine .inr ⟨fun hb => absurd hb.capacity (Nat.not_le.2 hq), .capacity, ?_⟩
    rw [ResultQueue.make?, if_pos (.inr hq)]
  · have hm : ResultQueue.make? c.crawler.resultQueueCapacity 1 =
        .ok (.empty c.crawler.resultQueueCapacity 1) :=
      if_neg fun h => h.elim (fun hz => absurd hz (Nat.ne_of_gt hc.capacity)) hq
    obtain ⟨hn, hu⟩ := time_opened files c adapters uptime
    rw [hm]
    simp only
    rw [show (furnish files c adapters uptime).populate c (.empty c.crawler.resultQueueCapacity 1) =
      opened files c adapters uptime from rfl]
    generalize opened files c adapters uptime = v at hn hu ⊢
    rcases follow?_cases { v with nextPlan := v.nextPlan + 1 }
      ⟨c.partition.executionPeriod, c.partition.initialDelay, v.nextPlan⟩ with ⟨hs, he⟩ | ⟨hs, he⟩
    · rw [he]
      have hd := (shows_iff hu _).1 hs
      rw [show v.now = 0 from hn, Nat.zero_add] at hd
      exact .inl ⟨⟨Nat.not_lt.1 hq, hd⟩, _, rfl⟩
    · rw [he]
      refine .inr ⟨fun hb => ?_, .instant, rfl⟩
      have hd := mt (shows_iff hu _).2 (Bool.not_eq_true _ ▸ hs)
      rw [show v.now = 0 from hn, Nat.zero_add] at hd
      exact hd hb.delay

theorem calmUntil_iff (hc : c.Checked) (hw : startSession files c adapters uptime = .ok w)
    (time : Nat) : w.CalmUntil time ↔ c.Lasts uptime time := by
  obtain ⟨hcalm, hn, hstaff⟩ := begun_start hc hw
  obtain ⟨n, hs⟩ := (booked_start hw).sound
  constructor
  · exact hcalm.lasts hstaff hs (hn ▸ Nat.zero_le time)
  · intro hl list hx ht
    exact (hcalm.undergo hl ht hx).ended

/-- Settings that pass the check can all be used, counts and periods in full. A session starts on
them unless its queue of results is too large or the clock cannot show when the plan is first due;
it is never refused. And no task of the session crashes until some time, whatever is done to it
meanwhile, if and only if the clock shows when a wait for an item that begins by then is over, and
when a shutdown is. -/
theorem checked_session (c : Config) (hv : c.validate = .ok ()) (files : Files)
    (adapters : List Adapter) (uptime : Nat) :
    c.Checked ∧
    (∀ number, c.partition.plan? number =
      .ok ⟨c.partition.executionPeriod, c.partition.initialDelay, number⟩) ∧
    Manager.clampNotice? c.partition.crawlerCount = none ∧
    ((∃ w, startSession files c adapters uptime = .ok w) ↔ c.Begins uptime) ∧
    (∀ fault, startSession files c adapters uptime ≠ .error (.refused fault)) ∧
    ∀ w, startSession files c adapters uptime = .ok w →
      ∀ time, w.CalmUntil time ↔ c.Lasts uptime time := by
  have hc := c.checked hv
  have hcount : Manager.clampNotice? c.partition.crawlerCount = none := if_pos hc.clampCount
  refine ⟨hc, hc.plan?, hcount, ?_, ?_, fun w hw time => ?_⟩
  · rcases startSession_cases hv files adapters uptime with ⟨hb, hw⟩ | ⟨hb, crash, he⟩
    · exact iff_of_true hw hb
    · refine iff_of_false ?_ hb
      rintro ⟨w, hw⟩
      cases he.symm.trans hw
  · intro fault hf
    rcases startSession_cases hv files adapters uptime with ⟨-, w, hw⟩ | ⟨-, crash, he⟩
    · cases hw.symm.trans hf
    · cases he.symm.trans hf
  · exact calmUntil_iff hc hw time

theorem standard_session_calm : Config.standard.validate = .ok () ∧
    ∃ w, startSession (.empty []) .standard [] 0 = .ok w ∧ w.CalmUntil 1000000000000000000 := by
  have hv : Config.standard.validate = .ok () := by decide
  obtain ⟨-, -, -, hs, -, hc⟩ := checked_session .standard hv (.empty []) [] 0
  obtain ⟨w, hw⟩ := hs.2 ⟨by decide, by decide⟩
  exact ⟨hv, w, hw, (hc w hw _).2 ⟨by decide, by decide⟩⟩

def patient : Config := { Config.standard with
  crawler := { CrawlerConfig.standard with waitForWorkItem := .ofSecs (300000000000 * 31557600) }
  partition := { PartitionConfig.standard with crawlerCount := 1 }
  nodes := [⟨"n", ⟨"https", some ⟨"", "", .name "provider.example", none⟩, "/catalog", none, none⟩,
    ["dsp"]⟩] }

/-- The settings pass the check and the session starts, but then its crawler crashes at once. -/
theorem patient_session_crashes : patient.validate = .ok () ∧
    ∃ w id, startSession (.empty []) patient [] 0 = .ok w ∧
      (w.undergo [.event (.step (.turn id true))]).HasCrash := by
  have hv : patient.validate = .ok () := by decide
  have hb : patient.Begins 0 := ⟨by decide, by decide⟩
  rcases startSession_cases hv (.empty []) [] 0 with ⟨-, w, hw⟩ | ⟨hn, -⟩
  · obtain ⟨hcalm, hnow, hstaff⟩ := begun_start (patient.checked hv) hw
    obtain ⟨n, hs⟩ := (booked_start hw).sound
    obtain ⟨id, t, hj, hstage, hsignal⟩ := hstaff.crew
    have hk : t.crawler.config = patient.crawler := hcalm.tasks _ hj
    have hfar : w.shows (w.now + t.crawler.config.waitForWorkItem.nanos) = false := by
      rw [hnow, hk]
      exact shows_eq_false hcalm.uptime (by decide)
    exact ⟨hv, w, id, hw, look_crashes hs hj hstage hsignal hfar⟩
  · exact absurd hb hn

end Sessions

end World

end CatalogCrawl

import CatalogCrawl.Proofs.World.Runs
import CatalogCrawl.Proofs.World.Untimed

namespace CatalogCrawl

open World

variable {w : World} {before : List Notice} {id : TaskId} {signalFirst : Bool}

section Refilling

theorem addWorkload_untimed : (w.untimed before).addWorkload = w.addWorkload.untimed before := by
  unfold addWorkload
  simp only [report_untimed]
  exact report_untimed
    ({ w.report _ with queue := ((w.report _).queue.addAll w.manager.workload).2 }) before _

namespace PlanTask

variable {t : PlanTask}

theorem proceed_untimed :
    t.proceed (w.untimed before) id = (t.proceed w id).untimed before :=
  keepFirst_untimed w before id (.plan { t with stage := .looking })

theorem refillNow_untimed :
    t.refillNow (w.untimed before) id = (t.refillNow w id).untimed before := by
  rw [refillNow, addWorkload_untimed]
  exact proceed_untimed (w := w.addWorkload.leaveLock id)

theorem act_untimed : t.act (w.untimed before) id = (t.act w id).untimed before := by
  unfold act
  simp only
  split
  · rw [report_untimed]
    exact ite_untimed .rfl (refillNow_untimed (w := (w.report _).enterLock id))
      (keepLast_untimed ((w.report _).enterLock id) before id (.plan _))
  · exact ite_untimed .rfl (proceed_untimed (w := { w with pauses := w.now :: w.pauses }))
      (keepLast_untimed { w with pauses := w.now :: w.pauses } before id (.plan _))

theorem turn_untimed :
    t.turn (w.untimed before) id signalFirst = (t.turn w id signalFirst).untimed before := by
  unfold turn
  split
  · exact ite_untimed .rfl (finish_untimed w before id _)
      (ite_untimed .rfl act_untimed (keepLast_untimed w before id (.plan _)))
  · exact ite_untimed .rfl (ite_untimed .rfl proceed_untimed (finish_untimed w before id _))
      (ite_untimed .rfl act_untimed rfl)
  · exact ite_untimed .rfl refillNow_untimed rfl
  · exact ite_untimed .rfl proceed_untimed rfl

end PlanTask

namespace World

theorem followPoll_untimed (deadline : Nat) (r : WorkQueue.Attempt × WorkQueue) :
    (w.untimed before).followPoll id deadline r = (w.followPoll id deadline r).untimed before := by
  rcases r with ⟨_ | _ | ticket, q⟩
  · exact finish_untimed { w with queue := q } before id _
  · exact finish_untimed { w with queue := q } before id _
  · exact keepLast_untimed { w with queue := q } before id (.poll (some ticket) deadline)

theorem pollTurn_untimed (ticket : Option Nat) (deadline : Nat) :
    (w.untimed before).pollTurn id ticket deadline =
      (w.pollTurn id ticket deadline).untimed before := by
  cases ticket with
  | none => exact followPoll_untimed deadline _
  | some ticket =>
    rw [pollTurn_some, pollTurn_some]
    exact ite_untimed .rfl (followPoll_untimed deadline _) (ite_untimed .rfl
      (finish_untimed { w with queue := (w.queue.expire ticket).2 } before id _) rfl)

theorem refillTurn_untimed (items : List WorkItem) (entered : Bool) :
    (w.untimed before).refillTurn id items entered =
      (w.refillTurn id items entered).untimed before := by
  have held (v : World) := finish_untimed (({ v with
    queue := (v.queue.addAll items).2 } : World).leaveLock id) before id
  unfold refillTurn
  cases entered with
  | true => exact ite_untimed .rfl (held w _) rfl
  | false =>
    exact ite_untimed .rfl (held (w.enterLock id) _)
      (keepLast_untimed (w.enterLock id) before id (.refill items true))

theorem lockTurn_untimed (deadline : Nat) (entered : Bool) :
    (w.untimed before).lockTurn id deadline entered =
      (w.lockTurn id deadline entered).untimed before := by
  unfold lockTurn
  cases entered with
  | true =>
    exact ite_untimed .rfl (finish_untimed w before id _)
      (ite_untimed .rfl (finish_untimed (w.leaveLock id) before id _) rfl)
  | false =>
    exact ite_untimed .rfl (finish_untimed (w.enterLock id) before id _)
      (ite_untimed .rfl (finish_untimed ((w.enterLock id).leaveLock id) before id _)
        (keepLast_untimed (w.enterLock id) before id (.lock deadline true)))

theorem idleTurn_untimed (activity deadline : Nat) :
    (w.untimed before).idleTurn id activity deadline =
      (w.idleTurn id activity deadline).untimed before :=
  ite_untimed .rfl (finish_untimed w before id _)
    (ite_untimed .rfl (finish_untimed w before id _) rfl)

end World

end Refilling

section Background

namespace World

theorem sendTurn_untimed (results : Nat) (r : Response) (due : Nat) :
    (w.untimed before).sendTurn id results r due =
      (w.sendTurn id results r due).untimed before := by
  unfold sendTurn
  refine ite_untimed .rfl ?_ rfl
  rw [show (w.untimed before).results = w.results from rfl]
  split
  · exact removeJob_untimed w before id
  · rename_i q _
    rcases q.send r with ⟨_ | _ | _, q⟩
    · exact finish_untimed { w.setResults results q with sentAt := w.now :: w.sentAt } before id _
    · exact finish_untimed (w.setResults results q) before id _
    · exact finish_untimed (w.setResults results q) before id _

theorem saveOffer_untimed (o : Offer) :
    (w.untimed before).saveOffer o = (w.saveOffer o).untimed before := by
  unfold saveOffer look
  rw [show (w.untimed before).clock = w.clock from rfl]
  cases w.clock <;> rfl

theorem expireOffers_untimed (ttl : Span) :
    (w.untimed before).expireOffers ttl = (w.expireOffers ttl).untimed before := by
  unfold expireOffers look
  rw [show (w.untimed before).clock = w.clock from rfl]
  cases w.clock <;> rfl

end World

namespace LoadTask

variable {t : LoadTask}

theorem isOver_untimed : t.isOver (w.untimed before) = t.isOver w := by
  unfold isOver
  rw [hasSenders_untimed]
  rfl

theorem goOn_untimed (r : Response) (left : List Offer) :
    t.goOn (w.untimed before) id r left = (t.goOn w id r left).untimed before :=
  ite_untimed .rfl
    (keepFirst_untimed (w.countLoaded t.results r) before id (.load { t with stage := .receiving }))
    (keepFirst_untimed w before id (.load { t with stage := .saving r left }))

theorem turn_untimed : t.turn (w.untimed before) id = (t.turn w id).untimed before := by
  unfold turn
  split
  · unfold receive
    rw [show t.receive? (w.untimed before) = t.receive? w from rfl, isOver_untimed]
    split
    · exact goOn_untimed (w := w.setResults t.results _) _ _
    · exact ite_untimed .rfl (finish_untimed (w.closeResults t.results) before id _)
        (keepLast_untimed w before id (.load t))
  · exact goOn_untimed _ _
  · rw [saveOffer_untimed]
    exact goOn_untimed _ _

end LoadTask

theorem EvictionTask.turn_untimed {t : EvictionTask} :
    t.turn (w.untimed before) id signalFirst = (t.turn w id signalFirst).untimed before := by
  unfold turn
  split
  · exact ite_untimed .rfl (finish_untimed w before id _) (keepLast_untimed w before id (.evict _))
  · simp only
    rw [expireOffers_untimed]
    exact ite_untimed .rfl (finish_untimed w before id _) (ite_untimed .rfl
      (keepLast_untimed (w.expireOffers t.ttl) before id (.evict _)) rfl)

namespace WindDown

theorem skip_untimed (timeout : Span) (left : List TaskId) :
    skip (w.untimed before) timeout left =
      ((skip w timeout left).1.untimed before, (skip w timeout left).2) := by
  induction left generalizing w with
  | nil => rfl
  | cons task rest ih =>
    unfold skip
    rw [isLive_untimed, warn_untimed, ih, ih]
    split
    · rfl
    split <;> rfl

theorem awaitNext_untimed (timeout : Span) (left : List TaskId) :
    awaitNext (w.untimed before) id timeout left =
      (awaitNext w id timeout left).untimed before := by
  unfold awaitNext
  rw [skip_untimed]
  rcases skip w timeout left with ⟨v, _ | ⟨task, rest⟩⟩
  · exact finish_untimed v before id _
  · exact keepLast_untimed v before id (.windDown (.ending timeout _ _))

theorem signalAll_untimed (timeout : Span) (left : List TaskId) :
    signalAll (w.untimed before) id timeout left =
      (signalAll w id timeout left).untimed before :=
  awaitNext_untimed (w := w.setSignal w.background.signal true) timeout _

theorem drain_untimed (timeout : Span) (deadline : Nat) :
    drain (w.untimed before) id timeout deadline =
      (drain w id timeout deadline).untimed before := by
  unfold drain
  rw [show (w.untimed before).background = w.background from rfl]
  split
  · exact signalAll_untimed timeout _
  · rw [isLive_untimed]
    exact ite_untimed .rfl (signalAll_untimed timeout _) (ite_untimed .rfl
      (signalAll_untimed (w := w.warn (openMessage timeout)) timeout _)
      (keepLast_untimed w before id (.windDown (.draining timeout deadline))))

theorem turn_untimed (t : WindDown) :
    turn (w.untimed before) id t = (turn w id t).untimed before := by
  unfold turn
  split
  · exact drain_untimed _ _
  · exact drain_untimed _ _
  · split
    · exact finish_untimed w before id _
    · rename_i timeout _ _ _ _
      rw [isLive_untimed]
      exact ite_untimed .rfl (awaitNext_untimed _ _) (ite_untimed .rfl
        (awaitNext_untimed (w := w.warn (lateMessage timeout)) _ _) rfl)

end WindDown

end Background

section Managing

namespace World

theorem abort_untimed (w : World) (id : TaskId) :
    (w.untimed before).abort id = (w.abort id).untimed before := by
  unfold abort
  rw [job?_untimed]
  cases w.job? id with
  | none => rfl
  | some j =>
    rcases j with ⟨i, task⟩
    have leaves (v : World) := removeJob_untimed v before id
    cases task with
    | crawl t =>
      cases hs : t.stage with
      | matching item =>
        simp only [Option.map_some, Job.untimed, Task.untimed, CrawlTask.untimed, hs]
        exact keepInPlace_untimed w before id (.crawl { t with doomed := true, stage := .matching item })
      | polling ticket deadline seen =>
        simp only [Option.map_some, Job.untimed, Task.untimed, CrawlTask.untimed, hs]
        exact leaves { w with queue := w.queue.cancel ticket }
      | looking =>
        simp only [Option.map_some, Job.untimed, Task.untimed, CrawlTask.untimed, hs]
        exact leaves w
    | poll ticket deadline =>
      cases ticket with
      | some ticket => exact leaves { w with queue := w.queue.cancel ticket }
      | none => exact leaves { w with refillLock := w.refillLock.leave id }
    | _ => exact leaves { w with refillLock := w.refillLock.leave id }

theorem foldl_abort_untimed (crew : List TaskId) :
    crew.foldl abort (w.untimed before) = (crew.foldl abort w).untimed before := by
  induction crew generalizing w with
  | nil => rfl
  | cons task rest ih => rw [List.foldl_cons, abort_untimed, ih, List.foldl_cons]

theorem dropPool_untimed (w : World) (pool : Nat) :
    (w.untimed before).dropPool pool = (w.dropPool pool).untimed before := by
  unfold dropPool
  rw [show (w.untimed before).pools = w.pools from rfl]
  split
  · rfl
  · rw [foldl_abort_untimed]
    rfl

theorem makeCrawlers_untimed (m : Manager) :
    makeCrawlers m.untimed = (makeCrawlers m).map Crawler.untimed := by
  simp only [makeCrawlers, List.map_map]
  rfl

theorem fillPool_untimed (pool : Nat) (crew : List Crawler) :
    (w.untimed before).fillPool pool (crew.map Crawler.untimed) =
      (w.fillPool pool crew).untimed before := by
  induction crew generalizing w with
  | nil => rfl
  | cons c rest ih =>
    simp only [fillPool, List.map_cons, List.foldl_cons] at ih ⊢
    rw [show (w.untimed before).pools[pool]? = w.pools[pool]? from rfl]
    cases w.pools[pool]? with
    | none => exact ih
    | some p =>
      have hs := spawn_untimed w before (crawlTask p c)
      simp only [show crawlTask p c.untimed = (crawlTask p c).untimed from rfl, hs]
      exact ih (w := (w.spawn (crawlTask p c)).2.changePool pool fun p =>
        { p with crawlers := p.crawlers ++ [(w.spawn (crawlTask p c)).1] })

theorem spawnPool_untimed (w : World) :
    (w.untimed before).spawnPool = w.spawnPool.untimed before := by
  have put (v : World) (crew : List Crawler) :
      (((v.untimed before).addPool.2.fillPool v.addPool.1 (crew.map Crawler.untimed)).changePool
        v.addPool.1 fun p => { p with state := .running }).changeManager (fun m =>
          { m with built := m.built + (crew.map Crawler.untimed).length, pool := some v.addPool.1 }) =
      (((v.addPool.2.fillPool v.addPool.1 crew).changePool v.addPool.1 fun p =>
        { p with state := .running }).changeManager fun m =>
          { m with built := m.built + crew.length, pool := some v.addPool.1 }).untimed before := by
    have hf : (v.addPool.2.untimed before).fillPool v.addPool.1 (crew.map Crawler.untimed) =
        (v.addPool.2.fillPool v.addPool.1 crew).untimed before := fillPool_untimed v.addPool.1 crew
    rw [show (v.untimed before).addPool.2 = v.addPool.2.untimed before from rfl, hf,
      List.length_map]
    rfl
  unfold spawnPool
  simp only
  rw [show (w.untimed before).manager = w.manager.untimed from rfl, makeCrawlers_untimed,
    show w.manager.untimed.crawler.requeue = w.manager.crawler.requeue from rfl]
  split
  · exact put (w.warn unboundedMessage) (makeCrawlers w.manager)
  · exact put w (makeCrawlers w.manager)

theorem follow_untimed (w : World) (p : Plan) :
    (w.untimed before).follow p = (w.follow p).untimed before := by
  have hj : (w.untimed before).jobs = w.jobs.map Job.untimed := rfl
  unfold follow
  simp only [addSignal, spawn, hj]
  rw [show (w.untimed before).manager.schedule = w.manager.schedule from rfl]
  split
  all_goals
    simp only [World.untimed, changeManager, setSignal, List.map_append]
    rfl

theorem dropManager_untimed (w : World) :
    (w.untimed before).dropManager = w.dropManager.untimed before := by
  unfold dropManager
  simp only
  rw [show (w.untimed before).manager.pool = w.manager.pool from rfl,
    show (w.untimed before).manager.schedule = w.manager.schedule from rfl]
  cases w.manager.pool with
  | some pool =>
    simp only [dropPool_untimed]
    cases w.manager.schedule with
    | some s =>
      simp only [abort_untimed]
      rfl
    | none => rfl
  | none =>
    cases w.manager.schedule with
    | some s =>
      simp only [abort_untimed]
      rfl
    | none => rfl

theorem beginShutdown_untimed (pool : Nat) (timeout : Span) :
    (w.untimed before).beginShutdown pool timeout =
      ((w.beginShutdown pool timeout).1.untimed before, (w.beginShutdown pool timeout).2) := by
  unfold beginShutdown
  rw [show (w.untimed before).pools[pool]? = w.pools[pool]? from rfl]
  split
  · rfl
  · split
    · rfl
    · simp only
      split <;> rfl

theorem join_untimed (deadline aborted : Nat) (left : List TaskId) :
    (w.untimed before).join deadline aborted left =
      ((w.join deadline aborted left).1.untimed before, (w.join deadline aborted left).2) := by
  induction left generalizing w aborted with
  | nil => rfl
  | cons task rest ih =>
    unfold join
    rw [isLive_untimed, abort_untimed, ih, ih, show (w.untimed before).now = w.now from rfl]
    split
    · rfl
    split <;> rfl

theorem endShutdown_untimed (j : Join) : (w.untimed before).endShutdown j =
    ((w.endShutdown j).1.untimed before, (w.endShutdown j).2) := by
  unfold endShutdown
  rw [show (w.untimed before).crashedCrawlers j.pool = w.crashedCrawlers j.pool from rfl]
  simp only
  split <;> split <;> rfl

end World

namespace ManagerTask

variable {t : ManagerTask}

theorem stay_untimed (w : World) (stage : ManagerStage) :
    t.stay (w.untimed before) id stage = (t.stay w id stage).untimed before :=
  keepLast_untimed w before id (.manage { t with stage := stage })

theorem done_untimed (w : World) : done (w.untimed before) id = (done w id).untimed before :=
  finish_untimed w before id _

theorem reportLate_untimed (message : String) (r : Except CrawlFault Unit) :
    reportLate (w.untimed before) message r = (reportLate w message r).untimed before := by
  cases r with
  | ok _ => rfl
  | error fault => exact report_untimed w before _

theorem afterShutdown_untimed (w : World) (pool : Nat) (r : Except CrawlFault Unit) :
    t.afterShutdown (w.untimed before) id pool r =
      (t.afterShutdown w id pool r).untimed before := by
  unfold afterShutdown
  split
  · rw [reportLate_untimed, dropPool_untimed, finish_untimed]
  · simp only
    rw [reportLate_untimed, dropPool_untimed, spawnPool_untimed]
    exact done_untimed (World.leaveSlot _ id)
  · exact finish_untimed w before id _

theorem awaitCrawlers_untimed (w : World) (j : Join) :
    t.awaitCrawlers (w.untimed before) id j = (t.awaitCrawlers w id j).untimed before := by
  unfold awaitCrawlers
  rw [join_untimed]
  rcases w.join j.deadline j.aborted j.left with ⟨v, _ | ⟨task, rest⟩, aborted⟩
  · simp only
    rw [endShutdown_untimed]
    exact afterShutdown_untimed _ _ _
  · exact stay_untimed v _

theorem crash_untimed (w : World) (pool : Nat) (c : Crash) :
    t.crash (w.untimed before) id pool c = (t.crash w id pool c).untimed before := by
  unfold ManagerTask.crash
  split
  · exact finish_untimed w before id _
  · rw [dropPool_untimed]
    exact finish_untimed ((w.dropPool pool).leaveSlot id) before id _

theorem shutDown_untimed (w : World) (pool : Nat) (timeout : Span) :
    t.shutDown (w.untimed before) id pool timeout =
      (t.shutDown w id pool timeout).untimed before := by
  unfold shutDown
  rw [beginShutdown_untimed]
  rcases w.beginShutdown pool timeout with ⟨v, _ | j⟩
  · exact afterShutdown_untimed v _ _
  · exact ite_untimed .rfl (awaitCrawlers_untimed v j) (crash_untimed v pool _)

theorem collate_untimed (w : World) (p : Plan) (idle : Bool) :
    collate (w.untimed before) id p idle = (collate w id p idle).untimed before := by
  have agreed (v : World) : ((v.untimed before).agree p).2.finish id
      (.plan (v.agree p).1) = ((v.agree p).2.finish id (.plan (v.agree p).1)).untimed before :=
    finish_untimed (v.agree p).2 before id _
  cases idle with
  | true => exact agreed w
  | false =>
    unfold collate
    simp only [report_untimed]
    exact agreed _

theorem awaitIdle_untimed (w : World) (p : Plan) (activity deadline : Nat) :
    t.awaitIdle (w.untimed before) id p activity deadline =
      (t.awaitIdle w id p activity deadline).untimed before :=
  ite_untimed .rfl (collate_untimed w p true)
    (ite_untimed .rfl (collate_untimed w p false) (stay_untimed w _))

theorem decideSlot_untimed (w : World) :
    t.decideSlot (w.untimed before) id = (t.decideSlot w id).untimed before := by
  unfold decideSlot
  rw [show (w.untimed before).manager.pool = w.manager.pool from rfl,
    show (w.untimed before).pools = w.pools from rfl]
  split
  · split
    · exact finish_untimed (w.leaveSlot id) before id _
    · rw [spawnPool_untimed]
      exact done_untimed (w.spawnPool.leaveSlot id)
  · split
    · exact shutDown_untimed (w.setPool none) _ _
    · rw [spawnPool_untimed]
      exact done_untimed (w.spawnPool.leaveSlot id)
  · simp only
    split
    · exact done_untimed ((w.setPool none).leaveSlot id)
    · exact shutDown_untimed ((w.setPool none).leaveSlot id) _ _
  · simp only
    split
    · exact collate_untimed (w.leaveSlot id) _ _
    · exact awaitIdle_untimed (w.leaveSlot id) _ _ _
  · exact removeJob_untimed w before id

theorem askSlot_untimed (w : World) :
    t.askSlot (w.untimed before) id = (t.askSlot w id).untimed before :=
  ite_untimed .rfl (decideSlot_untimed (w.enterSlot id)) (stay_untimed (w.enterSlot id) _)

theorem awaitPlan_untimed (w : World) (plan : TaskId) (deadline : Nat) :
    t.awaitPlan (w.untimed before) id plan deadline =
      (t.awaitPlan w id plan deadline).untimed before := by
  unfold awaitPlan
  rw [isLive_untimed, abort_untimed]
  exact ite_untimed .rfl (askSlot_untimed w) (ite_untimed .rfl
    (askSlot_untimed ((w.abort plan).warn _)) (stay_untimed w _))

theorem enter_untimed (w : World) :
    t.enter (w.untimed before) id = (t.enter w id).untimed before := by
  unfold enter
  rw [show (w.untimed before).manager.schedule = w.manager.schedule from rfl]
  split
  · exact askSlot_untimed w
  · exact askSlot_untimed w
  · exact askSlot_untimed (w.submit _)
  · split
    · exact askSlot_untimed w
    · rename_i s _
      exact awaitPlan_untimed ((w.changeManager fun m => { m with schedule := none }).setSignal
        s.signal true) _ _
  · exact shutDown_untimed w _ _

theorem turn_untimed : t.turn (w.untimed before) id = (t.turn w id).untimed before := by
  unfold turn
  split
  · exact enter_untimed w
  · exact awaitPlan_untimed w _ _
  · exact ite_untimed .rfl (decideSlot_untimed w) rfl
  · exact awaitCrawlers_untimed w _
  · split
    · exact awaitIdle_untimed w _ _ _
    · rfl

end ManagerTask

end Managing

namespace Task

theorem isReady_untimed (t : Task) (w : World) (before : List Notice) (id : TaskId) :
    t.isReady (w.untimed before) id = t.isReady w id := by
  cases t with
  | load t =>
    rcases t with ⟨results, signal, seen, stage⟩
    cases stage with
    | receiving =>
      simp only [isReady, LoadTask.isReady, LoadTask.isOver_untimed]
      rfl
    | saving r left => rfl
  | manage t =>
    rcases t with ⟨call, stage⟩
    cases stage with
    | planEnding plan deadline =>
      simp only [isReady, ManagerTask.isReady, isLive_untimed]
      rfl
    | crawlersEnding j =>
      simp only [isReady, ManagerTask.isReady, isLive_untimed]
      rfl
    | _ => rfl
  | windDown t =>
    cases t with
    | entering timeout => rfl
    | draining timeout deadline =>
      simp only [isReady, WindDown.isReady, isLive_untimed]
      rfl
    | ending timeout left deadline =>
      simp only [isReady, WindDown.isReady, isLive_untimed]
      rfl
  | poll ticket deadline => cases ticket <;> rfl
  | _ => rfl

theorem isReady_of_untimed {t : Task} (h : t.untimed.isReady w id = true) :
    t.isReady w id = true := by
  cases t with
  | call t =>
    rcases t with ⟨crawler, results, adapter, request, stage⟩
    cases stage with
    | answering due warnAt outcome =>
      have hd : due ≤ w.now := by
        simpa [isReady, untimed, CallTask.untimed, CallStage.untimed, CallTask.isReady,
          CallTask.isLate] using h
      simp [isReady, CallTask.isReady, hd]
    | _ => exact h
  | _ => exact h

theorem turn_untimed {t : Task} (h : t.untimed.isReady w id = true) :
    (t.untimed.turn (w.untimed before) id signalFirst).untimed [] =
      (t.turn w id signalFirst).untimed before := by
  have same {v v' : World} (hv : v' = v.untimed before) : v'.untimed [] = v.untimed before := by
    rw [hv, untimed_again]
  cases t with
  | call t => exact CallTask.turn_untimed h
  | crawl t => exact same (t.turn_untimed signalFirst)
  | plan t => exact same t.turn_untimed
  | load t => exact same t.turn_untimed
  | evict t => exact same t.turn_untimed
  | manage t => exact same t.turn_untimed
  | windDown t => exact same t.turn_untimed
  | send results r due => exact same (sendTurn_untimed results r due)
  | poll ticket deadline => exact same (pollTurn_untimed ticket deadline)
  | refill items entered => exact same (refillTurn_untimed items entered)
  | lock deadline entered => exact same (lockTurn_untimed deadline entered)
  | awaitIdle activity deadline => exact same (idleTurn_untimed activity deadline)

theorem untimed_of_isEntry {t : Task} (h : t.isEntry = true) : t.untimed = t := by
  cases t <;> first | rfl | cases h

theorem isCancellable_untimed (t : Task) : t.untimed.isCancellable = t.isCancellable := by
  cases t <;> rfl

end Task

namespace World

def isPlain (w : World) : Event → Bool
  | .step (.pass _) => false
  | .step (.turn id _) => (w.job? id).any fun j => j.task.untimed.isReady w id
  | _ => true

variable {e : Event}

theorem isPlain_untimed (w : World) (before : List Notice) (e : Event) :
    (w.untimed before).isPlain e = w.isPlain e := by
  unfold isPlain
  split
  · rfl
  · rename_i id _
    rw [job?_untimed, Option.any_map]
    congr 1
    funext j
    rw [Task.isReady_untimed]
    exact congrArg (·.isReady w id) j.task.untimed_untimed
  · rfl

theorem react_untimed (h : w.isPlain e = true) (before : List Notice) :
    ((w.untimed before).react e).untimed [] = (w.react e).untimed before := by
  have same {v v' : World} (hv : v' = v.untimed before) : v'.untimed [] = v.untimed before := by
    rw [hv, untimed_again]
  cases e with
  | step s =>
    cases s with
    | pass nanos => cases h
    | turn id signalFirst =>
      cases hj : w.job? id with
      | none => simp [isPlain, hj] at h
      | some j =>
        have hr : j.task.untimed.isReady w id = true := by simpa [isPlain, hj] using h
        have hr' : j.untimed.task.isReady (w.untimed before) id = true := by
          rw [Task.isReady_untimed]
          exact hr
        simp only [react, step, job?_untimed, hj, Option.map_some, hr',
          Task.isReady_of_untimed hr, if_true]
        exact Task.turn_untimed hr
  | launch t =>
    refine same ?_
    simp only [react]
    split
    · rename_i ht
      have hs := spawn_untimed w before t
      rw [Task.untimed_of_isEntry ht] at hs
      rw [hs]
    · rfl
  | cancel id =>
    refine same ?_
    simp only [react, job?_untimed]
    cases w.job? id with
    | none => rfl
    | some j =>
      exact ite_untimed (iff_of_eq (congrArg (· = true) j.task.isCancellable_untimed))
        (abort_untimed w id) rfl
  | schedule p => exact same (follow_untimed w p)
  | dropManager => exact same (dropManager_untimed w)
  | _ => exact same rfl

end World

end CatalogCrawl

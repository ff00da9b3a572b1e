import CatalogCrawl.Proofs.World.Aside
import CatalogCrawl.Proofs.World.Runs

namespace CatalogCrawl

variable {a : Actor} {calm : Prop} {w v u : World}

namespace CrawlTask

open World

variable {t : CrawlTask} {id : TaskId}

theorem work_aside (w : World) (item : WorkItem) :
    w.Aside (.job ⟨id, .crawl t⟩) calm (w.work t.crawler t.results item).2 := by
  rw [work_eq]
  refine ⟨⟨Nat.le_add_right _ _, rfl, rfl, fun j hm => ?_, fun e hm => .inl hm⟩,
    rfl, rfl, rfl, rfl, rfl, rfl, rfl, Journal.kind_foldl_report _ _⟩
  rcases List.mem_append.1 hm with hm | hm
  · exact .kept hm
  · obtain ⟨adapter, -, ht⟩ := task_of_mem_callsFrom hm
    have hi : j.id ∈ List.range' w.nextId _ := ids_callsFrom ▸ List.mem_map_of_mem hm
    refine .started (List.mem_range'_1.1 hi).1 ?_
    rw [ht]
    exact ⟨rfl, rfl⟩

theorem stop_aside (w : World) : w.Aside (.job ⟨id, .crawl t⟩) calm (t.stop w id) :=
  .finish w ⟨id, .crawl t⟩ fun _ => by cases t.mode <;> rfl

theorem delivered_record (s : CrawlStats) (o : Outcome) : (s.record o).delivered = s.delivered := by
  cases o <;> rfl

theorem complete_aside (w : World) (item : WorkItem) :
    w.Aside (.job ⟨id, .crawl t⟩) calm (t.complete w id item) := by
  have hw : w.Aside (.job ⟨id, .crawl t⟩) calm (w.work t.crawler t.results item).2 :=
    work_aside w item
  unfold complete
  rcases hv : w.work t.crawler t.results item with ⟨outcome, v⟩
  rw [hv] at hw
  cases t.mode with
  | steady activity =>
    simp only
    have hs : v.Aside (.job ⟨id, .crawl t⟩) calm (({ v with
        stats := v.stats.record outcome } : World).changeActivity activity Activity.finish) :=
      .pass (by simp only [fixture, changeActivity, delivered_record])
    split
    · exact (hw.trans hs).trans (.finish _ ⟨id, .crawl t⟩ fun _ => rfl)
    · exact (hw.trans hs).trans (.keepFirst (k := ⟨id, .crawl t⟩) ⟨rfl, rfl⟩)
  | single => exact hw.trans (.finish _ ⟨id, .crawl t⟩ fun _ => rfl)
  | fetch => exact hw.trans (.finish _ ⟨id, .crawl t⟩ fun _ => rfl)

theorem takeUp_aside (w : World) (item : WorkItem) :
    w.Aside (.job ⟨id, .crawl t⟩) calm (t.takeUp w id item) := by
  have begin_aside (v : World) : v.Aside (.job ⟨id, .crawl t⟩) calm
      (if v.isGated then v.keepLast id (.crawl { t with stage := .matching item })
        else t.complete v id item) := by
    split
    · exact .keepLast (k := ⟨id, .crawl t⟩) ⟨rfl, rfl⟩
    · exact complete_aside v item
  unfold takeUp
  simp only
  split
  · exact .finish w ⟨id, .crawl t⟩ fun _ => rfl
  · exact begin_aside w
  · rename_i activity _
    have hs : w.Aside (.job ⟨id, .crawl t⟩) calm (w.changeActivity activity Activity.start) :=
      .pass rfl
    exact hs.trans (begin_aside _)

theorem setQueue_aside (w : World) (q : WorkQueue) : w.Aside a calm { w with queue := q } :=
  .pass rfl

theorem again_aside (w : World) :
    w.Aside (.job ⟨id, .crawl t⟩) calm (w.keepFirst id (.crawl { t with stage := .looking })) :=
  .keepFirst (k := ⟨id, .crawl t⟩) ⟨rfl, rfl⟩

theorem heed_aside (w : World) (ticket seen : Nat) :
    w.Aside (.job ⟨id, .crawl t⟩) calm (t.heed w id ticket seen) := by
  unfold heed
  simp only
  split
  · exact (setQueue_aside w _).trans (again_aside _)
  · exact (setQueue_aside w _).trans (stop_aside _)

theorem follow_aside (w : World) (deadline seen : Nat) (r : WorkQueue.Attempt × WorkQueue) :
    w.Aside (.job ⟨id, .crawl t⟩) calm (t.follow w id deadline seen r) := by
  rcases r with ⟨_ | _ | ticket, q⟩
  · exact (setQueue_aside w q).trans (takeUp_aside _ _)
  · exact (setQueue_aside w q).trans (stop_aside _)
  · simp only [follow]
    split
    · exact (setQueue_aside w q).trans (heed_aside _ _ _)
    · exact (setQueue_aside w q).trans (.keepLast (k := ⟨id, .crawl t⟩) ⟨rfl, rfl⟩)

theorem look_aside (hc : calm → (Task.crawl t).Safe w) (signalFirst : Bool) :
    w.Aside (.job ⟨id, .crawl t⟩) calm (t.look w id signalFirst) := by
  unfold look
  simp only
  split
  · exact stop_aside w
  split
  · -- A crawler crashes here only.
    rename_i hd
    refine .finish w ⟨id, .crawl t⟩ fun h => ?_
    have hs := hc h
    simp only [Task.Safe] at hs
    simp [hs] at hd
  · exact follow_aside w _ _ _

theorem wake_aside (w : World) (ticket deadline seen : Nat) (signalFirst : Bool) :
    w.Aside (.job ⟨id, .crawl t⟩) calm (t.wake w id ticket deadline seen signalFirst) := by
  unfold wake
  simp only
  split
  · exact heed_aside w ticket seen
  split
  · exact follow_aside w _ _ _
  split
  · split
    · exact (setQueue_aside w _).trans (takeUp_aside _ _)
    · split
      · exact (setQueue_aside w _).trans (stop_aside _)
      · exact (setQueue_aside w _).trans (again_aside _)
  · exact .refl w

theorem turn_aside (hc : calm → (Task.crawl t).Safe w) (signalFirst : Bool) :
    w.Aside (.job ⟨id, .crawl t⟩) calm (t.turn w id signalFirst) := by
  unfold turn
  split
  · exact look_aside hc signalFirst
  · exact wake_aside w _ _ _ _
  · split
    · exact .refl w
    · exact complete_aside w _

end CrawlTask

namespace PlanTask

open World

variable {t : PlanTask} {id : TaskId}

theorem proceed_aside (w : World) : w.Aside (.job ⟨id, .plan t⟩) calm (t.proceed w id) :=
  .keepFirst (k := ⟨id, .plan t⟩) trivial

theorem addWorkload_aside (w : World) : w.Aside a calm (w.addWorkload.leaveLock id) := by
  have filled (v : World) :
      v.Aside a calm { v with queue := (v.queue.addAll w.manager.workload).2 } := .pass rfl
  unfold addWorkload
  exact (((Aside.report w _).trans (filled _)).trans (.report _ _)).trans (.pass rfl)

theorem refillNow_aside (w : World) : w.Aside (.job ⟨id, .plan t⟩) calm (t.refillNow w id) :=
  (addWorkload_aside w).trans (proceed_aside _)

theorem act_aside (w : World) : w.Aside (.job ⟨id, .plan t⟩) calm (t.act w id) := by
  unfold act
  simp only
  split
  · have hw : w.Aside (.job ⟨id, .plan t⟩) calm ((w.report (.debug
        "partition manager: execute plan - waiting for queue lock")).enterLock id) :=
      (Aside.report w _).trans (.pass rfl)
    split
    · exact (hw.trans (addWorkload_aside _)).trans
        (.keepFirst (k := ⟨id, .plan t⟩) (t := .plan _) trivial)
    · exact hw.trans (.keepLast (k := ⟨id, .plan t⟩) trivial)
  · have hw : w.Aside (.job ⟨id, .plan t⟩) calm { w with pauses := w.now :: w.pauses } := .pass rfl
    split
    · exact hw.trans (.keepFirst (k := ⟨id, .plan t⟩) trivial)
    · exact hw.trans (.keepLast (k := ⟨id, .plan t⟩) trivial)

theorem look_aside (w : World) (signalFirst : Bool) :
    w.Aside (.job ⟨id, .plan t⟩) calm (t.look w id signalFirst) := by
  unfold look
  simp only
  split
  · exact .finish w ⟨id, .plan t⟩ fun _ => rfl
  split
  · exact act_aside w
  · exact .keepLast (k := ⟨id, .plan t⟩) trivial

theorem turn_aside (w : World) (signalFirst : Bool) :
    w.Aside (.job ⟨id, .plan t⟩) calm (t.turn w id signalFirst) := by
  unfold turn
  split
  · exact look_aside w signalFirst
  · simp only
    split
    · split
      · exact proceed_aside w
      · exact .finish w ⟨id, .plan t⟩ fun _ => rfl
    split
    · exact act_aside w
    · exact .refl w
  · split
    · exact refillNow_aside w
    · exact .refl w
  · split
    · exact proceed_aside w
    · exact .refl w

end PlanTask

namespace WindDown

open World

variable {t : WindDown} {id : TaskId}

theorem skip_aside (w : World) (timeout : Span) (left : List TaskId) :
    w.Aside a calm (skip w timeout left).1 := by
  induction left generalizing w with
  | nil => exact .refl w
  | cons task rest ih =>
    unfold skip
    split
    · exact ih w
    split
    · exact (ih _).after rfl
    · exact .refl w

theorem awaitNext_aside (w : World) (timeout : Span) (left : List TaskId) :
    w.Aside (.job ⟨id, .windDown t⟩) calm (awaitNext w id timeout left) := by
  have hs : w.Aside (.job ⟨id, .windDown t⟩) calm (skip w timeout left).1 :=
    skip_aside w timeout left
  unfold awaitNext
  rcases hv : skip w timeout left with ⟨v, _ | ⟨task, rest⟩⟩
  · rw [hv] at hs
    exact hs.trans (.finish v ⟨id, .windDown t⟩ fun _ => rfl)
  · rw [hv] at hs
    exact hs.trans (.keepLast (k := ⟨id, .windDown t⟩) trivial)

theorem signalAll_aside (w : World) (timeout : Span) (left : List TaskId) :
    w.Aside (.job ⟨id, .windDown t⟩) calm (signalAll w id timeout left) :=
  (awaitNext_aside (w.setSignal w.background.signal true) timeout _).after rfl

theorem drain_aside (w : World) (timeout : Span) (deadline : Nat) :
    w.Aside (.job ⟨id, .windDown t⟩) calm (drain w id timeout deadline) := by
  unfold drain
  split
  · exact signalAll_aside w timeout _
  split
  · exact signalAll_aside w timeout _
  split
  · exact (signalAll_aside (w.warn (openMessage timeout)) timeout _).after rfl
  · exact .keepLast (k := ⟨id, .windDown t⟩) trivial

theorem turn_aside (w : World) : w.Aside (.job ⟨id, .windDown t⟩) calm (t.turn w id) := by
  unfold turn
  split
  · exact drain_aside w _ _
  · exact drain_aside w _ _
  · rename_i timeout left deadline
    split
    · exact .finish w ⟨id, _⟩ fun _ => rfl
    split
    · exact awaitNext_aside w _ _
    split
    · exact (awaitNext_aside (w.warn (lateMessage timeout)) timeout _).after rfl
    · exact .refl w

end WindDown

namespace World

variable {id : TaskId}

theorem refillTurn_aside (w : World) (items : List WorkItem) (entered : Bool) :
    w.Aside (.job ⟨id, .refill items entered⟩) calm (w.refillTurn id items entered) := by
  have held (v : World) : v.Aside (.job ⟨id, .refill items entered⟩) calm
      ((({ v with queue := (v.queue.addAll items).2 } : World).leaveLock id).finish id
        (.count (v.queue.addAll items).1)) :=
    (Aside.finish (({ v with queue := (v.queue.addAll items).2 } : World).leaveLock id)
      ⟨id, .refill items entered⟩ fun _ => rfl).after rfl
  unfold refillTurn
  cases entered with
  | true =>
    simp only [if_true]
    split
    · exact held w
    · exact .refl w
  | false =>
    simp only [Bool.false_eq_true, if_false]
    split
    · exact (held (w.enterLock id)).after rfl
    · exact (Aside.keepLast (w := w.enterLock id) (k := ⟨id, .refill items false⟩)
        (t := .refill items true) trivial).after rfl

theorem lockTurn_aside (w : World) (deadline : Nat) (entered : Bool) :
    w.Aside (.job ⟨id, .lock deadline entered⟩) calm (w.lockTurn id deadline entered) := by
  have late (v : World) : v.Aside (.job ⟨id, .lock deadline entered⟩) calm
      ((v.leaveLock id).finish id (.flag false)) :=
    (Aside.finish (v.leaveLock id) ⟨id, .lock deadline entered⟩ fun _ => rfl).after rfl
  unfold lockTurn
  cases entered with
  | true =>
    simp only [if_true]
    split
    · exact .finish w ⟨id, _⟩ fun _ => rfl
    split
    · exact late w
    · exact .refl w
  | false =>
    have he : w.Aside (.job ⟨id, .lock deadline false⟩) calm (w.enterLock id) := .pass rfl
    simp only [Bool.false_eq_true, if_false]
    split
    · exact he.trans (.finish _ ⟨id, _⟩ fun _ => rfl)
    split
    · exact he.trans (late _)
    · exact he.trans (.keepLast (k := ⟨id, _⟩) trivial)

theorem idleTurn_aside (w : World) (activity deadline : Nat) :
    w.Aside (.job ⟨id, .awaitIdle activity deadline⟩) calm (w.idleTurn id activity deadline) := by
  unfold idleTurn
  split
  · exact .finish w ⟨id, _⟩ fun _ => rfl
  split
  · exact .finish w ⟨id, _⟩ fun _ => rfl
  · exact .refl w

theorem pollTurn_aside (w : World) (ticket : Option Nat) (deadline : Nat) :
    w.Aside (.job ⟨id, .poll ticket deadline⟩) calm (w.pollTurn id ticket deadline) := by
  have follow (v : World) (r : WorkQueue.Attempt × WorkQueue) :
      v.Aside (.job ⟨id, .poll ticket deadline⟩) calm (v.followPoll id deadline r) := by
    rcases r with ⟨_ | _ | ticket, q⟩
    · exact (Aside.finish { v with queue := q } ⟨id, .poll ticket deadline⟩ fun _ => rfl).after rfl
    · exact (Aside.finish { v with queue := q } ⟨id, .poll ticket deadline⟩ fun _ => rfl).after rfl
    · exact (Aside.keepLast (w := { v with queue := q }) (k := ⟨id, .poll _ deadline⟩)
        (t := .poll _ _) trivial).after rfl
  cases ticket with
  | none => exact follow w w.queue.attempt
  | some ticket =>
    rw [pollTurn_some]
    split
    · exact follow w _
    split
    · exact (Aside.finish { w with queue := (w.queue.expire ticket).2 }
        ⟨id, .poll (some ticket) deadline⟩ fun _ => rfl).after rfl
    · exact .refl w

section Pools

variable {id : TaskId} {t : ManagerTask}

theorem fillPool_aside (pool : Nat) {crew : List Crawler}
    (hc : ∀ c ∈ crew, c.config = w.manager.crawler) :
    w.Aside (.job ⟨id, .manage t⟩) calm (w.fillPool pool crew) := by
  induction crew generalizing w with
  | nil => exact .refl w
  | cons c rest ih =>
    have hr : ∀ c ∈ rest, c.config = w.manager.crawler := fun c hm =>
      hc c (List.mem_cons_of_mem _ hm)
    simp only [World.fillPool, List.foldl_cons]
    cases hp : w.pools[pool]? with
    | none => exact ih hr
    | some p =>
      have hs : w.Aside (.job ⟨id, .manage t⟩) calm (w.spawn (crawlTask p c)).2 :=
        .spawn ⟨hc c List.mem_cons_self, rfl⟩
      have he : w.Aside (.job ⟨id, .manage t⟩) calm ((w.spawn (crawlTask p c)).2.changePool pool
          fun p => { p with crawlers := p.crawlers ++ [w.nextId] }) := hs.trans (.pass rfl)
      exact he.trans (ih hr)

theorem putUp_aside {crew : List Crawler} (hc : ∀ c ∈ crew, c.config = w.manager.crawler) :
    w.Aside (.job ⟨id, .manage t⟩) calm
      (((w.addPool.2.fillPool w.addPool.1 crew).changePool w.addPool.1 fun p =>
        { p with state := .running }).changeManager fun m =>
          { m with built := m.built + crew.length, pool := some w.addPool.1 }) := by
  have hf : w.addPool.2.Aside (.job ⟨id, .manage t⟩) calm
      (w.addPool.2.fillPool w.addPool.1 crew) := fillPool_aside w.addPool.1 hc
  have hw : w.Aside (.job ⟨id, .manage t⟩) calm (w.addPool.2.fillPool w.addPool.1 crew) :=
    hf.after rfl
  exact hw.trans (.pass rfl)

theorem config_makeCrawlers {m : Manager} : ∀ c ∈ makeCrawlers m, c.config = m.crawler := by
  intro c hm
  obtain ⟨i, -, rfl⟩ := List.mem_map.1 hm
  rfl

theorem spawnPool_aside (w : World) : w.Aside (.job ⟨id, .manage t⟩) calm w.spawnPool := by
  unfold World.spawnPool
  simp only
  split
  · have hw : w.Aside (.job ⟨id, .manage t⟩) calm (w.warn unboundedMessage) := .pass rfl
    exact hw.trans (putUp_aside (config_makeCrawlers (m := w.manager)))
  · exact putUp_aside config_makeCrawlers

theorem beginShutdown_aside (w : World) (pool : Nat) (timeout : Span) :
    w.Aside a calm (w.beginShutdown pool timeout).1 ∧
      ∀ j ∈ (w.beginShutdown pool timeout).2, j.deadline = w.now + timeout.nanos := by
  unfold World.beginShutdown
  split
  · exact ⟨.refl w, fun j hj => by cases hj⟩
  split
  · exact ⟨.refl w, fun j hj => by cases hj⟩
  · simp only
    split
    · refine ⟨.pass rfl, fun j hj => ?_⟩
      cases hj
      rfl
    · refine ⟨.pass rfl, fun j hj => ?_⟩
      cases hj
      rfl

theorem join_aside (w : World) (deadline aborted : Nat) (left : List TaskId) :
    w.Aside a calm (w.join deadline aborted left).1 := by
  induction left generalizing w aborted with
  | nil => exact .refl w
  | cons task rest ih =>
    unfold World.join
    split
    · exact ih w aborted
    split
    · exact (Aside.abort w task).trans (ih _ _)
    · exact .refl w

theorem endShutdown_aside (w : World) (j : Join) : w.Aside a calm (w.endShutdown j).1 := by
  unfold World.endShutdown
  simp only
  split <;> split <;> exact .pass rfl

end Pools

end World

namespace ManagerTask

open World

variable {t : ManagerTask} {id : TaskId}

theorem stay_aside (w : World) (stage : ManagerStage) :
    w.Aside (.job ⟨id, .manage t⟩) calm (t.stay w id stage) :=
  .keepLast (k := ⟨id, .manage t⟩) rfl

theorem reportLate_aside (w : World) (message : String) (r : Except CrawlFault Unit) :
    w.Aside a calm (reportLate w message r) := by
  cases r with
  | ok _ => exact .refl w
  | error fault => exact .report w _

theorem finish_aside (w : World) {r : TaskResult} (hr : r.isCrash = false) :
    w.Aside (.job ⟨id, .manage t⟩) calm (w.finish id r) :=
  .finish w ⟨id, .manage t⟩ fun _ => hr

theorem start_aside (w : World) :
    w.Aside (.job ⟨id, .manage t⟩) calm (done (w.spawnPool.leaveSlot id) id) :=
  (spawnPool_aside w).trans ((finish_aside (w.spawnPool.leaveSlot id) rfl).after rfl)

theorem afterShutdown_aside (w : World) (pool : Nat) (r : Except CrawlFault Unit) :
    w.Aside (.job ⟨id, .manage t⟩) calm (t.afterShutdown w id pool r) := by
  unfold afterShutdown
  split
  · exact ((reportLate_aside w _ r).trans (.dropPool _ pool)).trans (finish_aside _ rfl)
  · exact ((reportLate_aside w _ r).trans (.dropPool _ pool)).trans (start_aside _)
  · exact finish_aside w rfl

theorem awaitCrawlers_aside (w : World) (j : Join) :
    w.Aside (.job ⟨id, .manage t⟩) calm (t.awaitCrawlers w id j) := by
  have hj : w.Aside (.job ⟨id, .manage t⟩) calm (w.join j.deadline j.aborted j.left).1 :=
    join_aside w j.deadline j.aborted j.left
  unfold awaitCrawlers
  rcases hv : w.join j.deadline j.aborted j.left with ⟨v, _ | ⟨task, rest⟩, aborted⟩
  · rw [hv] at hj
    exact (hj.trans (endShutdown_aside v _)).trans (afterShutdown_aside _ _ _)
  · rw [hv] at hj
    exact hj.trans (stay_aside v _)

theorem crash_aside (w : World) (hn : ¬ calm) (pool : Nat) (crash : Crash) :
    w.Aside (.job ⟨id, .manage t⟩) calm (t.crash w id pool crash) := by
  have crashed (v : World) : v.Aside (.job ⟨id, .manage t⟩) calm (v.finish id (.crashed crash)) :=
    .finish v ⟨id, .manage t⟩ fun h => absurd h hn
  unfold ManagerTask.crash
  split
  · exact crashed w
  · exact (Aside.dropPool w pool).trans ((crashed ((w.dropPool pool).leaveSlot id)).after rfl)

theorem shutDown_aside {timeout : Span} (hc : calm → w.shows (w.now + timeout.nanos)) (pool : Nat) :
    w.Aside (.job ⟨id, .manage t⟩) calm (t.shutDown w id pool timeout) := by
  obtain ⟨hb, hd⟩ : w.Aside (.job ⟨id, .manage t⟩) calm (w.beginShutdown pool timeout).1 ∧ _ :=
    beginShutdown_aside w pool timeout
  unfold shutDown
  rcases hv : w.beginShutdown pool timeout with ⟨v, _ | j⟩
  · rw [hv] at hb
    exact hb.trans (afterShutdown_aside v pool _)
  · rw [hv] at hb hd
    simp only
    split
    · exact hb.trans (awaitCrawlers_aside v j)
    · -- A call to the manager crashes here only, and its deadline counts from when it began.
      rename_i hs
      refine hb.trans (crash_aside v (fun h => hs ?_) pool _)
      have hw := hc h
      rw [hd j rfl, World.shows, hb.uptime]
      exact hw

theorem collate_aside (w : World) (p : Plan) (idle : Bool) :
    w.Aside (.job ⟨id, .manage t⟩) calm (collate w id p idle) := by
  have agreed (v : World) : v.Aside (.job ⟨id, .manage t⟩) calm
      ((v.agree p).2.finish id (.plan (v.agree p).1)) :=
    (finish_aside (v.agree p).2 rfl).after rfl
  cases idle with
  | true => exact agreed w
  | false => exact (Aside.report w _).trans (agreed _)

theorem awaitIdle_aside (w : World) (p : Plan) (activity deadline : Nat) :
    w.Aside (.job ⟨id, .manage t⟩) calm (t.awaitIdle w id p activity deadline) := by
  unfold awaitIdle
  split
  · exact collate_aside w p true
  split
  · exact collate_aside w p false
  · exact stay_aside w _

theorem decideSlot_aside (hc : calm → w.shows (w.now + w.manager.shutdownTimeout.nanos)) :
    w.Aside (.job ⟨id, .manage t⟩) calm (t.decideSlot w id) := by
  unfold decideSlot
  split
  · split
    · exact (finish_aside (w.leaveSlot id) rfl).after rfl
    · exact start_aside w
  · split
    · exact (shutDown_aside (w := w.setPool none) hc _).after rfl
    · exact start_aside w
  · simp only
    split
    · exact (finish_aside ((w.setPool none).leaveSlot id) rfl).after rfl
    · exact (shutDown_aside (w := (w.setPool none).leaveSlot id) hc _).after rfl
  · simp only
    split
    · exact (collate_aside (w.leaveSlot id) _ _).after rfl
    · exact (awaitIdle_aside (w.leaveSlot id) _ _ _).after rfl
  · exact .removeJob w id

theorem askSlot_aside (hc : calm → w.shows (w.now + w.manager.shutdownTimeout.nanos)) :
    w.Aside (.job ⟨id, .manage t⟩) calm (t.askSlot w id) := by
  unfold askSlot
  simp only
  split
  · exact (decideSlot_aside (w := w.enterSlot id) hc).after rfl
  · exact (stay_aside (w.enterSlot id) _).after rfl

theorem awaitPlan_aside (hc : calm → w.shows (w.now + w.manager.shutdownTimeout.nanos))
    (plan : TaskId) (deadline : Nat) :
    w.Aside (.job ⟨id, .manage t⟩) calm (t.awaitPlan w id plan deadline) := by
  unfold awaitPlan
  split
  · exact askSlot_aside hc
  split
  · have ha : w.Aside (.job ⟨id, .manage t⟩) calm (w.abort plan) := .abort w plan
    refine ha.trans ((askSlot_aside
      (w := (w.abort plan).warn "Refill schedule did not stop in time, aborted") ?_).after rfl)
    intro h
    have hs := hc h
    simp only [World.shows, World.warn, ha.uptime, ha.now, ha.shutdownTimeout] at hs ⊢
    exact hs
  · exact stay_aside w _

theorem enter_aside (hc : calm → (Task.manage t).Safe w) :
    w.Aside (.job ⟨id, .manage t⟩) calm (t.enter w id) := by
  unfold enter
  split
  · exact askSlot_aside fun h => (hc h).1
  · exact askSlot_aside fun h => (hc h).1
  · rename_i p _
    exact (askSlot_aside (w := w.submit p) fun h => (hc h).1).after rfl
  · split
    · exact askSlot_aside fun h => (hc h).1
    · rename_i s _
      exact (awaitPlan_aside
        (w := (w.changeManager fun m => { m with schedule := none }).setSignal s.signal true)
        (fun h => (hc h).1) s.task _).after rfl
  · rename_i pool timeout ht
    exact shutDown_aside (fun h => (hc h).2 pool timeout ht) pool

theorem turn_aside (hc : calm → (Task.manage t).Safe w) :
    w.Aside (.job ⟨id, .manage t⟩) calm (t.turn w id) := by
  unfold turn
  split
  · exact enter_aside hc
  · exact awaitPlan_aside (fun h => (hc h).1) _ _
  · split
    · exact decideSlot_aside fun h => (hc h).1
    · exact .refl w
  · exact awaitCrawlers_aside w _
  · split
    · exact awaitIdle_aside w _ _ _
    · exact .refl w

end ManagerTask

end CatalogCrawl

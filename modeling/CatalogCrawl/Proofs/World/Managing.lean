import CatalogCrawl.Proofs.World.Moving

namespace CatalogCrawl

namespace World

variable {w : World} {own : Option TaskId} {hand : Burden} {served : Served} {id : TaskId}

section Pools

theorem mem_modify {α : Type} {l : List α} {i : Nat} {f : α → α} {a : α} (h : a ∈ l.modify i f) :
    a ∈ l ∨ ∃ b ∈ l, a = f b := by
  induction l generalizing i with
  | nil => simp at h
  | cons b rest ih =>
    cases i with
    | zero =>
      rw [List.modify_zero_cons] at h
      rcases List.mem_cons.1 h with rfl | h
      · exact .inr ⟨b, List.mem_cons_self, rfl⟩
      · exact .inl (List.mem_cons_of_mem b h)
    | succ i =>
      rw [List.modify_succ_cons] at h
      rcases List.mem_cons.1 h with rfl | h
      · exact .inl List.mem_cons_self
      · rcases ih h with h | ⟨c, hc, he⟩
        · exact .inl (List.mem_cons_of_mem b h)
        · exact .inr ⟨c, List.mem_cons_of_mem b hc, he⟩

theorem mem_handles_changePool {pool : Nat} {f : Pool → Pool} {task : TaskId}
    (h : task ∈ (w.changePool pool f).handles) :
    task ∈ w.handles ∨ ∃ p ∈ w.pools, task ∈ (f p).crawlers := by
  rw [mem_handles] at h
  rcases h with ⟨p, hp, ht⟩ | ⟨s, hs⟩
  · rcases mem_modify hp with hp | ⟨q, hq, rfl⟩
    · exact .inl (mem_handles.2 (.inl ⟨p, hp, ht⟩))
    · exact .inr ⟨q, hq, ht⟩
  · exact .inl (mem_handles.2 (.inr ⟨s, hs⟩))

theorem Poised.changePool (h : w.Poised own hand served) (pool : Nat) {f : Pool → Pool}
    (hf : ∀ p, (f p).crawlers ⊆ p.crawlers) : Moved own hand served w (w.changePool pool f) := by
  refine h.leave rfl rfl rfl rfl (fun task hm => ?_) rfl rfl rfl
  rcases mem_handles_changePool hm with hm | ⟨p, hp, ht⟩
  · exact hm
  · exact mem_handles.2 (.inl ⟨p, hp, hf p ht⟩)

theorem Poised.addPool (h : w.Poised own hand served) : Moved own hand served w w.addPool.2 := by
  refine h.leave rfl rfl rfl rfl (fun task hm => ?_) rfl rfl rfl
  simpa [mem_handles, World.addPool, addSignal, addActivity] using hm

theorem Poised.warn (h : w.Poised own hand served) (message : String) :
    Moved own hand served w (w.warn message) :=
  h.pass rfl rfl rfl rfl rfl rfl rfl rfl rfl

theorem Poised.report (h : w.Poised own hand served) (e : Entry) :
    Moved own hand served w (w.report e) :=
  h.pass rfl rfl rfl rfl rfl rfl rfl rfl rfl

theorem knows_spawned {t : Task} (h : w.Sound own hand served) (hb : t.burden w.nextId = 0) :
    (w.spawn t).2.Knows ((w.spawn t).2.burden own hand) w.nextId := by
  refine ⟨Nat.lt_succ_self _, fun hc => ?_⟩
  rw [burden_spawn h hb] at hc
  exact Nat.lt_irrefl _ (h.calls _ hc)

theorem Poised.enlist (h : w.Poised own hand served) (p : Pool) (c : Crawler) (pool : Nat) :
    Moved own hand served w ((w.spawn (crawlTask p c)).2.changePool pool fun p =>
      { p with crawlers := p.crawlers ++ [w.nextId] }) := by
  have hs := h.spawn (t := crawlTask p c) rfl fun b => ⟨⟨p.activity, rfl⟩, h.results⟩
  have hk := knows_spawned (t := crawlTask p c) h.toSound rfl
  have hp := hs.poised
  refine ⟨hs.toStill.trans (.of_eq rfl rfl), ⟨⟨hp.distinct, hp.issued, hp.owned, hp.books,
    hp.calls, ?_, hp.fit, hp.results⟩, hp.rests⟩, hs.knows, hs.accord⟩
  intro task hm
  rcases mem_handles_changePool hm with hm | ⟨q, hq, ht⟩
  · exact hp.known task hm
  · rcases List.mem_append.1 ht with ht | ht
    · exact hp.known task (mem_handles.2 (.inl ⟨q, hq, ht⟩))
    · rw [List.mem_singleton.1 ht]
      exact hk

theorem Poised.fillPool (h : w.Poised own hand served) (pool : Nat) (crew : List Crawler) :
    Moved own hand served w (w.fillPool pool crew) := by
  induction crew generalizing w with
  | nil => exact .refl h
  | cons c rest ih =>
    simp only [World.fillPool, List.foldl_cons]
    cases hp : w.pools[pool]? with
    | none => exact ih h
    | some p =>
      have hm := h.enlist p c pool
      exact hm.trans (ih hm.poised)

theorem Poised.putUp (h : w.Poised own hand served) (crew : List Crawler) :
    Moved own hand served w
      (((w.addPool.2.fillPool w.addPool.1 crew).changePool w.addPool.1 fun p =>
        { p with state := .running }).changeManager fun m =>
          { m with built := m.built + crew.length, pool := some w.addPool.1 }) := by
  have ha := h.addPool
  have hf := ha.trans (ha.poised.fillPool w.addPool.1 crew)
  have hc := hf.trans (hf.poised.changePool w.addPool.1
    (f := fun p => { p with state := .running }) fun p => List.Subset.refl _)
  exact hc.trans (hc.poised.pass rfl rfl rfl rfl rfl rfl rfl rfl rfl)

theorem Poised.spawnPool (h : w.Poised own hand served) :
    Moved own hand served w w.spawnPool := by
  by_cases hu : w.manager.crawler.requeue.isUnbounded = true
  · have hw := h.warn unboundedMessage
    have hp := hw.trans (hw.poised.putUp (makeCrawlers w.manager))
    unfold World.spawnPool
    simp only [if_pos hu]
    exact hp
  · have hp := h.putUp (makeCrawlers w.manager)
    unfold World.spawnPool
    simp only [if_neg hu]
    exact hp

theorem mem_handles_of_pool {pool : Nat} {p : Pool} (hp : w.pools[pool]? = some p) :
    p.crawlers ⊆ w.handles := by
  intro task ht
  exact mem_handles.2 (.inl ⟨p, List.mem_of_getElem? hp, ht⟩)

theorem Poised.beginShutdown (h : w.Poised own hand served) (pool : Nat) (timeout : Span) :
    Moved own hand served w (w.beginShutdown pool timeout).1 ∧
      ∀ j ∈ (w.beginShutdown pool timeout).2, j.left ⊆ w.handles := by
  unfold World.beginShutdown
  cases hp : w.pools[pool]? with
  | none => exact ⟨.refl h, fun j hj => by cases hj⟩
  | some p =>
    simp only
    split
    · exact ⟨.refl h, fun j hj => by cases hj⟩
    · refine ⟨?_, ?_⟩
      · have hw : Moved own hand served w (if p.state = .running then w
            else w.warn ("Shutting down crawler pool in state: " ++ p.state.name)) := by
          split
          · exact .refl h
          · exact h.warn _
        have hc := hw.trans (hw.poised.changePool pool
          (f := fun p => { p with state := .shuttingDown }) fun p => List.Subset.refl _)
        exact hc.trans (hc.poised.pass rfl rfl rfl rfl rfl rfl rfl rfl rfl)
      · intro j hj
        cases hj
        exact mem_handles_of_pool hp

theorem Poised.join (h : w.Poised own hand served) (deadline aborted : Nat) {left : List TaskId}
    (hl : ∀ task ∈ left, w.Knows (w.burden own hand) task) :
    Moved own hand served w (w.join deadline aborted left).1 ∧
      (w.join deadline aborted left).2.1 ⊆ left := by
  induction left generalizing w aborted with
  | nil => exact ⟨.refl h, List.Subset.refl _⟩
  | cons id rest ih =>
    have hr : ∀ task ∈ rest, w.Knows (w.burden own hand) task := fun task hm =>
      hl task (List.mem_cons_of_mem id hm)
    simp only [World.join]
    split
    · obtain ⟨hm, hs⟩ := ih h aborted hr
      exact ⟨hm, List.subset_cons_of_subset id hs⟩
    · split
      · have ha := h.abort (hl id List.mem_cons_self)
        obtain ⟨hm, hs⟩ := ih ha.poised (aborted + 1) fun task hm => ha.knows task (hr task hm)
        exact ⟨ha.trans hm, List.subset_cons_of_subset id hs⟩
      · exact ⟨.refl h, List.Subset.refl _⟩

theorem Poised.endShutdown (h : w.Poised own hand served) (j : Join) :
    Moved own hand served w (w.endShutdown j).1 := by
  have hw : Moved own hand served w (if w.crashedCrawlers j.pool = 0 then w
      else w.warn (toString (w.crashedCrawlers j.pool) ++ " crawlers panicked before shutdown")) := by
    split
    · exact .refl h
    · exact h.warn _
  have hc := hw.trans (hw.poised.changePool j.pool
    (f := fun p => { p with state := .shutDown, crawlers := [] }) fun p => List.nil_subset _)
  unfold World.endShutdown
  simp only
  split
  · exact hc
  · exact hc.trans (hc.poised.warn _)

theorem Poised.foldl_abort (h : w.Poised own hand served) {tasks : List TaskId}
    (hl : ∀ task ∈ tasks, w.Knows (w.burden own hand) task) :
    Moved own hand served w (tasks.foldl World.abort w) := by
  induction tasks generalizing w with
  | nil => exact .refl h
  | cons id rest ih =>
    have ha := h.abort (hl id List.mem_cons_self)
    exact ha.trans (ih ha.poised fun task hm =>
      ha.knows task (hl task (List.mem_cons_of_mem id hm)))

theorem Poised.dropPool (h : w.Poised own hand served) (pool : Nat) :
    Moved own hand served w (w.dropPool pool) := by
  unfold World.dropPool
  cases hp : w.pools[pool]? with
  | none => exact .refl h
  | some p =>
    have hf := h.foldl_abort fun task hm => h.known task (mem_handles_of_pool hp hm)
    exact hf.trans (hf.poised.pass rfl rfl rfl rfl rfl rfl rfl
      (by simp only [loseSignal]) rfl)

end Pools

section Schedules

theorem Poised.addSignal (h : w.Poised own hand served) (raised : Bool) :
    Moved own hand served w (w.addSignal raised).2 :=
  h.pass rfl rfl rfl rfl rfl rfl rfl rfl rfl

theorem Poised.tell (h : w.Poised own hand served) (s : Schedule)
    (hk : w.Knows (w.burden own hand) s.task) :
    Moved own hand served w (w.changeManager fun m => { m with schedule := some s }) := by
  refine ⟨.of_eq rfl rfl, ⟨⟨h.distinct, h.issued, h.owned, h.books, h.calls, ?_, h.fit,
    h.results⟩, h.rests⟩, fun task hk => hk, rfl⟩
  intro task hm
  rcases mem_handles.1 hm with hp | ⟨k, hs, rfl⟩
  · exact h.known task (mem_handles.2 (.inl hp))
  · cases hs
    exact hk

theorem Poised.follow (h : w.Poised own hand served) (p : Plan) :
    Moved own hand served w (w.follow p) := by
  have ha := h.addSignal false
  let t : Task :=
    .plan ⟨.start p.period.nanos (w.now + p.delay.nanos), w.signals.length, .refill, .looking⟩
  have hs := ha.poised.spawn (t := t) rfl fun b => trivial
  have hk := knows_spawned (t := t) ha.poised.toSound rfl
  have hm := ha.trans hs
  unfold World.follow
  cases hw : w.manager.schedule with
  | none =>
    have hf := hm.trans (hm.poised.tell ⟨p, w.nextId, w.signals.length⟩ hk)
    simpa only [World.addSignal, World.spawn, hw] using hf
  | some earlier =>
    have hr := hs.poised.pass (v := (((w.addSignal false).2.spawn t).2).setSignal earlier.signal true)
      rfl rfl rfl rfl rfl rfl rfl rfl rfl
    have hf := (hm.trans hr).trans
      (hr.poised.tell ⟨p, w.nextId, w.signals.length⟩ (hr.knows _ hk))
    simpa only [World.addSignal, World.spawn, hw] using hf

end Schedules

end World

namespace ManagerTask

open World

variable {w : World} {served : Served} {id : TaskId} {t : ManagerTask}

theorem stay_ended (h : w.Poised (some id) 0 served) {stage : ManagerStage}
    (hk : ∀ task ∈ stage.handles, w.Knows (w.burden (some id) 0) task) :
    Ended [] served w (t.stay w id stage) :=
  h.keepLast rfl hk

theorem reportLate_moved (h : w.Poised (some id) 0 served) (message : String)
    (r : Except CrawlFault Unit) : Moved (some id) 0 served w (reportLate w message r) := by
  cases r with
  | ok u => exact .refl h
  | error fault => exact h.report _

theorem leaveSlot_moved (h : w.Poised (some id) 0 served) (who : Nat) :
    Moved (some id) 0 served w (w.leaveSlot who) :=
  h.pass rfl rfl rfl rfl rfl rfl rfl rfl rfl

theorem setPool_moved (h : w.Poised (some id) 0 served) (pool : Option Nat) :
    Moved (some id) 0 served w (w.setPool pool) :=
  h.pass rfl rfl rfl rfl rfl rfl rfl rfl rfl

theorem start_ended (h : w.Poised (some id) 0 served) :
    Ended [] served w (done (w.spawnPool.leaveSlot id) id) := by
  have hs := h.spawnPool
  have hl := hs.trans (leaveSlot_moved hs.poised id)
  exact hl.ended (hl.poised.finish _ rfl)

theorem afterShutdown_ended (h : w.Poised (some id) 0 served) (pool : Nat)
    (r : Except CrawlFault Unit) : Ended [] served w (t.afterShutdown w id pool r) := by
  unfold afterShutdown
  split
  · have hr := reportLate_moved h "Not all crawlers stopped in time" r
    have hd := hr.trans (hr.poised.dropPool pool)
    exact hd.ended (hd.poised.finish _ rfl)
  · have hr := reportLate_moved h "Crawlers did not stop in time during restart" r
    have hd := hr.trans (hr.poised.dropPool pool)
    exact hd.ended (start_ended hd.poised)
  · exact h.finish _ rfl

theorem awaitCrawlers_ended (h : w.Poised (some id) 0 served) (j : Join)
    (hl : ∀ task ∈ j.left, w.Knows (w.burden (some id) 0) task) :
    Ended [] served w (t.awaitCrawlers w id j) := by
  obtain ⟨hm, hs⟩ := h.join j.deadline j.aborted hl
  unfold awaitCrawlers
  rcases hj : w.join j.deadline j.aborted j.left with ⟨v, left, aborted⟩
  rw [hj] at hm hs
  cases left with
  | nil =>
    have he := hm.trans (hm.poised.endShutdown { j with left := [], aborted := aborted })
    exact he.ended (afterShutdown_ended he.poised _ _)
  | cons task rest =>
    exact hm.ended (stay_ended hm.poised fun k hk => hm.knows k (hl k (hs hk)))

theorem crash_ended (h : w.Poised (some id) 0 served) (pool : Nat) (crash : Crash) :
    Ended [] served w (t.crash w id pool crash) := by
  unfold ManagerTask.crash
  split
  · exact h.finish _ rfl
  · have hd := h.dropPool pool
    have hl := hd.trans (leaveSlot_moved hd.poised id)
    exact hl.ended (hl.poised.finish _ rfl)

theorem shutDown_ended (h : w.Poised (some id) 0 served) (pool : Nat) (timeout : Span) :
    Ended [] served w (t.shutDown w id pool timeout) := by
  obtain ⟨hm, hj⟩ := h.beginShutdown pool timeout
  unfold shutDown
  rcases hb : w.beginShutdown pool timeout with ⟨v, _ | j⟩
  · rw [hb] at hm
    exact hm.ended (afterShutdown_ended hm.poised _ _)
  · rw [hb] at hm hj
    simp only
    split
    · refine hm.ended (awaitCrawlers_ended hm.poised j fun task hk => hm.knows task ?_)
      exact h.known task (hj j rfl hk)
    · exact hm.ended (crash_ended hm.poised _ _)

def Turned (t : ManagerTask) (id : TaskId) (opening : List PlanStep) (served : Served)
    (w w' : World) : Prop :=
  ∃ steps, (Task.manage t).Closes id steps ∧ Ended (opening ++ steps) served w w'

variable {v : World} {opening : List PlanStep}

theorem turned_of_ended (h : Ended [] served w v) : t.Turned id [] served w v :=
  ⟨[], .inl rfl, h⟩

theorem turned_of_collated {p : Plan} (hc : t.call = .update p)
    (h : Ended [.collate id p] served w v) : t.Turned id [] served w v := by
  refine ⟨[.collate id p], .inr ⟨p, ?_, rfl⟩, h⟩
  rcases t with ⟨call, stage⟩
  cases hc
  rfl

theorem Turned.after (h : t.Turned id opening served v w) {u : World}
    (hm : Moved (some id) 0 served u v) : t.Turned id opening served u w := by
  obtain ⟨steps, hs, he⟩ := h
  exact ⟨steps, hs, hm.ended he⟩

theorem agree_ended (h : w.Poised (some id) 0 served) (p : Plan) :
    Ended [.collate id p] served w ((w.agree p).2.finish id (.plan (w.agree p).1)) := by
  have hs : (w.agree p).2.Sound (some id) 0 served := h.toSound.pass rfl rfl rfl rfl rfl rfl rfl rfl
  exact ⟨.of_eq rfl rfl, hs.finish _, rfl⟩

theorem collate_ended (h : w.Poised (some id) 0 served) (p : Plan) (idle : Bool) :
    Ended [.collate id p] served w (collate w id p idle) := by
  cases idle with
  | true => exact agree_ended h p
  | false =>
    have hr := h.report (.severe "Warning: not all crawlers finished in time!")
    exact hr.ended (agree_ended hr.poised p)

theorem awaitIdle_turned (h : w.Poised (some id) 0 served) {p : Plan} (hc : t.call = .update p)
    (activity deadline : Nat) :
    t.Turned id [] served w (t.awaitIdle w id p activity deadline) := by
  unfold awaitIdle
  split
  · exact turned_of_collated hc (collate_ended h p true)
  · split
    · exact turned_of_collated hc (collate_ended h p false)
    · exact turned_of_ended (stay_ended h fun task hm => (by cases hm))

theorem decideSlot_turned (h : w.Poised (some id) 0 served) :
    t.Turned id [] served w (t.decideSlot w id) := by
  have hl := leaveSlot_moved h id
  unfold decideSlot
  split
  · refine turned_of_ended ?_
    split
    · exact hl.ended (hl.poised.finish _ rfl)
    · exact start_ended h
  · refine turned_of_ended ?_
    split
    · have hp := setPool_moved h none
      exact hp.ended (shutDown_ended hp.poised _ _)
    · exact start_ended h
  · have hp := setPool_moved h none
    have hs := hp.trans (leaveSlot_moved hp.poised id)
    refine turned_of_ended ?_
    simp only
    split
    · exact hs.ended (hs.poised.finish _ rfl)
    · exact hs.ended (shutDown_ended hs.poised _ _)
  · rename_i p hc
    simp only
    split
    · exact turned_of_collated hc (hl.ended (collate_ended hl.poised p true))
    · exact (awaitIdle_turned hl.poised hc _ _).after hl
  · exact turned_of_ended h.removeJob

theorem askSlot_turned (h : w.Poised (some id) 0 served) :
    t.Turned id [] served w (t.askSlot w id) := by
  have he : Moved (some id) 0 served w (w.enterSlot id) :=
    h.pass rfl rfl rfl rfl rfl rfl rfl rfl rfl
  unfold askSlot
  simp only
  split
  · exact (decideSlot_turned he.poised).after he
  · exact turned_of_ended (he.ended (stay_ended he.poised fun task hm => (by cases hm)))

theorem awaitPlan_turned (h : w.Poised (some id) 0 served) {plan : TaskId}
    (hk : w.Knows (w.burden (some id) 0) plan) (deadline : Nat) :
    t.Turned id [] served w (t.awaitPlan w id plan deadline) := by
  unfold awaitPlan
  split
  · exact askSlot_turned h
  · split
    · have ha := h.abort hk
      have hw := ha.trans (ha.poised.warn "Refill schedule did not stop in time, aborted")
      exact (askSlot_turned hw.poised).after hw
    · refine turned_of_ended (stay_ended h fun task hm => ?_)
      rw [List.mem_singleton.1 hm]
      exact hk

theorem submit_turned (h : w.Poised (some id) 0 served) (p : Plan) :
    t.Turned id [.submit id p] served w (t.askSlot (w.submit p) id) := by
  have hs : (w.submit p).Poised (some id) 0 served :=
    ⟨h.toSound.pass rfl rfl rfl rfl rfl rfl rfl rfl, h.rests⟩
  obtain ⟨steps, hc, he⟩ := askSlot_turned (t := t) hs
  refine ⟨steps, hc, ?_, he.sound, ?_⟩
  · exact (Still.of_eq rfl rfl : w.Still (w.submit p)).trans he.toStill
  · exact he.accord

theorem enter_turned (h : w.Poised (some id) 0 served) (hs : t.stage = .entering) :
    t.Turned id ((Task.manage t).opening id) served w (t.enter w id) := by
  rcases t with ⟨call, stage⟩
  cases hs
  cases call with
  | start => exact askSlot_turned h
  | restart => exact askSlot_turned h
  | update p => exact submit_turned h p
  | stop =>
    simp only [enter]
    split
    · exact askSlot_turned h
    · rename_i s hs
      have hm : Moved (some id) 0 served w
          ((w.changeManager fun m => { m with schedule := none }).setSignal s.signal true) := by
        refine h.leave rfl rfl rfl rfl (fun task hm => ?_) rfl rfl rfl
        rcases mem_handles.1 hm with hp | ⟨k, hk, -⟩
        · exact mem_handles.2 (.inl hp)
        · cases hk
      refine (awaitPlan_turned hm.poised (hm.knows _ (h.known _ ?_)) _).after hm
      exact mem_handles.2 (.inr ⟨s, hs, rfl⟩)
  | shutdownPool pool timeout => exact turned_of_ended (shutDown_ended h _ _)

theorem turn_turned (h : w.Poised (some id) 0 served) (hw : w.Sound none 0 served)
    (hk : ∀ task ∈ t.stage.handles, w.Knows (w.burden (some id) 0) task) :
    t.Turned id ((Task.manage t).opening id) served w (t.turn w id) := by
  by_cases hs : t.stage = .entering
  · unfold turn
    rw [hs]
    exact enter_turned h hs
  · have ho : (Task.manage t).opening id = [] := by
      unfold Task.opening
      split
      · rename_i he
        cases he
        exact absurd rfl hs
      · rfl
    rw [ho]
    unfold turn
    split
    · contradiction
    · rename_i plan deadline hs
      rw [hs] at hk
      exact awaitPlan_turned h (hk plan (List.mem_singleton.2 rfl)) deadline
    · split
      · exact decideSlot_turned h
      · exact turned_of_ended ⟨.refl w, hw, rfl⟩
    · rename_i j hs
      rw [hs] at hk
      exact turned_of_ended (awaitCrawlers_ended h j hk)
    · split
      · rename_i p hc
        exact awaitIdle_turned h hc _ _
      · exact turned_of_ended ⟨.refl w, hw, rfl⟩

end ManagerTask

end CatalogCrawl

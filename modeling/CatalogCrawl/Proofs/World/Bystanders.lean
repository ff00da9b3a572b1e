import CatalogCrawl.Proofs.World.Hands

namespace CatalogCrawl

variable {w v u : World} {id : TaskId} {e : Event} {served : Served} {supply : List WorkItem}

open World

namespace World

def isCalling (w : World) : Event → Bool
  | .step (.turn id _) => (w.job? id).any fun j => j.task.isCall
  | _ => false

theorem of_isCalling (h : w.isCalling e = true) : ∃ id signalFirst t,
    e = .step (.turn id signalFirst) ∧ w.job? id = some ⟨id, .call t⟩ := by
  cases e with
  | step s =>
    cases s with
    | turn id signalFirst =>
      cases hj : w.job? id with
      | none => simp [isCalling, hj] at h
      | some j =>
        obtain ⟨-, rfl⟩ := mem_of_job? hj
        rcases j with ⟨id, task⟩
        cases task with
        | call t => exact ⟨id, signalFirst, t, rfl, hj⟩
        | _ => simp [isCalling, hj, Task.isCall] at h
    | pass nanos => cases h
  | _ => cases h

def stand (w : World) : Registry × CrawlStats × List WorkItem × List WorkItem × List Entry :=
  (w.registry, w.stats, w.manager.workload, w.queue.items, w.journal.entries)

structure Supplied (supply : List WorkItem) (w v : World) : Prop where
  registry : w.registry.toList <+: v.registry.toList
  stats : v.stats = w.stats
  workload : v.manager.workload = w.manager.workload
  items : ∀ item ∈ v.queue.items, item ∈ w.queue.items ∨ item ∈ supply

namespace Supplied

theorem of_eq (hr : v.registry = w.registry) (hs : v.stats = w.stats)
    (hm : v.manager.workload = w.manager.workload) (hq : v.queue.items = w.queue.items) :
    Supplied supply w v :=
  ⟨hr ▸ List.prefix_rfl, hs, hm, fun _ hi => .inl (hq ▸ hi)⟩

theorem of_stand (h : v.stand = w.stand) : Supplied supply w v := by
  simp only [stand, Prod.mk.injEq] at h
  obtain ⟨hr, hs, hm, hq, -⟩ := h
  exact .of_eq hr hs hm hq

theorem refl (w : World) : Supplied supply w w := .of_stand rfl

theorem trans (h : Supplied supply w v) (k : Supplied supply v u) : Supplied supply w u := by
  refine ⟨h.registry.trans k.registry, k.stats.trans h.stats, k.workload.trans h.workload,
    fun item hi => ?_⟩
  rcases k.items item hi with hi | hi
  · exact h.items item hi
  · exact .inr hi

theorem admits {q : WorkQueue} {new : List WorkItem} (h : w.queue.Admits q new)
    (hn : new ⊆ supply) : Supplied supply w { w with queue := q } := by
  refine ⟨List.prefix_rfl, rfl, rfl, fun item hi => ?_⟩
  rw [h.items, List.mem_append] at hi
  exact hi.imp_right fun hi => hn hi

theorem addAll (w : World) (items : List WorkItem) :
    Supplied items w { w with queue := (w.queue.addAll items).2 } :=
  admits (w.queue.addAll_admits items) (List.take_subset _ _)

theorem give {q : WorkQueue} {item : WorkItem} (h : w.queue.Gives q item) :
    Supplied supply w { w with queue := q } :=
  ⟨List.prefix_rfl, rfl, rfl, fun _ hi => .inl (h.items ▸ List.mem_cons_of_mem item hi)⟩

end Supplied

end World

section Turns

theorem PlanTask.act_supplied (w : World) (t : PlanTask) :
    Supplied w.manager.workload w (t.act w id) := by
  unfold act
  simp only
  split
  · split
    · exact (Supplied.addAll w w.manager.workload).trans (.of_eq rfl rfl rfl rfl)
    · exact .of_eq rfl rfl rfl rfl
  · split <;> exact .of_stand rfl

theorem PlanTask.turn_supplied (w : World) (t : PlanTask) (signalFirst : Bool) :
    Supplied w.manager.workload w (t.turn w id signalFirst) := by
  unfold turn
  split
  · unfold look
    simp only
    split
    · exact .of_stand rfl
    split
    · exact act_supplied w t
    · exact .of_stand rfl
  · simp only
    split
    · split <;> exact .of_stand rfl
    split
    · exact act_supplied w t
    · exact .refl w
  · split
    · exact (Supplied.addAll w w.manager.workload).trans (.of_eq rfl rfl rfl rfl)
    · exact .refl w
  · split <;> exact .of_stand rfl

theorem LoadTask.stand_turn (w : World) (t : LoadTask) : (t.turn w id).stand = w.stand := by
  have saved (o : Offer) : (w.saveOffer o).stand = w.stand := by
    unfold saveOffer World.look
    cases w.clock <;> rfl
  unfold turn receive goOn
  split
  · split
    · split <;> rfl
    · split <;> rfl
  · split <;> rfl
  · rename_i o left _
    split <;> exact saved o

theorem EvictionTask.stand_turn (w : World) (t : EvictionTask) (signalFirst : Bool) :
    (t.turn w id signalFirst).stand = w.stand := by
  have expired : (w.expireOffers t.ttl).stand = w.stand := by
    unfold expireOffers World.look
    cases w.clock <;> rfl
  unfold turn
  split
  · split <;> rfl
  · simp only
    split
    · rfl
    split
    · exact expired
    · rfl

theorem WindDown.stand_awaitNext (w : World) (timeout : Span) (left : List TaskId) :
    (awaitNext w id timeout left).stand = w.stand := by
  have skipped : (skip w timeout left).1.stand = w.stand := by
    induction left generalizing w with
    | nil => rfl
    | cons task rest ih =>
      unfold skip
      split
      · exact ih w
      split
      · exact ih (w.warn (lateMessage timeout))
      · rfl
  unfold awaitNext
  rcases hv : skip w timeout left with ⟨v, _ | ⟨task, rest⟩⟩
  · rw [hv] at skipped
    exact skipped
  · rw [hv] at skipped
    exact skipped

theorem WindDown.stand_turn (w : World) (t : WindDown) : (t.turn w id).stand = w.stand := by
  have drained (timeout : Span) (deadline : Nat) :
      (drain w id timeout deadline).stand = w.stand := by
    unfold drain notDrained signalAll
    split
    · exact stand_awaitNext _ _ _
    split
    · exact stand_awaitNext _ _ _
    split
    · exact stand_awaitNext _ _ _
    · rfl
  unfold turn
  split
  · exact drained _ _
  · exact drained _ _
  · split
    · rfl
    split
    · exact stand_awaitNext _ _ _
    split
    · exact stand_awaitNext _ _ _
    · rfl

namespace World

theorem stand_sendTurn (w : World) (results : Nat) (r : Response) (due : Nat) :
    (w.sendTurn id results r due).stand = w.stand := by
  unfold sendTurn
  split
  · split
    · rfl
    · split <;> rfl
  · rfl

theorem stand_idleTurn (w : World) (activity deadline : Nat) :
    (w.idleTurn id activity deadline).stand = w.stand := by
  unfold idleTurn
  split
  · rfl
  · split <;> rfl

theorem stand_lockTurn (w : World) (deadline : Nat) (entered : Bool) :
    (w.lockTurn id deadline entered).stand = w.stand := by
  unfold lockTurn
  cases entered <;> simp only [if_true, Bool.false_eq_true, if_false]
  all_goals
    split
    · rfl
    · split <;> rfl

theorem refillTurn_supplied (w : World) (items : List WorkItem) (entered : Bool) :
    Supplied items w (w.refillTurn id items entered) := by
  unfold refillTurn
  cases entered <;> simp only [if_true, Bool.false_eq_true, if_false]
  · split
    · exact (Supplied.addAll w items).trans (.of_stand rfl)
    · exact .of_stand rfl
  · split
    · exact (Supplied.addAll w items).trans (.of_stand rfl)
    · exact .refl w

theorem pollTurn_supplied (w : World) (ticket : Option Nat) (deadline : Nat) :
    Supplied supply w (w.pollTurn id ticket deadline) := by
  have drawn {item? : Option WorkItem} {q : WorkQueue}
      (h : (∃ item, item? = some item ∧ w.queue.Gives q item) ∨
        (item? = none ∧ w.queue.Admits q [])) : Supplied supply w { w with queue := q } := by
    rcases h with ⟨item, -, hg⟩ | ⟨-, ha⟩
    · exact .give hg
    · exact .admits ha (List.nil_subset supply)
  have follow {a : WorkQueue.Attempt × WorkQueue} (h : Supplied supply w { w with queue := a.2 }) :
      Supplied supply w (w.followPoll id deadline a) := by
    rcases a with ⟨_ | _ | _, q⟩ <;> exact h.trans (.of_stand rfl)
  cases ticket with
  | none => exact follow (drawn w.queue.attempt_effect)
  | some ticket =>
    rw [pollTurn_some]
    split
    · exact follow (drawn (w.queue.woken_effect ticket))
    split
    · exact (drawn (w.queue.expire_effect ticket)).trans (.of_stand rfl)
    · exact .refl w

theorem Deed.supplied {n : Nat} (h : w.Deed id n v) : Supplied supply w v := by
  cases h with
  | chore hc =>
    cases hc with
    | abort task =>
      obtain ⟨jobs, q, l, ha, hq⟩ := w.abort_eq task
      rw [ha]
      rcases hq with rfl | ⟨ticket, rfl⟩ <;> exact .of_stand rfl
    | _ => exact .of_eq rfl rfl rfl rfl
  | opens =>
    obtain ⟨journal, hs⟩ := w.spawnPool_eq
    rw [hs]
    exact .of_eq rfl rfl rfl rfl
  | _ => exact .of_stand rfl

theorem Deeds.supplied {n : Nat} (h : Deeds id n w v) : Supplied supply w v := by
  induction h with
  | refl w => exact .refl w
  | head hd _ ih => exact hd.supplied.trans ih

end World

theorem ManagerTask.Ends.supplied {t : ManagerTask} {n : Nat} (h : t.Ends id w n v) :
    Supplied supply w v := by
  cases h <;> exact .of_stand rfl

end Turns

def Task.brings (w : World) : Task → List WorkItem
  | .plan _ => w.manager.workload
  | .refill items _ => items
  | _ => []

namespace World

def supplies (w : World) : Event → List WorkItem
  | .step (.turn id _) => (w.job? id).elim [] fun j => j.task.brings w
  | .offer item => [item]
  | .addAll items => items
  | _ => []

theorem turn_supplied (h : w.Settled) {j : Job} (hj : w.job? id = some j)
    (hc : j.task.isCrawl = false) (hk : j.task.isCall = false) (signalFirst : Bool) :
    Supplied (j.task.brings w) w (j.task.turn w id signalFirst) := by
  obtain ⟨hm, rfl⟩ := mem_of_job? hj
  rcases j with ⟨id, task⟩
  cases task with
  | crawl t => cases hc
  | call t => cases hk
  | plan t => exact t.turn_supplied w signalFirst
  | load t => exact .of_stand (t.stand_turn w)
  | evict t => exact .of_stand (t.stand_turn w signalFirst)
  | manage t =>
    rcases t.turn_does h.toWired (h.proper id t hm nofun) with he | ⟨n, v, hd, he⟩
    · rw [Task.turn, he]
      exact .refl w
    · exact hd.supplied.trans he.supplied
  | windDown t => exact .of_stand (t.stand_turn w)
  | send results r due => exact .of_stand (stand_sendTurn w results r due)
  | poll ticket deadline => exact pollTurn_supplied w ticket deadline
  | refill items entered => exact refillTurn_supplied w items entered
  | lock deadline entered => exact .of_stand (stand_lockTurn w deadline entered)
  | awaitIdle activity deadline => exact .of_stand (stand_idleTurn w activity deadline)

theorem react_supplied (h : w.Settled) (hc : w.isCrawling e = false)
    (hk : w.isCalling e = false) : Supplied (w.supplies e) w (w.react e) := by
  cases e with
  | step s =>
    cases s with
    | turn id signalFirst =>
      simp only [react, step, supplies]
      cases hj : w.job? id with
      | none => exact .refl w
      | some j =>
        simp only [Option.elim_some]
        split
        · exact turn_supplied h hj (by simpa [isCrawling, hj] using hc)
            (by simpa [isCalling, hj] using hk) signalFirst
        · exact .refl w
    | pass nanos => exact .of_stand rfl
  | launch t =>
    simp only [react]
    split <;> exact .of_stand rfl
  | cancel id =>
    have ha : Supplied (w.supplies (.cancel id)) w (w.abort id) :=
      (Deed.chore (.abort id) : w.Deed 0 0 _).supplied
    simp only [react]
    split
    · split
      · exact ha
      · exact .refl w
    · exact .refl w
  | offer item =>
    refine .admits (w.queue.offer_admits item) ?_
    split
    · exact List.Subset.refl [item]
    · exact List.nil_subset [item]
  | addAll items => exact .addAll w items
  | close => exact .admits w.queue.close_admits (List.nil_subset _)
  | schedule p =>
    obtain ⟨signals, hf, -⟩ := w.follow_cases p
    rw [react, hf]
    exact .of_stand rfl
  | dropManager =>
    obtain ⟨v, hv, -, hd⟩ := w.dropManager_cases
    rw [react, hd]
    exact (hv.deeds 0).supplied.trans (.of_eq rfl rfl (by rw [hv.manager]) rfl)
  | register a => exact ⟨⟨[a], by simp [react]⟩, rfl, rfl, fun _ hi => .inl hi⟩
  | _ => exact .of_stand rfl

end World

section Calls

def Task.call? : Task → Option CallTask
  | .call t => some t
  | _ => none

theorem Task.isSome_call? (t : Task) : t.call?.isSome = t.isCall := by
  cases t <;> rfl

def Job.call (j : Job) : Option (TaskId × CallTask) := j.task.call?.map (j.id, ·)

theorem Job.call_eq_some {j : Job} {x : TaskId × CallTask} :
    j.call = some x ↔ j = ⟨x.1, .call x.2⟩ := by
  rcases j with ⟨i, task⟩
  rcases x with ⟨k, t⟩
  cases task <;> simp [call, Task.call?]

namespace World

def calls (w : World) : List (TaskId × CallTask) := w.jobs.filterMap Job.call

theorem mem_calls {x : TaskId × CallTask} : x ∈ w.calls ↔ ⟨x.1, .call x.2⟩ ∈ w.jobs := by
  simp [calls, List.mem_filterMap, Job.call_eq_some]

theorem length_calls (w : World) : w.calls.length = w.inFlight := by
  rw [calls, inFlight, List.length_filterMap_eq_countP]
  refine List.countP_congr fun j _ => ?_
  rw [Job.call, Option.isSome_map, Task.isSome_call?]

theorem nodup_calls (h : w.Sound none 0 served) : w.calls.Nodup := by
  refine (nodup_gather h Prod.fst fun j x hx => ?_).of_map
  rw [Job.call_eq_some] at hx
  rw [hx]

theorem calls_subset (hc : w.isCrawling e = false) (hk : w.isCalling e = false) :
    w.calls ⊇ (w.react e).calls := by
  intro x hx
  rw [mem_calls] at hx ⊢
  rcases (tends_react w e).jobs _ hx with hm | ⟨k, hj, -, hg⟩ | ⟨t, -, ht⟩ | ⟨-, hs⟩
  · exact hm
  · obtain ⟨id, signalFirst, rfl, ha⟩ := of_actor_eq_job hj
    rcases k with ⟨i, task⟩
    cases task with
    | call t => simp [isCalling, (mem_of_acting? ha).1, Task.isCall] at hk
    | _ => exact hg.elim
  · cases ht
  · rcases ha : w.actor e with ⟨i, task⟩ | _ | started
    · rw [ha] at hs
      cases task with
      | crawl t =>
        obtain ⟨id, signalFirst, rfl, hj⟩ := of_actor_eq_job ha
        simp [isCrawling, (mem_of_acting? hj).1, Task.isCrawl] at hc
      | _ => exact hs.elim
    · rw [ha] at hs
      exact hs.elim
    · rw [ha] at hs
      obtain ⟨rfl, he⟩ := hs
      cases he

theorem calls_react (h : w.Settled) (hc : w.isCrawling e = false) (hk : w.isCalling e = false) :
    (w.react e).calls.Perm w.calls := by
  obtain ⟨n, hs⟩ := h.sound
  obtain ⟨m, hv⟩ := (h.react e).sound
  have hl : w.calls.length = (w.react e).calls.length := by
    have hd := hs.dispatched
    have hd' := hv.dispatched
    rw [(react_supplied h hc hk).stats] at hd'
    rw [length_calls, length_calls]
    omega
  exact (List.subperm_of_subset (nodup_calls hv) (calls_subset hc hk)).perm_of_length_le hl.le

end World

end Calls

section Monitor

namespace World

theorem journal_abort (w : World) (id : TaskId) : (w.abort id).journal = w.journal := by
  obtain ⟨jobs, q, l, ha, -⟩ := w.abort_eq id
  rw [ha]

theorem journal_dropPool (w : World) (pool : Nat) : (w.dropPool pool).journal = w.journal := by
  have aborted (tasks : List TaskId) (v : World) : (tasks.foldl abort v).journal = v.journal := by
    induction tasks generalizing v with
    | nil => rfl
    | cons id rest ih => exact (ih (v.abort id)).trans (journal_abort v id)
  unfold dropPool
  split
  · rfl
  · exact aborted _ w

theorem journal_dropManager (w : World) : w.dropManager.journal = w.journal := by
  unfold dropManager
  cases hp : w.manager.pool with
  | none =>
    cases hs : w.manager.schedule with
    | none => simp only [hp, hs]
    | some s => simp only [hp, hs, journal_abort]
  | some pool =>
    cases hs : w.manager.schedule with
    | none => simp only [hp, hs, journal_dropPool]
    | some s => simp only [hp, hs, journal_abort, journal_dropPool]

theorem journal_join (w : World) (deadline aborted : Nat) (left : List TaskId) :
    (w.join deadline aborted left).1.journal = w.journal := by
  induction left generalizing w aborted with
  | nil => rfl
  | cons id rest ih =>
    unfold join
    split
    · exact ih w aborted
    split
    · exact (ih (w.abort id) (aborted + 1)).trans (journal_abort w id)
    · rfl

theorem journal_pollTurn (w : World) (ticket : Option Nat) (deadline : Nat) :
    (w.pollTurn id ticket deadline).journal = w.journal := by
  have follow (r : WorkQueue.Attempt × WorkQueue) :
      (w.followPoll id deadline r).journal = w.journal := by
    rcases r with ⟨_ | _ | _, q⟩ <;> rfl
  cases ticket with
  | none => exact follow _
  | some ticket =>
    rw [pollTurn_some]
    split
    · exact follow _
    split <;> rfl

theorem journal_refillTurn (w : World) (items : List WorkItem) (entered : Bool) :
    (w.refillTurn id items entered).journal = w.journal := by
  unfold refillTurn
  cases entered <;> simp only [if_true, Bool.false_eq_true, if_false] <;> split <;> rfl

end World

namespace ManagerTask

variable {pool : Nat} {timeout : Span} {stage : ManagerStage}

theorem entries_awaitCrawlers (w : World) (j : Join) :
    (awaitCrawlers w id ⟨.shutdownPool pool timeout, stage⟩ j).journal.entries =
      w.journal.entries := by
  have joined := w.journal_join j.deadline j.aborted j.left
  unfold awaitCrawlers
  rcases hv : w.join j.deadline j.aborted j.left with ⟨v, _ | ⟨task, rest⟩, aborted⟩
  · rw [hv] at joined
    have ended (k : Join) : (v.endShutdown k).1.journal.entries = v.journal.entries := by
      unfold endShutdown
      simp only
      split <;> split <;> rfl
    exact (ended _).trans (congrArg Journal.entries joined)
  · rw [hv] at joined
    exact congrArg Journal.entries joined

theorem entries_shutDown (w : World) :
    (shutDown w id ⟨.shutdownPool pool timeout, stage⟩ pool timeout).journal.entries =
      w.journal.entries := by
  have begun : (w.beginShutdown pool timeout).1.journal.entries = w.journal.entries := by
    unfold beginShutdown
    split
    · rfl
    split
    · rfl
    · simp only
      split <;> rfl
  unfold shutDown
  rcases hv : w.beginShutdown pool timeout with ⟨v, _ | j⟩
  · rw [hv] at begun
    exact begun
  · rw [hv] at begun
    simp only
    split
    · exact (entries_awaitCrawlers v j).trans begun
    · exact begun

theorem entries_shutdownPool (w : World) :
    (turn w id ⟨.shutdownPool pool timeout, stage⟩).journal.entries = w.journal.entries := by
  have asked (v : World) :
      (askSlot v id ⟨.shutdownPool pool timeout, stage⟩).journal.entries = v.journal.entries := by
    unfold askSlot
    simp only
    split <;> rfl
  cases stage with
  | entering => exact entries_shutDown w
  | planEnding plan deadline =>
    simp only [turn, awaitPlan]
    split
    · exact asked w
    split
    · have aborted := congrArg Journal.entries (w.journal_abort plan)
      exact (asked ((w.abort plan).warn _)).trans aborted
    · rfl
  | slotWanted =>
    simp only [turn]
    split <;> rfl
  | crawlersEnding j => exact entries_awaitCrawlers w j
  | idleWanted activity deadline => rfl

end ManagerTask

def Task.mayReport : Task → Bool
  | .plan _ => true
  | .manage ⟨.shutdownPool _ _, _⟩ => false
  | .manage _ => true
  | _ => false

namespace World

def isReporting (w : World) : Event → Bool
  | .step (.turn id _) => (w.job? id).any fun j => j.task.mayReport
  | _ => false

theorem entries_turn {j : Job} (hc : j.task.isCrawl = false) (hk : j.task.isCall = false)
    (hr : j.task.mayReport = false) (w : World) (signalFirst : Bool) :
    (j.task.turn w id signalFirst).journal.entries = w.journal.entries := by
  rcases j with ⟨k, task⟩
  cases task with
  | crawl t => cases hc
  | call t => cases hk
  | plan t => cases hr
  | load t => exact congrArg (·.2.2.2.2) (t.stand_turn w)
  | evict t => exact congrArg (·.2.2.2.2) (t.stand_turn w signalFirst)
  | manage t =>
    rcases t with ⟨call, stage⟩
    cases call with
    | shutdownPool pool timeout => exact ManagerTask.entries_shutdownPool w
    | _ => cases hr
  | windDown t => exact congrArg (·.2.2.2.2) (t.stand_turn w)
  | send results r due => exact congrArg (·.2.2.2.2) (stand_sendTurn w results r due)
  | poll ticket deadline => exact congrArg Journal.entries (journal_pollTurn w ticket deadline)
  | refill items entered => exact congrArg Journal.entries (journal_refillTurn w items entered)
  | lock deadline entered => exact congrArg (·.2.2.2.2) (stand_lockTurn w deadline entered)
  | awaitIdle activity deadline => exact congrArg (·.2.2.2.2) (stand_idleTurn w activity deadline)

theorem entries_react (hc : w.isCrawling e = false) (hk : w.isCalling e = false)
    (hr : w.isReporting e = false) : (w.react e).journal.entries = w.journal.entries := by
  cases e with
  | step s =>
    cases s with
    | turn id signalFirst =>
      simp only [react, step]
      cases hj : w.job? id with
      | none => rfl
      | some j =>
        simp only
        split
        · exact entries_turn (by simpa [isCrawling, hj] using hc) (by simpa [isCalling, hj] using hk)
            (by simpa [isReporting, hj] using hr) w signalFirst
        · rfl
    | pass nanos => rfl
  | launch t =>
    simp only [react]
    split <;> rfl
  | cancel id =>
    simp only [react]
    split
    · split
      · exact congrArg Journal.entries (journal_abort w id)
      · rfl
    · rfl
  | schedule p =>
    obtain ⟨signals, hf, -⟩ := w.follow_cases p
    rw [react, hf]
  | dropManager => exact congrArg Journal.entries (journal_dropManager w)
  | _ => rfl

end World

end Monitor

end CatalogCrawl

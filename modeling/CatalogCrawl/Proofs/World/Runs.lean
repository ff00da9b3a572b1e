import CatalogCrawl.Proofs.World.Background
import CatalogCrawl.Proofs.World.Crawling
import CatalogCrawl.Proofs.World.Managing

namespace CatalogCrawl

def Event.isPoll : Event → Bool
  | .launch t => t.isPoll
  | _ => false

def Task.isCrawl : Task → Bool
  | .crawl _ => true
  | _ => false

def Task.isManage : Task → Bool
  | .manage _ => true
  | _ => false

theorem Task.opening_of_not_isReady {w : World} {id : TaskId} (t : Task)
    (h : ¬ t.isReady w id = true) : t.opening id = [] := by
  unfold opening
  split
  · exact absurd rfl h
  · rfl

namespace World

def isCrawling (w : World) : Event → Bool
  | .step (.turn id _) => (w.job? id).any fun j => j.task.isCrawl
  | _ => false

def isPolling (w : World) : Event → Bool
  | .step (.turn id _) => (w.job? id).any fun j => j.task.isPoll
  | _ => false

variable {w : World} {served : Served} {id : TaskId} {j : Job} {e : Event}

theorem of_isCrawling (h : w.isCrawling e = true) : ∃ id signalFirst t,
    e = .step (.turn id signalFirst) ∧ w.job? id = some ⟨id, .crawl t⟩ := by
  cases e with
  | step s =>
    cases s with
    | turn id signalFirst =>
      cases hj : w.job? id with
      | none => simp [isCrawling, hj] at h
      | some j =>
        obtain ⟨-, rfl⟩ := mem_of_job? hj
        rcases j with ⟨id, task⟩
        cases task with
        | crawl t => exact ⟨id, signalFirst, t, rfl, hj⟩
        | _ => simp [isCrawling, hj, Task.isCrawl] at h
    | pass nanos => cases h
  | _ => cases h

theorem of_isPolling (h : w.isPolling e = true) : ∃ id signalFirst ticket deadline,
    e = .step (.turn id signalFirst) ∧ w.job? id = some ⟨id, .poll ticket deadline⟩ := by
  cases e with
  | step s =>
    cases s with
    | turn id signalFirst =>
      cases hj : w.job? id with
      | none => simp [isPolling, hj] at h
      | some j =>
        obtain ⟨-, rfl⟩ := mem_of_job? hj
        rcases j with ⟨id, task⟩
        cases task with
        | poll ticket deadline => exact ⟨id, signalFirst, ticket, deadline, rfl, hj⟩
        | _ => simp [isPolling, hj, Task.isPoll] at h
    | pass nanos => cases h
  | _ => cases h

theorem Sound.poise (h : w.Sound none 0 served) (hj : w.job? id = some j) (hb : j.burden = 0) :
    w.Poised (some id) 0 served := by
  obtain ⟨hm, rfl⟩ := mem_of_job? hj
  have hs := (h.begin hj).1
  rw [hb] at hs
  refine ⟨hs, fun k hk he => ?_⟩
  have hd := h.distinct
  rw [others_none] at hd
  rw [List.inj_on_of_nodup_map hd hk hm (Option.some.inj he), hb]
  rfl

theorem Sound.poise_none (h : w.Sound none 0 served) : w.Poised none 0 served :=
  ⟨h, fun _ _ he => by cases he⟩

theorem Moved.ended_none {v : World} (h : Moved none 0 served w v) : Ended [] served w v :=
  ⟨h.toStill, h.poised.toSound, h.accord⟩

def opening (w : World) : Event → List PlanStep
  | .step (.turn id _) => (w.job? id).elim [] fun j => j.task.opening id
  | .dropManager => [.forget]
  | _ => []

def Closes (w : World) (e : Event) (steps : List PlanStep) : Prop :=
  steps = [] ∨ ∃ id signalFirst j, e = .step (.turn id signalFirst) ∧ w.job? id = some j ∧
    j.task.Closes id steps

theorem turn_ended (h : w.Sound none 0 served) (hj : w.job? id = some j)
    (hc : j.task.isCrawl = false) (hp : j.task.isPoll = false) (signalFirst : Bool) :
    ∃ steps, j.task.Closes id steps ∧
      Ended (j.task.opening id ++ steps) served w (j.task.turn w id signalFirst) := by
  obtain ⟨hm, rfl⟩ := mem_of_job? hj
  have hf := (h.begin hj).2
  have idle {v : World} {t : Task} (ho : t.opening j.id = []) (he : Ended [] served w v) :
      ∃ steps, t.Closes j.id steps ∧ Ended (t.opening j.id ++ steps) served w v :=
    ⟨[], .inl rfl, by rwa [ho]⟩
  rcases j with ⟨id, task⟩
  cases task with
  | crawl t => cases hc
  | poll ticket deadline => cases hp
  | call t => exact idle rfl (CallTask.turn_ended h hj)
  | plan t => exact idle rfl (PlanTask.turn_ended (h.poise hj rfl) h signalFirst)
  | load t => exact idle rfl (LoadTask.turn_ended (h.poise hj rfl))
  | evict t => exact idle rfl (EvictionTask.turn_ended (h.poise hj rfl) h t signalFirst)
  | manage t => exact ManagerTask.turn_turned (h.poise hj rfl) h hf
  | windDown t => exact idle rfl (WindDown.turn_ended (h.poise hj rfl) h t)
  | send results r due => exact idle rfl (sendTurn_ended (h.poise hj rfl) h results r due)
  | refill items entered => exact idle rfl (refillTurn_ended (h.poise hj rfl) h items entered)
  | lock deadline entered => exact idle rfl (lockTurn_ended (h.poise hj rfl) h deadline entered)
  | awaitIdle activity deadline =>
    exact idle rfl (idleTurn_ended (h.poise hj rfl) h activity deadline)

section Polls

theorem Sound.serve {n : Nat} (h : w.Sound (some id) .ofItem (some n)) :
    w.Sound (some id) 0 (some (n + 1)) :=
  h.alter rfl rfl (fun b hb => by rw [zero_add]; exact hb.serve) (fun i hi => hi) (fun hi => hi)
    (fun _ hm => hm) (Nat.le_refl _) (Nat.le_refl _)

def followPoll (w : World) (id : TaskId) (deadline : Nat) :
    WorkQueue.Attempt × WorkQueue → World
  | (.took item, q) => { w with queue := q }.finish id (.item (some item))
  | (.over, q) => { w with queue := q }.finish id (.item none)
  | (.waits ticket, q) => { w with queue := q }.keepLast id (.poll (some ticket) deadline)

theorem pollTurn_none (deadline : Nat) :
    w.pollTurn id none deadline = w.followPoll id deadline w.queue.attempt := rfl

theorem pollTurn_some (ticket deadline : Nat) : w.pollTurn id (some ticket) deadline =
    if w.queue.bell.reached ticket then w.followPoll id deadline (w.queue.woken ticket)
    else if deadline ≤ w.now then
      ({ w with queue := (w.queue.expire ticket).2 } : World).finish id
        (.item (w.queue.expire ticket).1)
    else w := rfl

theorem followPoll_sound {n : Nat} {a : WorkQueue.Attempt} {q : WorkQueue}
    (h : ({ w with queue := q } : World).Sound (some id) a.burden (some n)) (deadline : Nat) :
    ∃ n, (w.followPoll id deadline (a, q)).Sound none 0 (some n) := by
  rcases a with item | _ | ticket
  · exact ⟨n + 1, h.serve.finish _⟩
  · exact ⟨n, h.finish _⟩
  · exact ⟨n, h.keepLast rfl rfl⟩

theorem Sound.serveFound {n : Nat} {item : Option WorkItem}
    (h : w.Sound (some id) (.ofFound item) (some n)) : ∃ n, w.Sound (some id) 0 (some n) := by
  cases item with
  | none => exact ⟨n, h⟩
  | some item => exact ⟨n + 1, h.serve⟩

theorem pollTurn_sound {n : Nat} {ticket : Option Nat} {deadline : Nat}
    (h : w.Sound none 0 (some n)) (hj : w.job? id = some ⟨id, .poll ticket deadline⟩) :
    ∃ n, (w.pollTurn id ticket deadline).Sound none 0 (some n) := by
  have hb := (h.begin hj).1
  cases ticket with
  | none =>
    rw [pollTurn_none]
    refine followPoll_sound (hb.setQueue (fun b hw => ?_) fun i hi => ?_) deadline
    · have hw : Books w.queue w.stats (0 + b) (some n) := hw
      rw [zero_add] at hw
      exact hw.attempt
    · rw [WorkQueue.Attempt.calls_burden] at hi
      exact hi
  | some ticket =>
    have hb : w.Sound (some id) (.ofTicket ticket) (some n) := hb
    rw [pollTurn_some]
    split
    · rename_i hr
      refine followPoll_sound (hb.setQueue (fun b hw => hw.woken hr) fun i hi => ?_) deadline
      rw [WorkQueue.Attempt.calls_burden] at hi
      exact hi
    · split
      · have he := hb.setQueue (fun b hw => hw.expire) fun i hi => by
          rw [Burden.calls_ofFound] at hi
          exact hi
        obtain ⟨m, hm⟩ := he.serveFound
        exact ⟨m, hm.finish _⟩
      · exact ⟨n, h⟩

end Polls

section Events

theorem not_polling (h : w.Sound none 0 none) (e : Event) : w.isPolling e = false := by
  rw [← Bool.not_eq_true]
  intro hp
  obtain ⟨id, signalFirst, ticket, deadline, rfl, hj⟩ := of_isPolling hp
  cases (h.begin hj).2

theorem launch_ended (h : w.Sound none 0 served) {t : Task} (hs : served.isSome ∨ t.isPoll = false)
    (ht : t.isEntry = true) : Ended [] served w (w.spawn t).2 := by
  suffices hk : t.burden w.nextId = 0 ∧ ∀ b, t.Fit (w.spawn t).2 b served from
    (h.poise_none.spawn hk.1 hk.2).ended_none
  cases t with
  | crawl t => cases ht
  | call t => cases ht
  | manage t =>
    rcases t with ⟨c, _ | _ | _ | _ | _⟩
    · exact ⟨rfl, fun b task hm => by cases hm⟩
    all_goals cases ht
  | poll ticket deadline =>
    cases ticket with
    | none => exact ⟨rfl, fun b => hs.resolve_right (by simp [Task.isPoll])⟩
    | some ticket => cases ht
  | _ => exact ⟨rfl, fun b => trivial⟩

theorem cancel_ended (h : w.Sound none 0 served) (hj : w.job? id = some j)
    (hc : j.task.isCancellable = true) : Ended [] served w (w.abort id) := by
  obtain ⟨hm, rfl⟩ := mem_of_job? hj
  refine (h.poise_none.abort ⟨h.issued j (by rwa [others_none]), fun hi => ?_⟩).ended_none
  rw [burden, zero_add, others_none] at hi
  obtain ⟨k, hk, hb⟩ := Job.mem_calls_total.1 hi
  have hd := h.distinct
  rw [others_none] at hd
  rw [List.inj_on_of_nodup_map hd hk hm (k.burden_calls_le _ hb).symm] at hb
  rcases j with ⟨i, task⟩
  cases task with
  | poll ticket deadline => cases ticket <;> simp [Job.burden, Task.burden] at hb
  | refill items entered => simp [Job.burden, Task.burden] at hb
  | lock deadline entered => simp [Job.burden, Task.burden] at hb
  | _ => cases hc

theorem Poised.letGo {v : World} (h : v.Poised none 0 served) (m : Manager) :
    Ended [.forget] served v { v with
      results := v.results.modify 0 ResultQueue.dropSender
      manager := { m with pool := none, schedule := none, pending := [] } } := by
  refine ⟨.of_eq rfl rfl, ?_, rfl⟩
  refine h.toSound.alter rfl rfl (fun b hb => hb) (fun i hi => hi) id (fun task hm => ?_)
    (Nat.le_refl _) (by simp)
  rcases mem_handles.1 hm with hq | ⟨k, hk, -⟩
  · exact mem_handles.2 (.inl hq)
  · cases hk

theorem dropManager_ended (h : w.Sound none 0 served) :
    Ended [.forget] served w w.dropManager := by
  have hw := h.poise_none
  have hk {s : Schedule} (hs : w.manager.schedule = some s) : w.Knows (w.burden none 0) s.task :=
    h.known _ (mem_handles.2 (.inr ⟨s, hs, rfl⟩))
  cases hp : w.manager.pool with
  | none =>
    cases hs : w.manager.schedule with
    | none =>
      simp only [dropManager, hp, hs]
      exact hw.letGo _
    | some s =>
      have ha := hw.abort (hk hs)
      simp only [dropManager, hp, hs]
      exact ha.ended (ha.poised.letGo _)
  | some pool =>
    have hd := hw.dropPool pool
    cases hs : w.manager.schedule with
    | none =>
      simp only [dropManager, hp, hs]
      exact hd.ended (hd.poised.letGo _)
    | some s =>
      have ha := hd.trans (hd.poised.abort (hd.knows _ (hk hs)))
      simp only [dropManager, hp, hs]
      exact ha.ended (ha.poised.letGo _)

theorem setQueue_ended (h : w.Sound none 0 served) {q : WorkQueue}
    (hb : ∀ b, Books w.queue w.stats b served → Books q w.stats b served)
    (ht : q.taken = w.queue.taken) (hi : w.queue.items.length ≤ q.items.length) :
    Ended [] served w { w with queue := q } :=
  ⟨⟨rfl, rfl, rfl, rfl, Nat.le_refl _, ht, hi⟩, h.setQueue (fun _ hw => hb _ hw) fun _ hm => hm,
    rfl⟩

theorem step_turn_ended (h : w.Sound none 0 served) {signalFirst : Bool}
    (hc : w.isCrawling (.step (.turn id signalFirst)) = false)
    (hp : w.isPolling (.step (.turn id signalFirst)) = false) :
    ∃ steps, w.Closes (.step (.turn id signalFirst)) steps ∧
      Ended (w.opening (.step (.turn id signalFirst)) ++ steps) served w
        (w.step (.turn id signalFirst)) := by
  simp only [step, opening]
  cases hj : w.job? id with
  | none => exact ⟨[], .inl rfl, .refl w, h, rfl⟩
  | some j =>
    simp only [Option.elim_some]
    split
    · obtain ⟨steps, hk, he⟩ := turn_ended h hj (by simpa [isCrawling, hj] using hc)
        (by simpa [isPolling, hj] using hp) signalFirst
      exact ⟨steps, .inr ⟨id, signalFirst, j, rfl, hj, hk⟩, he⟩
    · rename_i hr
      rw [j.task.opening_of_not_isReady hr]
      exact ⟨[], .inl rfl, .refl w, h, rfl⟩

theorem react_ended (h : w.Sound none 0 served) {e : Event} (hc : w.isCrawling e = false)
    (hp : w.isPolling e = false) (hs : served.isSome ∨ e.isPoll = false) :
    ∃ steps, w.Closes e steps ∧ Ended (w.opening e ++ steps) served w (w.react e) := by
  have only {o : List PlanStep} {v : World} (he : Ended o served w v) :
      ∃ steps, w.Closes e steps ∧ Ended (o ++ steps) served w v :=
    ⟨[], .inl rfl, by rwa [List.append_nil]⟩
  have pass {v : World} (hm : Moved none 0 served w v) :
      ∃ steps, w.Closes e steps ∧ Ended ([] ++ steps) served w v := only hm.ended_none
  have hw := h.poise_none
  have idle := pass (.refl hw)
  cases e with
  | step s =>
    cases s with
    | turn id signalFirst => exact step_turn_ended h hc hp
    | pass nanos => exact pass (hw.pass rfl rfl rfl rfl rfl rfl rfl rfl rfl)
  | launch t =>
    simp only [react]
    split
    · rename_i ht
      exact only (launch_ended h hs ht)
    · exact idle
  | cancel id =>
    simp only [react]
    cases hj : w.job? id with
    | none => exact idle
    | some j =>
      simp only
      split
      · rename_i ht
        exact only (cancel_ended h hj ht)
      · exact idle
  | offer item =>
    have ha := w.queue.offer_admits item
    exact only (setQueue_ended h (fun b hb => hb.offer item) ha.taken
      (by rw [ha.items, List.length_append]; exact Nat.le_add_right _ _))
  | addAll items =>
    have ha := w.queue.addAll_admits items
    exact only (setQueue_ended h (fun b hb => hb.addAll items) ha.taken
      (by rw [ha.items, List.length_append]; exact Nat.le_add_right _ _))
  | close =>
    have ha := w.queue.close_admits
    exact only (setQueue_ended h (fun b hb => hb.close) ha.taken
      (by rw [ha.items, List.append_nil]))
  | unlock holder => exact pass (hw.pass rfl rfl rfl rfl rfl rfl rfl rfl rfl)
  | schedule p => exact pass (hw.follow p)
  | dropManager => exact only (dropManager_ended h)
  | register a =>
    refine only ⟨.of_eq rfl rfl, h.alter rfl rfl (fun b hb => hb) (fun i hi => hi) (fun hi => hi)
      (fun _ hm => hm) ?_ (Nat.le_refl _), rfl⟩
    simp [react, Registry.register, Registry.size]
  | gate isOpen => exact pass (hw.pass rfl rfl rfl rfl rfl rfl rfl rfl rfl)
  | files f => exact pass (hw.pass rfl rfl rfl rfl rfl rfl rfl rfl rfl)
  | results i q =>
    exact pass (hw.pass rfl rfl rfl rfl rfl rfl rfl (by simp [react, setResults]) rfl)

theorem react_crawled (h : w.Sound none 0 served) {e : Event} (hc : w.isCrawling e = true) :
    Crawled served w (w.react e) := by
  obtain ⟨id, signalFirst, t, rfl, hj⟩ := of_isCrawling hc
  obtain ⟨hb, ht⟩ := h.begin hj
  simp only [react, step, hj]
  split
  · exact CrawlTask.turn_crawled h hb ht signalFirst
  · exact ⟨h, .of_eq rfl rfl, rfl⟩

theorem react_polled {n : Nat} (h : w.Sound none 0 (some n)) {e : Event}
    (hp : w.isPolling e = true) : ∃ n, (w.react e).Sound none 0 (some n) := by
  obtain ⟨id, signalFirst, ticket, deadline, rfl, hj⟩ := of_isPolling hp
  simp only [react, step, hj]
  split
  · exact pollTurn_sound h hj
  · exact ⟨n, h⟩

end Events

section Runs

theorem react_sound {n : Nat} (h : w.Sound none 0 (some n)) (e : Event) :
    ∃ n, (w.react e).Sound none 0 (some n) := by
  by_cases hp : w.isPolling e = true
  · exact react_polled h hp
  · by_cases hc : w.isCrawling e = true
    · exact ⟨n, (react_crawled h hc).sound⟩
    · rw [Bool.not_eq_true] at hp hc
      obtain ⟨steps, -, he⟩ := react_ended h hc hp (.inl rfl)
      exact ⟨n, he.sound⟩

theorem sound_of_fresh {q : QueueConfig} (hs : served.getD 0 = 0) (hj : w.jobs = [])
    (hq : w.queue = .empty q) (ht : w.stats = .zero) (hp : w.pools = [])
    (hm : w.manager.schedule = none) (hr : 0 < w.results.length) : w.Sound none 0 served := by
  have ho : w.others none = [] := by rw [others_none, hj]
  have hb : w.burden none 0 = 0 := by rw [burden, ho]; rfl
  refine ⟨?_, ?_, fun i hi => (by cases hi), ?_, ?_, ?_, ?_, hr⟩
  · rw [ho]
    exact List.nodup_nil
  · rw [ho]
    exact fun j hj => by cases hj
  · rw [hb, hq, ht]
    exact Books.empty q hs
  · rw [hb]
    exact fun i hi => absurd hi (Multiset.notMem_zero i)
  · intro task hk
    rw [handles, hp, hm] at hk
    cases hk
  · rw [ho]
    exact fun j hj => by cases hj

theorem setup_sound (s : Setup) (hs : served.getD 0 = 0) : s.world.Sound none 0 served := by
  have hw : s.world.jobs = [] ∧ s.world.queue = .empty s.queue ∧ s.world.stats = .zero ∧
      s.world.pools = [] ∧ s.world.manager.schedule = none := by
    simp only [Setup.world, withManager]
    split <;> exact ⟨rfl, rfl, rfl, rfl, rfl⟩
  obtain ⟨hj, hq, ht, hp, hm⟩ := hw
  exact sound_of_fresh hs hj hq ht hp hm Nat.one_pos

theorem play_sound_from {n : Nat} (h : w.Sound none 0 (some n)) (events : List Event) :
    ∃ n, (w.play events).Sound none 0 (some n) := by
  induction events generalizing w n with
  | nil => exact ⟨n, h⟩
  | cons e rest ih =>
    obtain ⟨m, hm⟩ := react_sound h e
    exact ih hm

theorem play_sound (s : Setup) (events : List Event) :
    ∃ n, (s.world.play events).Sound none 0 (some n) :=
  play_sound_from (setup_sound s rfl) events

end Runs

end World

end CatalogCrawl

import CatalogCrawl.Proofs.World.Conservation

namespace CatalogCrawl

namespace Task

def ticket? : Task → Option Nat
  | .crawl t =>
    match t.stage with
    | .polling ticket _ _ => some ticket
    | _ => none
  | .poll ticket _ => ticket
  | _ => none

def isInPoll : Task → Bool
  | .crawl t =>
    match t.stage with
    | .polling .. => true
    | _ => false
  | .poll .. => true
  | _ => false

/-- Until when a task polls in its next turn, unless it is told to stop or crashes. -/
def pollsUntil? (w : World) : Task → Option Nat
  | .crawl t =>
    match t.stage with
    | .looking =>
      let deadline := w.now + t.crawler.config.waitForWorkItem.nanos
      if (w.signal t.signal).raised || !(w.signal t.signal).isAlive || !w.shows deadline then none
      else some deadline
    | .polling _ deadline seen =>
      if (w.signal t.signal).hasNews seen then none else some deadline
    | .matching _ => none
  | .poll _ deadline => some deadline
  | _ => none

end Task

namespace World

variable {w : World} {id : TaskId} {j : Job} {ticket : Nat}

def Resting (w : World) : Prop := ∀ j ∈ w.jobs, j.task.isReady w j.id = false

theorem mem_tickets_burden : ticket ∈ j.burden.tickets ↔ j.task.ticket? = some ticket := by
  rcases j with ⟨i, task⟩
  cases task with
  | crawl t =>
    cases hs : t.stage <;> simp [Job.burden, Task.burden, CrawlStage.burden, Task.ticket?, hs,
      eq_comm]
  | poll ticket deadline =>
    cases ticket <;> simp [Job.burden, Task.burden, Task.ticket?, eq_comm]
  | _ => simp [Job.burden, Task.burden, Task.ticket?]

theorem not_reached_of_not_ready (h : j.task.isReady w j.id = false)
    (ht : j.task.ticket? = some ticket) : w.queue.bell.reached ticket = false := by
  rcases j with ⟨i, task⟩
  cases task with
  | crawl t =>
    cases hs : t.stage with
    | polling k deadline seen =>
      simp only [Task.ticket?, hs, Option.some.injEq] at ht
      simp only [Task.isReady, CrawlTask.isReady, hs, ht, Bool.or_eq_false_iff] at h
      exact h.1.2
    | _ => simp [Task.ticket?, hs] at ht
  | poll k deadline =>
    simp only [Task.ticket?] at ht
    simp only [Task.isReady, ht, Bool.or_eq_false_iff] at h
    exact h.1
  | _ => cases ht

theorem Sound.no_ticket {served : Served} (h : w.Sound none 0 served) (hr : w.Resting)
    (hq : w.queue.items ≠ [] ∨ w.queue.closed = true) : ∀ j ∈ w.jobs, j.task.ticket? = none := by
  have hb : (w.burden none 0).tickets = (Job.total w.jobs).tickets := by
    rw [burden, zero_add, others_none]
  have he := h.books.enrolled
  rw [hb] at he
  have hz := he.eq_zero_of_unreached (fun t ht => ?_) hq
  · intro j hj
    cases ht : j.task.ticket? with
    | none => rfl
    | some ticket =>
      have hm := Job.mem_tickets_total.2 ⟨j, hj, mem_tickets_burden.2 ht⟩
      rw [hz] at hm
      exact absurd hm (Multiset.notMem_zero ticket)
  · obtain ⟨j, hj, hm⟩ := Job.mem_tickets_total.1 ht
    exact not_reached_of_not_ready (hr j hj) (mem_tickets_burden.1 hm)

theorem Sound.no_poll {served : Served} (h : w.Sound none 0 served) (hr : w.Resting)
    (hq : w.queue.items ≠ [] ∨ w.queue.closed = true) : ∀ j ∈ w.jobs, j.task.isInPoll = false := by
  intro j hj
  have ht := h.no_ticket hr hq j hj
  have hn := hr j hj
  rcases j with ⟨i, task⟩
  cases task with
  | crawl t => cases hs : t.stage <;> simp [Task.ticket?, hs] at ht <;> simp [Task.isInPoll, hs]
  | poll ticket deadline =>
    simp only [Task.ticket?] at ht
    simp [Task.isReady, ht] at hn
  | _ => rfl

end World

namespace WorkQueue

variable {q : WorkQueue} {ticket : Nat}

theorem attempt_returns (ht : q.attempt.2.taken = q.taken) (hw : ∀ k, q.attempt.1 ≠ .waits k) :
    q.items = [] ∧ q.closed = true := by
  rcases q.attempt_cases with ⟨item, rest, b, -, ha⟩ | ⟨b, hi, hc, -⟩ | ⟨k, b, -, -, ha⟩
  · rw [ha] at ht
    exact absurd ht (Nat.succ_ne_self _)
  · exact ⟨hi, hc⟩
  · rw [ha] at hw
    exact absurd rfl (hw k)

theorem woken_returns (ht : (q.woken ticket).2.taken = q.taken)
    (hw : ∀ k, (q.woken ticket).1 ≠ .waits k) : q.items = [] ∧ q.closed = true :=
  attempt_returns (q := { q with bell := q.bell.observe ticket }) ht hw

theorem expire_returns (ticket : Nat) (ht : (q.expire ticket).2.taken = q.taken) :
    q.items = [] := by
  rcases q.expire_cases ticket with ⟨item, rest, b, -, he⟩ | ⟨hi, -⟩
  · rw [he] at ht
    exact absurd ht (Nat.succ_ne_self _)
  · exact hi

end WorkQueue

namespace CrawlTask

variable {w : World} {id : TaskId} {t : CrawlTask}

theorem taken_complete (item : WorkItem) :
    (t.complete w id item).queue.taken = w.queue.taken := by
  have hq : (w.work t.crawler t.results item).2.queue.taken = w.queue.taken := by
    rw [work_eq]
    exact Cycle.taken_run _ _ _ _
  unfold complete
  rcases hw : w.work t.crawler t.results item with ⟨outcome, u⟩
  rw [hw] at hq
  cases t.mode with
  | steady activity =>
    simp only
    split <;> exact hq
  | single => exact hq
  | fetch => exact hq

theorem taken_takeUp (item : WorkItem) : (t.takeUp w id item).queue.taken = w.queue.taken := by
  unfold takeUp
  cases t.mode with
  | steady activity =>
    simp only
    split
    · rfl
    · exact taken_complete item
  | single =>
    simp only
    split
    · rfl
    · exact taken_complete item
  | fetch => rfl

theorem taken_follow (a : WorkQueue.Attempt) (q : WorkQueue) (deadline seen : Nat) :
    (t.follow w id deadline seen (a, q)).queue.taken = q.taken := by
  rcases a with item | _ | ticket
  · exact taken_takeUp item
  · rfl
  · simp only [follow, heed]
    split
    · split <;> rfl
    · rfl

theorem not_waits_of_follow {a : WorkQueue.Attempt} {q : WorkQueue} {deadline seen : Nat}
    (hn : (w.signal t.signal).hasNews seen = false)
    (h : ∀ k ∈ (t.follow w id deadline seen (a, q)).jobs, k.id = id → k.task.ticket? = none)
    (ticket : Nat) : a ≠ .waits ticket := by
  rintro rfl
  have hf : t.follow w id deadline seen (.waits ticket, q) = ({ w with queue := q } : World).keepLast
      id (.crawl { t with stage := .polling ticket deadline seen }) :=
    if_neg (ne_true_of_eq_false hn)
  rw [hf] at h
  have hk := h ⟨id, .crawl { t with stage := .polling ticket deadline seen }⟩
    (List.mem_append_right _ (List.mem_singleton.2 rfl)) rfl
  cases hk

theorem wake_returns {ticket deadline seen : Nat} {signalFirst : Bool}
    (hs : t.stage = .polling ticket deadline seen) (hj : ⟨id, .crawl t⟩ ∈ w.jobs)
    (hn : (w.signal t.signal).hasNews seen = false)
    (ht : (t.wake w id ticket deadline seen signalFirst).queue.taken = w.queue.taken)
    (hw : ∀ k ∈ (t.wake w id ticket deadline seen signalFirst).jobs, k.id = id →
      k.task.ticket? = none) :
    w.queue.items = [] ∧ (w.queue.closed = true ∨ deadline ≤ w.now) := by
  simp only [wake, hn, Bool.false_and, Bool.false_eq_true, if_false, decide_eq_true_eq] at ht hw
  by_cases hr : w.queue.bell.reached ticket = true
  · simp only [hr, if_true] at ht hw
    rw [taken_follow] at ht
    obtain ⟨hi, hc⟩ := WorkQueue.woken_returns ht (not_waits_of_follow hn hw)
    exact ⟨hi, .inl hc⟩
  · rw [Bool.not_eq_true] at hr
    simp only [hr, Bool.false_eq_true, if_false] at ht hw
    by_cases hd : deadline ≤ w.now
    · refine ⟨?_, .inr hd⟩
      simp only [hd, if_true] at ht
      refine WorkQueue.expire_returns ticket ?_
      rcases hx : w.queue.expire ticket with ⟨_ | item, q⟩
      · rw [hx] at ht
        by_cases hc : q.closed = true
        · simp only [hc, if_true] at ht
          exact ht
        · simp only [hc] at ht
          exact ht
      · rw [hx] at ht
        simp only at ht
        rwa [taken_takeUp] at ht
    · simp only [hd, if_false] at hw
      have hk := hw _ hj rfl
      simp [Task.ticket?, hs] at hk

theorem turn_returns {deadline : Nat} {signalFirst : Bool} (hj : ⟨id, .crawl t⟩ ∈ w.jobs)
    (hp : (Task.crawl t).pollsUntil? w = some deadline)
    (ht : (t.turn w id signalFirst).queue.taken = w.queue.taken)
    (hw : ∀ k ∈ (t.turn w id signalFirst).jobs, k.id = id → k.task.ticket? = none) :
    w.queue.items = [] ∧ (w.queue.closed = true ∨ deadline ≤ w.now) := by
  cases hs : t.stage with
  | looking =>
    simp only [Task.pollsUntil?, hs, Option.ite_none_left_eq_some, Bool.or_eq_true,
      Bool.not_eq_true', not_or, Bool.not_eq_true, Bool.not_eq_false] at hp
    obtain ⟨⟨⟨hr, ha⟩, hd⟩, -⟩ := hp
    simp only [turn, hs, look, hr, ha, hd, Bool.not_true, Bool.false_and, Bool.or_self,
      Bool.false_eq_true, if_false] at ht hw
    rw [taken_follow] at ht
    have hn : (w.signal t.signal).hasNews (w.signal t.signal).version = false := by
      simp [Signal.hasNews, ha]
    obtain ⟨hi, hc⟩ := WorkQueue.attempt_returns ht (not_waits_of_follow hn hw)
    exact ⟨hi, .inl hc⟩
  | polling ticket limit seen =>
    simp only [Task.pollsUntil?, hs, Option.ite_none_left_eq_some, Bool.not_eq_true,
      Option.some.injEq] at hp
    obtain ⟨hn, rfl⟩ := hp
    simp only [turn, hs] at ht hw
    exact wake_returns hs hj hn ht hw
  | matching item => simp [Task.pollsUntil?, hs] at hp

end CrawlTask

namespace World

variable {w : World} {id : TaskId}

theorem followPoll_returns {q : WorkQueue} {deadline : Nat}
    (he : (w.followPoll id deadline q.attempt).ended = ⟨id, w.now, .item none⟩ :: w.ended) :
    q.items = [] ∧ q.closed = true := by
  rcases q.attempt_cases with ⟨item, rest, b, -, hq⟩ | ⟨b, hi, hc, -⟩ | ⟨k, b, -, -, hq⟩
  · rw [hq] at he
    simp [followPoll, finish] at he
  · exact ⟨hi, hc⟩
  · rw [hq] at he
    exact absurd he List.ne_cons_self

theorem pollTurn_returns {ticket : Option Nat} {deadline : Nat}
    (he : (w.pollTurn id ticket deadline).ended = ⟨id, w.now, .item none⟩ :: w.ended) :
    w.queue.items = [] ∧ (w.queue.closed = true ∨ deadline ≤ w.now) := by
  cases ticket with
  | none =>
    obtain ⟨hi, hc⟩ := followPoll_returns he
    exact ⟨hi, .inl hc⟩
  | some ticket =>
    rw [pollTurn_some] at he
    split at he
    · obtain ⟨hi, hc⟩ :=
        followPoll_returns (q := { w.queue with bell := w.queue.bell.observe ticket }) he
      exact ⟨hi, .inl hc⟩
    · split at he
      · rename_i hd
        rcases w.queue.expire_cases ticket with ⟨item, rest, b, -, hx⟩ | ⟨hi, -⟩
        · rw [hx] at he
          simp [finish] at he
        · exact ⟨hi, .inr hd⟩
      · exact absurd he List.ne_cons_self

end World

/-- Where no task is ready, nobody waits in a poll on a queue that holds an item or is closed; and
a poll comes back without an item only from an empty queue that is closed, or when its time is up. A
queue is closed once someone has closed it. -/
theorem no_lost_wakeup (s : Setup) (events : List Event) :
    let w := s.world.play events
    ((∀ j ∈ w.jobs, j.task.isReady w j.id = false) →
      w.queue.items ≠ [] ∨ w.queue.closed = true → ∀ j ∈ w.jobs, j.task.isInPoll = false) ∧
    (∀ id ticket deadline signalFirst, w.job? id = some ⟨id, .poll ticket deadline⟩ →
      (w.step (.turn id signalFirst)).ended = ⟨id, w.now, .item none⟩ :: w.ended →
      w.queue.items = [] ∧ (w.queue.closed = true ∨ deadline ≤ w.now)) ∧
    (∀ id t deadline signalFirst, w.job? id = some ⟨id, .crawl t⟩ →
      (Task.crawl t).pollsUntil? w = some deadline →
      (w.step (.turn id signalFirst)).queue.taken = w.queue.taken →
      (∀ j ∈ (w.step (.turn id signalFirst)).jobs, j.id = id → j.task.ticket? = none) →
      w.queue.items = [] ∧ (w.queue.closed = true ∨ deadline ≤ w.now)) ∧
    (w.react .close).queue.closed = true := by
  intro w
  obtain ⟨n, hs⟩ := World.play_sound s events
  refine ⟨fun hr hq => hs.no_poll hr hq, ?_, ?_, w.queue.closed_close⟩
  · intro id ticket deadline signalFirst hj he
    simp only [World.step, hj] at he
    split at he
    · exact World.pollTurn_returns he
    · exact absurd he (List.ne_cons_self)
  · intro id t deadline signalFirst hj hp ht hw
    simp only [World.step, hj] at ht hw
    have hm := (World.mem_of_job? hj).1
    split at ht
    · rename_i hr
      rw [if_pos hr] at hw
      exact CrawlTask.turn_returns hm hp ht hw
    · rename_i hr
      rw [if_neg hr] at hw
      have hk := hw _ hm rfl
      cases hs : t.stage with
      | looking => simp [Task.isReady, CrawlTask.isReady, hs] at hr
      | polling ticket limit seen => simp [Task.ticket?, hs] at hk
      | matching item => simp [Task.pollsUntil?, hs] at hp

section Example

open World

def patientPoll : Event := .launch (.poll none 1000)

def twoWait : List Event :=
  [patientPoll, .step (.turn 0 true), patientPoll, .step (.turn 1 true)]

def firstLeaves : List Event := [.offer Account.unserved, .cancel 0]

def lastWaits : List Event :=
  [.step (.turn 1 true), .offer Account.unserved, .offer Account.unserved,
    patientPoll, .step (.turn 2 true), patientPoll, .step (.turn 3 true),
    patientPoll, .step (.turn 4 true), .close]

theorem no_lost_wakeup_passed_on :
    let w := Account.lone.world.play twoWait
    let v := Account.lone.world.play (twoWait ++ firstLeaves)
    let u := Account.lone.world.play (twoWait ++ firstLeaves ++ lastWaits)
    (w.Resting ∧ w.jobs.map (fun j => j.task.isInPoll) = [true, true] ∧
      w.queue.items = [] ∧ w.queue.closed = false) ∧
    (v.jobs.map (fun j => (j.id, j.task.isReady v j.id)) = [(1, true)] ∧ v.queue.items ≠ []) ∧
    u.ended.map (fun e => (e.id, e.result)) =
      [(3, .item (some Account.unserved)), (2, .item (some Account.unserved)),
        (1, .item (some Account.unserved))] ∧
    (u.step (.turn 4 true)).ended = ⟨4, u.now, .item none⟩ :: u.ended ∧
    u.queue.items = [] ∧ u.queue.closed = true := by
  intro w v u
  have hrest : w.Resting := by
    unfold Resting
    decide
  have hpolls : w.jobs.map (fun j => j.task.isInPoll) = [true, true] := by decide
  have hopen : ¬ (w.queue.items ≠ [] ∨ w.queue.closed = true) := by
    intro hq
    have hnone := (no_lost_wakeup Account.lone twoWait).1 hrest hq
    obtain ⟨j, hj, hin⟩ := List.mem_map.1 (hpolls ▸ List.mem_cons_self :
      true ∈ w.jobs.map fun j => j.task.isInPoll)
    cases (hnone j hj).symm.trans hin
  rw [not_or, not_ne_iff, Bool.not_eq_true] at hopen
  have hover : (u.step (.turn 4 true)).ended = ⟨4, u.now, .item none⟩ :: u.ended := rfl
  have hpoll : u.job? 4 = some ⟨4, .poll (some 3) 1000⟩ := rfl
  obtain ⟨hempty, hclosed⟩ := (no_lost_wakeup Account.lone (twoWait ++ firstLeaves ++ lastWaits)).2.1
    4 _ 1000 true hpoll hover
  exact ⟨⟨hrest, hpolls, hopen⟩, by decide, rfl, hover, hempty,
    hclosed.resolve_right (by decide)⟩

end Example

end CatalogCrawl

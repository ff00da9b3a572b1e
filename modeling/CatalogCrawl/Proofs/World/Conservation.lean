import CatalogCrawl.Proofs.World.Runs

namespace CatalogCrawl

namespace Task

def isCall : Task → Bool
  | .call _ => true
  | _ => false

/-- Whether a crawler has taken an item and has not ended its cycle, because its adapters keep it
waiting for an answer to whether they serve the item. -/
def isMidCycle : Task → Bool
  | .crawl t =>
    match t.stage with
    | .matching _ => true
    | _ => false
  | _ => false

end Task

namespace World

def inFlight (w : World) : Nat := w.jobs.countP fun j => j.task.isCall

def midCycle (w : World) : Nat := w.jobs.countP fun j => j.task.isMidCycle

/-- How many items come into the queue in an event that is not the turn of a crawler. -/
def supply (w : World) (e : Event) : Nat :=
  if w.isCrawling e then 0 else (w.react e).queue.items.length - w.queue.items.length

def dispatches (w : World) (e : Event) : Bool := w.inFlight < (w.react e).inFlight

theorem card_calls_total (jobs : List Job) :
    (Job.total jobs).calls.card = jobs.countP fun j => j.task.isCall := by
  induction jobs with
  | nil => rfl
  | cons j rest ih =>
    rw [Job.total_cons, Burden.calls_add, Multiset.card_add, ih, List.countP_cons, add_comm]
    congr 1
    rcases j with ⟨i, task⟩
    cases task with
    | crawl t =>
      cases hs : t.stage <;> simp [Job.burden, Task.burden, CrawlStage.burden, hs, Task.isCall]
    | poll ticket deadline =>
      cases ticket <;> simp [Job.burden, Task.burden, Task.isCall]
    | _ => simp [Job.burden, Task.burden, Task.isCall]

theorem items_total (jobs : List Job) :
    (Job.total jobs).items = jobs.countP fun j => j.task.isMidCycle := by
  induction jobs with
  | nil => rfl
  | cons j rest ih =>
    rw [Job.total_cons, Burden.items_add, ih, List.countP_cons, add_comm]
    congr 1
    rcases j with ⟨i, task⟩
    cases task with
    | crawl t =>
      cases hs : t.stage <;> simp [Job.burden, Task.burden, CrawlStage.burden, hs, Task.isMidCycle]
    | poll ticket deadline =>
      cases ticket <;> simp [Job.burden, Task.burden, Task.isMidCycle]
    | _ => simp [Job.burden, Task.burden, Task.isMidCycle]

variable {w : World} {served : Served}

theorem Sound.dispatched (h : w.Sound none 0 served) : w.stats.dispatched =
    w.stats.delivered + w.stats.adapterFailures + w.stats.undelivered + w.inFlight := by
  have hc := h.books.calls
  rwa [burden, zero_add, others_none, card_calls_total] at hc

theorem Sound.taken (h : w.Sound none 0 none) : w.queue.taken = w.stats.cycles + w.midCycle := by
  have ht := h.books.taken
  rwa [burden, zero_add, others_none, items_total] at ht

end World

structure Account where
  world : World
  supplied : Nat
  dispatching : Nat

namespace Account

def opened (s : Setup) : Account := ⟨s.world, 0, 0⟩

def react (a : Account) (e : Event) : Account :=
  { world := a.world.react e
    supplied := a.supplied + a.world.supply e
    dispatching := a.dispatching + if a.world.dispatches e then 1 else 0 }

def run (a : Account) (events : List Event) : Account := events.foldl react a

structure Even (a : Account) : Prop where
  sound : a.world.Sound none 0 none
  cycles : a.world.stats.cycles =
    a.dispatching + a.world.stats.requeued + a.world.stats.dropped
  accepted : a.world.queue.accepted = a.supplied + a.world.stats.requeued

open World

variable {a : Account} {e : Event}

theorem Even.react_ended (h : a.Even) (hc : a.world.isCrawling e = false) {steps : List PlanStep}
    (he : Ended steps none a.world (a.world.react e)) : (a.react e).Even := by
  have hd := h.sound.dispatched
  have hd' := he.sound.dispatched
  have hq := h.sound.books.count
  have hq' := he.sound.books.count
  have hcycles := h.cycles
  have haccepted := h.accepted
  have hn : a.world.dispatches e = false := by
    rw [dispatches, decide_eq_false_iff_not]
    have := he.dispatched
    have := he.answered
    omega
  refine ⟨he.sound, ?_, ?_⟩
  · simp only [react, hn, he.cycles, he.requeued, he.dropped]
    exact hcycles
  · have := he.stock
    have := he.taken
    simp only [react, supply, hc, Bool.false_eq_true, if_false, he.requeued]
    omega

theorem Even.react_crawled (h : a.Even) (hc : a.world.isCrawling e = true)
    (he : Crawled none a.world (a.world.react e)) : (a.react e).Even := by
  have hd := h.sound.dispatched
  have hd' := he.sound.dispatched
  have hcycles := h.cycles
  have haccepted := h.accepted
  have hs : (a.react e).supplied = a.supplied := by
    simp only [react, supply, hc, if_true, Nat.add_zero]
  rcases he.cycled with ⟨ht, hq⟩ | ⟨o, ho, ht, hq⟩
  · have hn : a.world.dispatches e = false := by
      rw [dispatches, decide_eq_false_iff_not]
      rw [ht] at hd'
      omega
    refine ⟨he.sound, ?_, ?_⟩
    · simp only [react, hn, ht]
      exact hcycles
    · rw [hs]
      simp only [react, ht, hq]
      exact haccepted
  · have hf : (a.world.react e).inFlight = a.world.inFlight + o.calls := by
      rw [ht] at hd'
      cases o <;> simp only [CrawlStats.record, Outcome.calls] at hd' ⊢ <;> omega
    have hn : a.world.dispatches e = decide (0 < o.calls) := by
      simp [dispatches, hf]
    refine ⟨he.sound, ?_, ?_⟩
    · simp only [react, hn, ht]
      cases o with
      | stopped => exact absurd rfl ho.1
      | dispatched n =>
        have hz : 0 < n := Nat.pos_of_ne_zero fun hz => ho.2 (by rw [hz])
        simp only [CrawlStats.record, Outcome.calls, hz, decide_true, if_true]
        omega
      | requeued =>
        simp [CrawlStats.record, Outcome.calls]
        omega
      | requeueRejected =>
        simp [CrawlStats.record, Outcome.calls]
        omega
      | dropped attempts =>
        simp [CrawlStats.record, Outcome.calls]
        omega
    · rw [hs]
      simp only [react, hq, ht]
      cases o <;> simp only [CrawlStats.record, Outcome.returns] <;> omega

theorem Even.react (h : a.Even) (hp : e.isPoll = false) : (a.react e).Even := by
  by_cases hc : a.world.isCrawling e = true
  · exact h.react_crawled hc (World.react_crawled h.sound hc)
  · rw [Bool.not_eq_true] at hc
    obtain ⟨steps, -, he⟩ := World.react_ended h.sound hc (not_polling h.sound e) (.inr hp)
    exact h.react_ended hc he

theorem Even.run (h : a.Even) (events : List Event) (hp : ∀ e ∈ events, e.isPoll = false) :
    (a.run events).Even := by
  induction events generalizing a with
  | nil => exact h
  | cons e rest ih =>
    exact ih (h.react (hp e List.mem_cons_self)) fun k hk => hp k (List.mem_cons_of_mem e hk)

theorem world_run (a : Account) (events : List Event) :
    (a.run events).world = a.world.play events := by
  induction events generalizing a with
  | nil => rfl
  | cons e rest ih => exact ih (a.react e)

theorem even_opened (s : Setup) : (opened s).Even := by
  have hw : s.world.stats = .zero ∧ s.world.queue = .empty s.queue := by
    simp only [Setup.world, withManager]
    split <;> exact ⟨rfl, rfl⟩
  refine ⟨setup_sound s rfl, ?_, ?_⟩
  · simp only [opened, hw.1]
    rfl
  · simp only [opened, hw.1, hw.2]
    rfl

/-- If only its crawlers poll the queue of a manager, then after any events every item that was
taken has gone through a cycle or is in the midst of one, every cycle has started calls or has put
its item back or dropped it, every item that was accepted came in from outside or was put back, and
every call that was started has ended in one way or is in flight. -/
theorem conserved (s : Setup) (events : List Event) (hp : ∀ e ∈ events, e.isPoll = false) :
    let a := (opened s).run events
    let w := a.world
    w = s.world.play events ∧
    w.queue.taken = w.stats.cycles + w.midCycle ∧
    ((∀ j ∈ w.jobs, j.task.isMidCycle = false) → w.queue.taken = w.stats.cycles) ∧
    w.stats.cycles = a.dispatching + w.stats.requeued + w.stats.dropped ∧
    w.queue.accepted = a.supplied + w.stats.requeued ∧
    w.queue.accepted = w.queue.taken + w.queue.items.length ∧
    w.stats.dispatched =
      w.stats.delivered + w.stats.adapterFailures + w.stats.undelivered + w.inFlight := by
  intro a w
  have h : a.Even := (even_opened s).run events hp
  refine ⟨world_run _ _, h.sound.taken, fun hm => ?_, h.cycles, h.accepted, h.sound.books.count,
    h.sound.dispatched⟩
  have hz : w.midCycle = 0 := by
    rw [midCycle, List.countP_eq_zero]
    intro j hj
    simp [hm j hj]
  rw [h.sound.taken]
  show w.stats.cycles + w.midCycle = w.stats.cycles
  rw [hz, Nat.add_zero]

def lone : Setup :=
  { queue := ⟨0⟩
    monitor := .memory
    partition := { PartitionConfig.standard with crawlerCount := 1 }
    crawler := .standard
    numbered := false
    workload := []
    adapters := []
    results := .empty 1 1 }

def unserved : WorkItem := .fresh ⟨"http", none, "", none, none⟩ "dsp"

def failing : Adapter := ⟨"failing", fun _ => true, fun _ _ _ => ⟨.zero, .error .decode⟩, false⟩

def putBackOnce : List Event :=
  [.launch (.manage ⟨.start, .entering⟩), .step (.turn 0 true), .offer unserved,
    .step (.turn 1 true), .register failing, .step (.turn 1 true), .step (.turn 2 true)]

theorem conserved_putBackOnce :
    (∀ e ∈ putBackOnce, e.isPoll = false) ∧
    ((opened lone).run putBackOnce).world.stats = ⟨2, 1, 0, 0, 0, 1, 0⟩ ∧
    ((opened lone).run putBackOnce).supplied = 1 ∧
    ((opened lone).run putBackOnce).world.queue.accepted =
      ((opened lone).run putBackOnce).supplied +
        ((opened lone).run putBackOnce).world.stats.requeued := by
  have hp : ∀ e ∈ putBackOnce, e.isPoll = false := by decide
  refine ⟨hp, by decide, by decide, ?_⟩
  exact (conserved lone putBackOnce hp).2.2.2.2.1

end Account

end CatalogCrawl

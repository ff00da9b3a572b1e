import CatalogCrawl.Proofs.World.Crawling

namespace CatalogCrawl

namespace Cycle

/-- How a cycle comes out: the adapters that serve the item are to be called, or the failure is noted
and the item put back, if the policy allows it and the queue has room. -/
inductive Verdict (registry : Registry) (queue : WorkQueue) (item : WorkItem) : Cycle → Prop
  | dispatched (n : Nat) (positions : List Nat)
    (h : ∀ i ∈ positions, i ∈ (registry.matching item.protocol).map Prod.fst) :
    Verdict registry queue item ⟨.dispatched n, queue, [], positions⟩
  | requeued (q : WorkQueue)
    (h : queue.offer (item.withError (noAdapterMessage item.protocol)) = (true, q)) :
    Verdict registry queue item ⟨.requeued, q, [.severe (noAdapterMessage item.protocol)], []⟩
  | rejected (q : WorkQueue) (failed : WorkItem)
    (h : queue.offer (item.withError (noAdapterMessage item.protocol)) = (false, q)) :
    Verdict registry queue item ⟨.requeueRejected, q,
      [.severe (noAdapterMessage item.protocol), .severe (rejectedMessage failed)], []⟩
  | dropped (n : Nat) (failed : WorkItem) :
    Verdict registry queue item ⟨.dropped n, queue,
      [.severe (noAdapterMessage item.protocol), .severe (droppedMessage failed)], []⟩

theorem run_verdict (policy : RequeuePolicy) (registry : Registry) (queue : WorkQueue)
    (item : WorkItem) : Verdict registry queue item (run policy registry queue item) := by
  unfold run
  simp only
  split
  · unfold unmatched
    simp only
    split
    · rcases ho : queue.offer (item.withError (noAdapterMessage item.protocol)) with ⟨_ | _, q⟩
      · exact .rejected q _ ho
      · exact .requeued q ho
    · exact .dropped _ _
  · exact .dispatched _ _ fun _ hi => hi

end Cycle

variable {w v : World} {id : TaskId} {t : CrawlTask} {activity : Nat}

namespace World

def rung (w : World) (b : Bell) : World := { w with queue := { w.queue with bell := b } }

def taken (w : World) (rest : List WorkItem) (b : Bell) (activity : Nat) : World :=
  { w with
    queue := { w.queue with items := rest, taken := w.queue.taken + 1, bell := b }
    activities := w.activities.modify activity Activity.start }

def worked (w : World) (t : CrawlTask) (activity : Nat) (item : WorkItem) : World :=
  let c := Cycle.run t.crawler.config.requeue w.registry w.queue item
  { w with
    queue := c.queue
    journal := c.entries.foldl Journal.report w.journal
    jobs := w.jobs ++ callsFrom t.crawler t.results item.request w.nextId c.calls
    nextId := w.nextId + c.calls.length
    stats := w.stats.record c.outcome
    activities := w.activities.modify activity Activity.finish }

end World

namespace CrawlTask

open World

def Searches (w : World) (t : CrawlTask) : Prop :=
  match t.stage with
  | .looking => (w.signal t.signal).raised = false
  | .polling .. => True
  | .matching _ => False

def Polls (t : CrawlTask) (seen : Nat) : Prop :=
  ∃ ticket deadline, t.stage = .polling ticket deadline seen

theorem Polls.searches {seen : Nat} (h : t.Polls seen) (w : World) : t.Searches w := by
  obtain ⟨ticket, deadline, h⟩ := h
  simp [Searches, h]

inductive Round (w : World) (id : TaskId) (t : CrawlTask) : World → Prop
  | rests (h : t.isReady w = false) : t.Round w id w
  | ends (b : Bell) (r : TaskResult) (h : ∀ item, t.stage ≠ .matching item) :
    t.Round w id ((w.rung b).finish id r)
  | again (b : Bell) (seen : Nat) (h : t.Polls seen) :
    t.Round w id ((w.rung b).keepFirst id (.crawl { t with stage := .looking }))
  | waits (b : Bell) (ticket deadline seen : Nat) (h : t.Searches w)
    (hp : t.stage = .looking ∨ t.Polls seen) (hs : (w.signal t.signal).hasNews seen = false) :
    t.Round w id ((w.rung b).keepLast id (.crawl { t with stage := .polling ticket deadline seen }))
  | takes (item : WorkItem) (rest : List WorkItem) (b : Bell) (activity : Nat) (h : t.Searches w)
    (hi : w.queue.items = item :: rest) (hm : t.mode = .steady activity) :
    t.Round w id ((w.taken rest b activity).keepLast id (.crawl { t with stage := .matching item }))
  | works (item : WorkItem) (rest : List WorkItem) (b : Bell) (activity : Nat) (h : t.Searches w)
    (hi : w.queue.items = item :: rest) (hm : t.mode = .steady activity) :
    t.Round w id (t.complete (w.taken rest b activity) id item)
  | completes (item : WorkItem) (activity : Nat) (h : t.stage = .matching item)
    (hm : t.mode = .steady activity) : t.Round w id (t.complete w id item)

theorem complete_eq (hm : t.mode = .steady activity) (w : World) (id : TaskId) (item : WorkItem) :
    t.complete w id item =
      if t.doomed then (w.worked t activity item).finish id .nothing
      else (w.worked t activity item).keepFirst id (.crawl { t with stage := .looking }) := by
  have hw := @work_eq t.crawler t.results w item
  have ho : (w.work t.crawler t.results item).1 =
      (Cycle.run t.crawler.config.requeue w.registry w.queue item).outcome := rfl
  unfold complete
  rcases hv : w.work t.crawler t.results item with ⟨outcome, v⟩
  rw [hv] at hw ho
  simp only at hw ho
  simp only [hm]
  rw [hw, ho]
  rfl

theorem stop_round (h : ∀ item, t.stage ≠ .matching item) (b : Bell) :
    t.Round w id (t.stop (w.rung b) id) :=
  .ends b _ h

theorem takeUp_round (hm : t.mode = .steady activity) (h : t.Searches w) {item : WorkItem}
    {rest : List WorkItem} (hi : w.queue.items = item :: rest) (b : Bell) :
    t.Round w id (t.takeUp { w with
      queue := { w.queue with items := rest, taken := w.queue.taken + 1, bell := b } } id item) := by
  unfold takeUp
  simp only
  split
  · rename_i hf
    cases hm.symm.trans hf
  · rename_i hs
    cases hm.symm.trans hs
  · rename_i k hk
    split
    · exact .takes item rest b k h hi hk
    · exact .works item rest b k h hi hk

theorem heed_round {seen : Nat} (h : ∀ item, t.stage ≠ .matching item)
    (hs : (w.signal t.signal).version ≠ seen → t.Polls seen) (b : Bell) (ticket : Nat) :
    t.Round w id (t.heed (w.rung b) id ticket seen) := by
  unfold heed
  simp only
  split
  · rename_i hn
    exact .again (b.leave ticket) seen (hs (by simpa [rung, World.signal] using hn))
  · exact stop_round h (b.leave ticket)

theorem Searches.no_item (h : t.Searches w) (item : WorkItem) : t.stage ≠ .matching item := by
  intro hs
  simp [Searches, hs] at h

theorem follow_round (hm : t.mode = .steady activity) (h : t.Searches w) {seen : Nat}
    (hs : t.stage = .looking ∧ (w.signal t.signal).version = seen ∨ t.Polls seen)
    (deadline : Nat) (b : Bell) :
    t.Round w id
      (t.follow w id deadline seen ({ w.queue with bell := b } : WorkQueue).attempt) := by
  rcases ({ w.queue with bell := b } : WorkQueue).attempt_cases with
    ⟨item, rest, c, hi, ha⟩ | ⟨c, -, -, ha⟩ | ⟨ticket, c, -, -, ha⟩
  · rw [ha]
    exact takeUp_round hm h hi c
  · rw [ha]
    exact stop_round h.no_item c
  · rw [ha]
    simp only [follow]
    split
    · exact heed_round h.no_item (fun hn => hs.resolve_left fun hl => hn hl.2) c ticket
    · rename_i hn
      exact .waits c ticket deadline seen h (hs.imp_left And.left) (Bool.not_eq_true _ ▸ hn)

theorem look_round (hm : t.mode = .steady activity) (ht : t.stage = .looking)
    (signalFirst : Bool) : t.Round w id (t.look w id signalFirst) := by
  have hn : ∀ item, t.stage ≠ .matching item := by simp [ht]
  unfold look
  simp only
  split
  · exact stop_round hn w.queue.bell
  split
  · exact .ends w.queue.bell _ hn
  · rename_i hr _
    refine follow_round hm ?_ (.inl ⟨ht, rfl⟩) _ w.queue.bell
    simp only [Bool.or_eq_true, not_or, Bool.not_eq_true] at hr
    simpa [Searches, ht] using hr.1

theorem wake_round (hm : t.mode = .steady activity) {ticket deadline seen : Nat}
    (ht : t.stage = .polling ticket deadline seen) (signalFirst : Bool) :
    t.Round w id (t.wake w id ticket deadline seen signalFirst) := by
  have hp : t.Polls seen := ⟨ticket, deadline, ht⟩
  have hn : ∀ item, t.stage ≠ .matching item := by simp [ht]
  unfold wake
  simp only
  split
  · exact heed_round hn (fun _ => hp) w.queue.bell ticket
  split
  · exact follow_round hm (hp.searches w) (.inr hp) deadline _
  split
  · rcases w.queue.expire_cases ticket with ⟨item, rest, b, hi, hx⟩ | ⟨-, hx⟩
    · rw [hx]
      exact takeUp_round hm (hp.searches w) hi b
    · rw [hx]
      simp only
      split
      · exact stop_round hn _
      · exact .again (w.queue.bell.leave ticket) seen hp
  · rename_i hh hr hd
    refine .rests ?_
    simp only [Bool.not_eq_true] at hr
    have hd' : ¬ deadline ≤ w.now := by simpa using hd
    simpa [isReady, ht, hr, hd'] using hh

theorem turn_round (hm : t.mode = .steady activity) (signalFirst : Bool) :
    t.Round w id (t.turn w id signalFirst) := by
  unfold turn
  split
  · rename_i ht
    exact look_round hm ht signalFirst
  · rename_i ht
    exact wake_round hm ht signalFirst
  · rename_i item ht
    split
    · rename_i hg
      exact .rests (by simp [isReady, ht, hg])
    · exact .completes item activity ht hm

end CrawlTask

end CatalogCrawl

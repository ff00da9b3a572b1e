import CatalogCrawl.Proofs.World.Rounds
import CatalogCrawl.Proofs.World.Limits

namespace CatalogCrawl

variable {w v u : World} {id : TaskId}

namespace Signal

/-- What a signal may have become: one who has seen it before it was raised has something to
learn. -/
structure Rises (a b : Signal) : Prop where
  version : a.version ≤ b.version
  raised : a.raised = true → b.raised = true
  told : b.raised = true → a.raised = true ∨ a.version < b.version

variable {a b c : Signal}

theorem Rises.refl (a : Signal) : a.Rises a := ⟨Nat.le_refl _, fun h => h, .inl⟩

theorem Rises.trans (h : a.Rises b) (k : b.Rises c) : a.Rises c := by
  refine ⟨Nat.le_trans h.version k.version, fun hr => k.raised (h.raised hr), fun hr => ?_⟩
  rcases k.told hr with hb | hv
  · exact (h.told hb).imp_right fun hv => Nat.lt_of_lt_of_le hv k.version
  · exact .inr (Nat.lt_of_le_of_lt h.version hv)

/-- One who has seen a version of the signal has something to learn if it is raised. -/
structure Heard (a : Signal) (seen : Nat) : Prop where
  known : seen ≤ a.version
  news : a.raised = true → seen < a.version

theorem heard_version (h : ¬ a.raised = true) : a.Heard a.version :=
  ⟨Nat.le_refl _, fun hr => absurd hr h⟩

theorem Heard.rises {seen : Nat} (h : a.Heard seen) (hr : a.Rises b) : b.Heard seen := by
  refine ⟨Nat.le_trans h.known hr.version, fun hb => ?_⟩
  rcases hr.told hb with ha | hv
  · exact Nat.lt_of_lt_of_le (h.news ha) hr.version
  · exact Nat.lt_of_le_of_lt h.known hv

theorem Heard.hasNews {seen : Nat} (h : a.Heard seen) (hr : a.raised = true) :
    a.hasNews seen = true := by
  rw [Signal.hasNews, bne_iff_ne.2 (Nat.ne_of_gt (h.news hr)), Bool.true_or]

theorem rises_set (a : Signal) : a.Rises (a.set true) :=
  ⟨Nat.le_succ _, fun _ => rfl, fun _ => .inr (Nat.lt_succ_self _)⟩

theorem rises_lose (a : Signal) : a.Rises a.lose := ⟨Nat.le_refl _, fun h => h, .inl⟩

end Signal

namespace World

structure Onward (w v : World) : Prop where
  signals : w.signals.length ≤ v.signals.length
  rises : ∀ i < w.signals.length, (w.signal i).Rises (v.signal i)
  pools : ∀ (k : Nat) (p : Pool), w.pools[k]? = some p →
    ∃ q : Pool, v.pools[k]? = some q ∧ q.signal = p.signal
  crawlerCount : v.manager.crawlerCount = w.manager.crawlerCount

def Raised (w : World) (i : Nat) : Prop := (w.signal i).raised = true

theorem Onward.raised {i : Nat} (h : w.Onward v) (hi : i < w.signals.length) (hr : w.Raised i) :
    v.Raised i :=
  (h.rises i hi).raised hr

theorem Onward.of_eq (hs : v.signals = w.signals) (hp : v.pools = w.pools)
    (hc : v.manager.crawlerCount = w.manager.crawlerCount) : w.Onward v := by
  refine ⟨by rw [hs], fun i hi => ?_, fun k p hk => ⟨p, hp ▸ hk, rfl⟩, hc⟩
  rw [signal, signal, hs]
  exact .refl _

theorem Onward.refl (w : World) : w.Onward w := .of_eq rfl rfl rfl

theorem Onward.trans (h : w.Onward v) (k : v.Onward u) : w.Onward u := by
  refine ⟨Nat.le_trans h.signals k.signals, fun i hi => ?_, fun i p hp => ?_,
    k.crawlerCount.trans h.crawlerCount⟩
  · exact (h.rises i hi).trans (k.rises i (Nat.lt_of_lt_of_le hi h.signals))
  · obtain ⟨q, hq, hs⟩ := h.pools i p hp
    obtain ⟨r, hr, ht⟩ := k.pools i q hq
    exact ⟨r, hr, ht.trans hs⟩

theorem signal_modify (w : World) (i k : Nat) (f : Signal → Signal) (hk : k < w.signals.length) :
    ({ w with signals := w.signals.modify i f } : World).signal k =
      if i = k then f (w.signal k) else w.signal k := by
  simp only [signal, List.getElem?_modify, List.getElem?_eq_getElem hk, Option.map_eq_map]
  split <;> rfl

theorem onward_modify (w : World) (i : Nat) {f : Signal → Signal}
    (hf : ∀ a : Signal, a.Rises (f a)) :
    w.Onward { w with signals := w.signals.modify i f } := by
  refine ⟨by simp, fun k hk => ?_, fun k p hp => ⟨p, hp, rfl⟩, rfl⟩
  rw [signal_modify w i k f hk]
  split
  · exact hf _
  · exact .refl _

theorem onward_setSignal (w : World) (i : Nat) : w.Onward (w.setSignal i true) :=
  w.onward_modify i Signal.rises_set

theorem raised_setSignal {i : Nat} (hi : i < w.signals.length) : (w.setSignal i true).Raised i := by
  rw [Raised, setSignal, signal_modify w i i _ hi, if_pos rfl]
  rfl

theorem onward_loseSignal (w : World) (i : Nat) : w.Onward (w.loseSignal i) :=
  w.onward_modify i Signal.rises_lose

theorem onward_addSignal (w : World) (raised : Bool) : w.Onward (w.addSignal raised).2 := by
  refine ⟨by simp [addSignal], fun i hi => ?_, fun k p hp => ⟨p, hp, rfl⟩, rfl⟩
  have hs : (w.addSignal raised).2.signal i = w.signal i := by
    simp [addSignal, signal, List.getElem?_append_left hi]
  rw [hs]
  exact .refl _

theorem onward_changePool (w : World) (k : Nat) {f : Pool → Pool}
    (hf : ∀ p, (f p).signal = p.signal) : w.Onward (w.changePool k f) := by
  refine ⟨Nat.le_refl _, fun i hi => .refl _, fun i p hp => ?_, rfl⟩
  by_cases h : k = i
  · exact ⟨f p, by simp [changePool, h, hp], hf p⟩
  · exact ⟨p, by simp [changePool, h, hp], rfl⟩

structure Apart (w v : World) : Prop where
  manager : v.manager = w.manager
  pools : v.pools = w.pools
  onward : w.Onward v

namespace Apart

theorem of_eq (hm : v.manager = w.manager) (hp : v.pools = w.pools) (hs : v.signals = w.signals) :
    w.Apart v :=
  ⟨hm, hp, .of_eq hs hp (by rw [hm])⟩

theorem refl (w : World) : w.Apart w := .of_eq rfl rfl rfl

theorem trans (h : w.Apart v) (k : v.Apart u) : w.Apart u :=
  ⟨k.manager.trans h.manager, k.pools.trans h.pools, h.onward.trans k.onward⟩

end Apart

theorem abort_apart (w : World) (id : TaskId) : w.Apart (w.abort id) := by
  obtain ⟨jobs, q, l, ha, -⟩ := w.abort_eq id
  rw [ha]
  exact .of_eq rfl rfl rfl

structure Aloof (id : TaskId) (w v : World) : Prop extends w.Apart v where
  lock : v.refillLock = w.refillLock
  refills : v.queue.refills = w.queue.refills
  others : ∀ j ∈ w.jobs, j.id ≠ id → j ∈ v.jobs

theorem stay_removeJob : ∀ j ∈ w.jobs, j.id ≠ id → j ∈ (w.removeJob id).jobs :=
  fun _ hm hi => mem_jobs_removeJob.2 ⟨hm, hi⟩

theorem stay_keepFirst {t : Task} : ∀ j ∈ w.jobs, j.id ≠ id → j ∈ (w.keepFirst id t).jobs :=
  fun _ hm hi => mem_jobs_keepFirst.2 (.inr ⟨hm, hi⟩)

theorem stay_keepLast {t : Task} : ∀ j ∈ w.jobs, j.id ≠ id → j ∈ (w.keepLast id t).jobs :=
  fun _ hm hi => mem_jobs_keepLast.2 (.inl ⟨hm, hi⟩)

theorem stay_keepInPlace {t : Task} :
    ∀ j ∈ w.jobs, j.id ≠ id → j ∈ (w.keepInPlace id t).jobs :=
  fun j hm hi => List.mem_map.2 ⟨j, hm, if_neg (by simpa using hi)⟩

namespace Aloof

theorem of_eq (hm : v.manager = w.manager) (hp : v.pools = w.pools) (hs : v.signals = w.signals)
    (hl : v.refillLock = w.refillLock) (hq : v.queue.refills = w.queue.refills)
    (hj : ∀ j ∈ w.jobs, j.id ≠ id → j ∈ v.jobs) : w.Aloof id v :=
  ⟨.of_eq hm hp hs, hl, hq, hj⟩

theorem refl (w : World) : w.Aloof id w := .of_eq rfl rfl rfl rfl rfl fun _ hm _ => hm

theorem trans (h : w.Aloof id v) (k : v.Aloof id u) : w.Aloof id u :=
  ⟨h.toApart.trans k.toApart, k.lock.trans h.lock, k.refills.trans h.refills,
    fun j hm hi => k.others j (h.others j hm hi) hi⟩

theorem pass (hm : v.manager = w.manager) (hp : v.pools = w.pools) (hs : v.signals = w.signals)
    (hl : v.refillLock = w.refillLock) (hq : v.queue.refills = w.queue.refills)
    (hj : v.jobs = w.jobs) : w.Aloof id v :=
  .of_eq hm hp hs hl hq fun _ hk _ => hj ▸ hk

end Aloof

end World

open World

namespace CrawlTask

variable {t : CrawlTask} {activity : Nat}

theorem refills_worked (w : World) (t : CrawlTask) (activity : Nat) (item : WorkItem) :
    (w.worked t activity item).queue.refills = w.queue.refills := by
  rcases Cycle.run_queue t.crawler.config.requeue w.registry w.queue item with
    ⟨hq, -⟩ | ⟨failed, hq, -⟩
  · exact congrArg WorkQueue.refills hq
  · exact (congrArg WorkQueue.refills hq).trans (w.queue.refills_offer failed)

theorem complete_aloof (hm : t.mode = .steady activity) (w : World) (item : WorkItem) :
    w.Aloof id (t.complete w id item) := by
  have hw : w.Aloof id (w.worked t activity item) :=
    .of_eq rfl rfl rfl rfl (refills_worked w t activity item) fun j hj _ =>
      List.mem_append_left _ hj
  rw [complete_eq hm]
  split
  · exact hw.trans (.of_eq rfl rfl rfl rfl rfl stay_removeJob)
  · exact hw.trans (.of_eq rfl rfl rfl rfl rfl stay_keepFirst)

theorem Round.aloof (h : t.Round w id v) : w.Aloof id v := by
  cases h with
  | rests => exact .refl w
  | ends => exact .of_eq rfl rfl rfl rfl rfl stay_removeJob
  | again => exact .of_eq rfl rfl rfl rfl rfl stay_keepFirst
  | waits => exact .of_eq rfl rfl rfl rfl rfl stay_keepLast
  | takes => exact .of_eq rfl rfl rfl rfl rfl stay_keepLast
  | works item rest b activity _ _ hm =>
    have hw : w.Aloof id (w.taken rest b activity) := .pass rfl rfl rfl rfl rfl rfl
    exact hw.trans (complete_aloof hm _ item)
  | completes item activity _ hm => exact complete_aloof hm w item

end CrawlTask

namespace CallTask

theorem deliver_aloof (w : World) (t : CallTask) (d : Delivery) :
    w.Aloof id (t.deliver w id d) := by
  unfold deliver
  split
  · exact .of_eq rfl rfl rfl rfl rfl stay_removeJob
  · rcases d.attempt _ with ⟨_ | _ | _, q⟩
    · exact .of_eq rfl rfl rfl rfl rfl stay_removeJob
    · exact .of_eq rfl rfl rfl rfl rfl stay_removeJob
    · simp only
      split
      · exact .of_eq rfl rfl rfl rfl rfl stay_keepFirst
      · exact .of_eq rfl rfl rfl rfl rfl stay_keepLast

theorem ask_aloof (w : World) (t : CallTask) : w.Aloof id (t.ask w id) := by
  unfold ask
  split
  · exact .of_eq rfl rfl rfl rfl rfl stay_removeJob
  · simp only
    split
    · exact .of_eq rfl rfl rfl rfl rfl stay_keepFirst
    · exact .of_eq rfl rfl rfl rfl rfl stay_keepLast

theorem answer_aloof (w : World) (t : CallTask) (outcome : Except AdapterFault Response) :
    w.Aloof id (t.answer w id outcome) := by
  cases outcome with
  | error fault => exact .of_eq rfl rfl rfl rfl rfl stay_removeJob
  | ok r =>
    have hw : w.Aloof id (w.report (.info (receivedMessage r))) := .pass rfl rfl rfl rfl rfl rfl
    exact hw.trans (deliver_aloof _ t _)

theorem turn_aloof (w : World) (t : CallTask) : w.Aloof id (t.turn w id) := by
  unfold turn
  split
  · exact ask_aloof w t
  · split
    · exact answer_aloof w t _
    split
    · exact .of_eq rfl rfl rfl rfl rfl stay_keepInPlace
    · exact .refl w
  · split
    · exact deliver_aloof w t _
    · exact .refl w

end CallTask

namespace World

theorem saveOffer_aloof (w : World) (o : Offer) : w.Aloof id (w.saveOffer o) := by
  unfold saveOffer look
  cases w.clock <;> exact .pass rfl rfl rfl rfl rfl rfl

theorem expireOffers_aloof (w : World) (ttl : Span) : w.Aloof id (w.expireOffers ttl) := by
  unfold expireOffers look
  cases w.clock <;> exact .pass rfl rfl rfl rfl rfl rfl

end World

namespace LoadTask

theorem goOn_aloof (w : World) (t : LoadTask) (r : Response) (left : List Offer) :
    w.Aloof id (t.goOn w id r left) := by
  unfold goOn
  split
  · exact .of_eq rfl rfl rfl rfl rfl stay_keepFirst
  · exact .of_eq rfl rfl rfl rfl rfl stay_keepFirst

theorem turn_aloof (w : World) (t : LoadTask) : w.Aloof id (t.turn w id) := by
  unfold turn
  split
  · unfold receive
    split
    · exact Aloof.trans (v := w.setResults _ _) (.pass rfl rfl rfl rfl rfl rfl) (goOn_aloof _ t _ _)
    split
    · exact .of_eq rfl rfl rfl rfl rfl stay_removeJob
    · exact .of_eq rfl rfl rfl rfl rfl stay_keepLast
  · exact goOn_aloof w t _ _
  · exact (saveOffer_aloof w _).trans (goOn_aloof _ t _ _)

end LoadTask

theorem EvictionTask.turn_aloof (w : World) (t : EvictionTask) (signalFirst : Bool) :
    w.Aloof id (t.turn w id signalFirst) := by
  unfold turn
  split
  · split
    · exact .of_eq rfl rfl rfl rfl rfl stay_removeJob
    · exact .of_eq rfl rfl rfl rfl rfl stay_keepLast
  · simp only
    split
    · exact .of_eq rfl rfl rfl rfl rfl stay_removeJob
    split
    · exact (expireOffers_aloof w t.ttl).trans (.of_eq rfl rfl rfl rfl rfl stay_keepLast)
    · exact .refl w

namespace WindDown

theorem skip_aloof (w : World) (timeout : Span) (left : List TaskId) :
    w.Aloof id (skip w timeout left).1 := by
  induction left generalizing w with
  | nil => exact .refl w
  | cons task rest ih =>
    unfold skip
    split
    · exact ih w
    split
    · exact Aloof.trans (v := w.warn (lateMessage timeout)) (.pass rfl rfl rfl rfl rfl rfl) (ih _)
    · exact .refl w

theorem awaitNext_aloof (w : World) (timeout : Span) (left : List TaskId) :
    w.Aloof id (awaitNext w id timeout left) := by
  have hs : w.Aloof id (skip w timeout left).1 := skip_aloof w timeout left
  unfold awaitNext
  rcases hv : skip w timeout left with ⟨v, _ | ⟨task, rest⟩⟩
  · rw [hv] at hs
    exact hs.trans (.of_eq rfl rfl rfl rfl rfl stay_removeJob)
  · rw [hv] at hs
    exact hs.trans (.of_eq rfl rfl rfl rfl rfl stay_keepLast)

theorem signalAll_aloof (w : World) (timeout : Span) (left : List TaskId) :
    w.Aloof id (signalAll w id timeout left) := by
  have hr : w.Aloof id (w.setSignal w.background.signal true) :=
    ⟨⟨rfl, rfl, w.onward_setSignal w.background.signal⟩, rfl, rfl, fun _ hj _ => hj⟩
  exact hr.trans (awaitNext_aloof _ timeout _)

theorem drain_aloof (w : World) (timeout : Span) (deadline : Nat) :
    w.Aloof id (drain w id timeout deadline) := by
  unfold drain
  split
  · exact signalAll_aloof w timeout _
  split
  · exact signalAll_aloof w timeout _
  split
  · exact Aloof.trans (v := w.warn (openMessage timeout)) (.pass rfl rfl rfl rfl rfl rfl)
      (signalAll_aloof _ timeout _)
  · exact .of_eq rfl rfl rfl rfl rfl stay_keepLast

theorem turn_aloof (w : World) (t : WindDown) : w.Aloof id (turn w id t) := by
  unfold turn
  split
  · exact drain_aloof w _ _
  · exact drain_aloof w _ _
  · split
    · exact .of_eq rfl rfl rfl rfl rfl stay_removeJob
    split
    · exact awaitNext_aloof w _ _
    split
    · exact Aloof.trans (v := w.warn (lateMessage _)) (.pass rfl rfl rfl rfl rfl rfl)
        (awaitNext_aloof _ _ _)
    · exact .refl w

end WindDown

namespace World

theorem sendTurn_aloof (w : World) (results : Nat) (r : Response) (due : Nat) :
    w.Aloof id (w.sendTurn id results r due) := by
  unfold sendTurn
  split
  · split
    · exact .of_eq rfl rfl rfl rfl rfl stay_removeJob
    · split <;> exact .of_eq rfl rfl rfl rfl rfl stay_removeJob
  · exact .refl w

theorem followPoll_aloof (w : World) (deadline : Nat) {r : WorkQueue.Attempt × WorkQueue}
    (hr : r.2.refills = w.queue.refills) : w.Aloof id (w.followPoll id deadline r) := by
  rcases r with ⟨_ | _ | _, q⟩
  · exact .of_eq rfl rfl rfl rfl hr stay_removeJob
  · exact .of_eq rfl rfl rfl rfl hr stay_removeJob
  · exact .of_eq rfl rfl rfl rfl hr stay_keepLast

theorem pollTurn_aloof (w : World) (ticket : Option Nat) (deadline : Nat) :
    w.Aloof id (w.pollTurn id ticket deadline) := by
  cases ticket with
  | none =>
    rw [pollTurn_none]
    exact followPoll_aloof w deadline w.queue.refills_attempt
  | some ticket =>
    rw [pollTurn_some]
    split
    · exact followPoll_aloof w deadline (WorkQueue.refills_attempt _)
    split
    · exact .of_eq rfl rfl rfl rfl (w.queue.refills_expire ticket) stay_removeJob
    · exact .refl w

theorem idleTurn_aloof (w : World) (activity deadline : Nat) :
    w.Aloof id (w.idleTurn id activity deadline) := by
  unfold idleTurn
  split
  · exact .of_eq rfl rfl rfl rfl rfl stay_removeJob
  split
  · exact .of_eq rfl rfl rfl rfl rfl stay_removeJob
  · exact .refl w

end World

namespace PlanTask

theorem act_apart (w : World) (t : PlanTask) : w.Apart (t.act w id) := by
  unfold act
  simp only
  split
  · split <;> exact .of_eq rfl rfl rfl
  · split <;> exact .of_eq rfl rfl rfl

theorem turn_apart (w : World) (t : PlanTask) (signalFirst : Bool) :
    w.Apart (t.turn w id signalFirst) := by
  unfold turn
  split
  · unfold look
    simp only
    split
    · exact .of_eq rfl rfl rfl
    split
    · exact act_apart w t
    · exact .of_eq rfl rfl rfl
  · simp only
    split
    · split <;> exact .of_eq rfl rfl rfl
    split
    · exact act_apart w t
    · exact .refl w
  · split <;> exact .of_eq rfl rfl rfl
  · split <;> exact .of_eq rfl rfl rfl

end PlanTask

namespace World

theorem refillTurn_apart (w : World) (items : List WorkItem) (entered : Bool) :
    w.Apart (w.refillTurn id items entered) := by
  unfold refillTurn
  cases entered with
  | true =>
    simp only [if_true]
    split <;> exact .of_eq rfl rfl rfl
  | false =>
    simp only [Bool.false_eq_true, if_false]
    split <;> exact .of_eq rfl rfl rfl

theorem lockTurn_apart (w : World) (deadline : Nat) (entered : Bool) :
    w.Apart (w.lockTurn id deadline entered) := by
  unfold lockTurn
  cases entered with
  | true =>
    simp only [if_true]
    split
    · exact .of_eq rfl rfl rfl
    · split <;> exact .of_eq rfl rfl rfl
  | false =>
    simp only [Bool.false_eq_true, if_false]
    split
    · exact .of_eq rfl rfl rfl
    · split <;> exact .of_eq rfl rfl rfl

end World

namespace Task

def usesLock : Task → Bool
  | .plan _ | .refill .. | .lock .. => true
  | _ => false

def IsSteady : Task → Prop
  | .crawl t => ∃ activity, t.mode = .steady activity
  | _ => True

variable {t : Task}

theorem turn_aloof (h : t.isManage = false) (hl : t.usesLock = false) (hs : t.IsSteady) (w : World)
    (signalFirst : Bool) : w.Aloof id (t.turn w id signalFirst) := by
  cases t with
  | crawl t =>
    obtain ⟨activity, hm⟩ := hs
    exact (t.turn_round hm signalFirst).aloof
  | call t => exact t.turn_aloof w
  | plan t => cases hl
  | load t => exact t.turn_aloof w
  | evict t => exact t.turn_aloof w signalFirst
  | manage t => cases h
  | windDown t => exact t.turn_aloof w
  | send results r due => exact sendTurn_aloof w results r due
  | poll ticket deadline => exact pollTurn_aloof w ticket deadline
  | refill items entered => cases hl
  | lock deadline entered => cases hl
  | awaitIdle activity deadline => exact idleTurn_aloof w activity deadline

theorem turn_apart (h : t.isManage = false) (hs : t.IsSteady) (w : World) (signalFirst : Bool) :
    w.Apart (t.turn w id signalFirst) := by
  cases hl : t.usesLock with
  | false => exact (turn_aloof h hl hs w signalFirst).toApart
  | true =>
    cases t with
    | plan t => exact t.turn_apart w signalFirst
    | refill items entered => exact refillTurn_apart w items entered
    | lock deadline entered => exact lockTurn_apart w deadline entered
    | _ => cases hl

end Task

end CatalogCrawl

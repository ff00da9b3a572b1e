import CatalogCrawl.Proofs.World.Moving

namespace CatalogCrawl

def Outcome.EndsCycle (o : Outcome) : Prop := o ≠ .stopped ∧ o ≠ .dispatched 0

def Outcome.returns : Outcome → Nat
  | .requeued => 1
  | _ => 0

namespace Cycle

variable {policy : RequeuePolicy} {registry : Registry} {queue : WorkQueue} {item : WorkItem}

theorem lt_size_of_matching {protocol : String} {a : Nat}
    (h : a ∈ (registry.matching protocol).map Prod.fst) : a < registry.size := by
  obtain ⟨⟨i, adapter⟩, hm, rfl⟩ := List.mem_map.1 h
  obtain ⟨⟨b, k⟩, hz, hs⟩ := List.mem_filterMap.1 hm
  have hk : k = i := by
    simp only [Option.ite_none_right_eq_some, Option.some.injEq, Prod.mk.injEq] at hs
    exact hs.2.1
  have hl := List.snd_lt_of_mem_zipIdx hz
  rw [hk] at hl
  simpa [Registry.size, Registry.toList] using hl

theorem run_queue (policy : RequeuePolicy) (registry : Registry) (queue : WorkQueue)
    (item : WorkItem) :
    ((run policy registry queue item).queue = queue ∧
      (run policy registry queue item).outcome.returns = 0) ∨
    ∃ failed, (run policy registry queue item).queue = (queue.offer failed).2 ∧
      (run policy registry queue item).outcome.returns = if (queue.offer failed).1 then 1 else 0 := by
  unfold run
  simp only
  split
  · unfold unmatched
    simp only
    split
    · refine .inr ⟨item.withError (noAdapterMessage item.protocol), ?_⟩
      rcases ho : queue.offer (item.withError (noAdapterMessage item.protocol)) with ⟨_ | _, q⟩
      · exact ⟨rfl, rfl⟩
      · exact ⟨rfl, rfl⟩
    · exact .inl ⟨rfl, rfl⟩
  · exact .inl ⟨rfl, rfl⟩

theorem taken_run (policy : RequeuePolicy) (registry : Registry) (queue : WorkQueue)
    (item : WorkItem) : (run policy registry queue item).queue.taken = queue.taken := by
  rcases run_queue policy registry queue item with ⟨hq, -⟩ | ⟨failed, hq, -⟩
  · rw [hq]
  · rw [hq]
    exact (queue.offer_admits failed).taken

theorem run_outcome (policy : RequeuePolicy) (registry : Registry) (queue : WorkQueue)
    (item : WorkItem) :
    (run policy registry queue item).outcome.EndsCycle ∧
      (run policy registry queue item).calls.length =
        (run policy registry queue item).outcome.calls ∧
      ∀ a ∈ (run policy registry queue item).calls, a < registry.size := by
  unfold run
  simp only
  split
  · unfold unmatched
    simp only
    split
    · split <;> exact ⟨⟨by simp, by simp⟩, rfl, fun a ha => by cases ha⟩
    · exact ⟨⟨by simp, by simp⟩, rfl, fun a ha => by cases ha⟩
  · rename_i hp
    refine ⟨⟨by simp, fun he => hp ?_⟩, rfl, fun a ha => lt_size_of_matching ha⟩
    have hl : ((registry.matching item.protocol).map Prod.fst).length = 0 := by
      simpa using he
    rw [List.length_eq_zero_iff] at hl
    rw [hl]
    rfl

end Cycle

theorem WorkQueue.accepted_offer (q : WorkQueue) (item : WorkItem) :
    (q.offer item).2.accepted = q.accepted + if (q.offer item).1 then 1 else 0 := by
  have ha := (q.offer_admits item).accepted
  rw [ha]
  split <;> rfl

def callsFrom (crawler : Crawler) (results : Nat) (r : Request) : TaskId → List Nat → List Job
  | _, [] => []
  | id, a :: rest =>
    ⟨id, .call ⟨crawler, results, a, r, .starting⟩⟩ :: callsFrom crawler results r (id + 1) rest

section Calls

variable {crawler : Crawler} {results : Nat} {r : Request} {id : TaskId} {adapters : List Nat}

theorem ids_callsFrom : (callsFrom crawler results r id adapters).map Job.id =
    List.range' id adapters.length := by
  induction adapters generalizing id with
  | nil => rfl
  | cons a rest ih =>
    rw [callsFrom, List.map_cons, ih, List.length_cons, List.range'_succ]

theorem total_callsFrom : Job.total (callsFrom crawler results r id adapters) =
    .ofCalls (List.range' id adapters.length : List TaskId) := by
  induction adapters generalizing id with
  | nil => rfl
  | cons a rest ih =>
    rw [callsFrom, Job.total_cons, ih, List.length_cons, List.range'_succ]
    rfl

theorem task_of_mem_callsFrom {j : Job} (h : j ∈ callsFrom crawler results r id adapters) :
    ∃ a ∈ adapters, j.task = .call ⟨crawler, results, a, r, .starting⟩ := by
  induction adapters generalizing id with
  | nil => cases h
  | cons a rest ih =>
    rcases List.mem_cons.1 h with rfl | h
    · exact ⟨a, List.mem_cons_self, rfl⟩
    · obtain ⟨b, hb, ht⟩ := ih h
      exact ⟨b, List.mem_cons_of_mem a hb, ht⟩

theorem startCalls_eq (w : World) : w.startCalls crawler results r adapters =
    { w with
      jobs := w.jobs ++ callsFrom crawler results r w.nextId adapters
      nextId := w.nextId + adapters.length } := by
  induction adapters generalizing w with
  | nil => simp [World.startCalls, callsFrom]
  | cons a rest ih =>
    have hi := ih (w.spawn (.call ⟨crawler, results, a, r, .starting⟩)).2
    simp only [World.startCalls, List.foldl_cons] at hi ⊢
    rw [hi]
    simp only [World.spawn, callsFrom, List.append_assoc, List.singleton_append, List.length_cons]
    rw [Nat.add_assoc, Nat.add_comm 1]

theorem foldl_report_eq (w : World) (entries : List Entry) : entries.foldl World.report w =
    { w with journal := entries.foldl Journal.report w.journal } := by
  induction entries generalizing w with
  | nil => rfl
  | cons e rest ih =>
    rw [List.foldl_cons, ih]
    rfl

theorem work_eq (w : World) (item : WorkItem) : (w.work crawler results item).2 =
    { w with
      queue := (Cycle.run crawler.config.requeue w.registry w.queue item).queue
      journal := (Cycle.run crawler.config.requeue w.registry w.queue item).entries.foldl
        Journal.report w.journal
      jobs := w.jobs ++ callsFrom crawler results item.request w.nextId
        (Cycle.run crawler.config.requeue w.registry w.queue item).calls
      nextId := w.nextId +
        (Cycle.run crawler.config.requeue w.registry w.queue item).calls.length } := by
  simp only [World.work]
  rw [foldl_report_eq, startCalls_eq]

end Calls

namespace World

variable {w v : World} {own : Option TaskId} {hand : Burden} {served : Served} {id : TaskId}

def Cycled (w w' : World) : Prop :=
  (w'.stats = w.stats ∧ w'.queue.accepted = w.queue.accepted) ∨
    ∃ o : Outcome, o.EndsCycle ∧ w'.stats = w.stats.record o ∧
      w'.queue.accepted = w.queue.accepted + o.returns

theorem Sound.work {t : CrawlTask} (h : w.Sound own .ofItem served)
    (hl : t.results < w.results.length) (item : WorkItem) :
    let c := Cycle.run t.crawler.config.requeue w.registry w.queue item
    let u := (w.work t.crawler t.results item).2
    ({ u with stats := u.stats.record c.outcome } : World).Sound own 0 served := by
  intro c u
  obtain ⟨ho, hn, ha⟩ := Cycle.run_outcome t.crawler.config.requeue w.registry w.queue item
  rw [show u = _ from work_eq w item]
  refine h.hire (callsFrom t.crawler t.results item.request w.nextId c.calls) rfl ?_ ?_
    (Nat.le_add_right _ _) ?_ (fun i hi => by cases hi) ?_ (fun task hm => hm) rfl rfl
  · rw [ids_callsFrom]
    exact List.nodup_range'
  · intro j hj
    have hm : j.id ∈ List.range' w.nextId c.calls.length := by
      rw [← ids_callsFrom ]
      exact List.mem_map_of_mem hj
    rw [List.mem_range'_1] at hm
    exact hm
  · intro b hb
    have hq : Books c.queue w.stats (.ofItem + b) served := by
      rcases Cycle.run_queue t.crawler.config.requeue w.registry w.queue item with
        ⟨hq, -⟩ | ⟨failed, hq, -⟩
      · exact hq ▸ hb
      · exact hq ▸ hb.offer failed
    rw [total_callsFrom, zero_add]
    exact hq.record _ ho.1 (by simpa using hn)
  · intro j hj b
    obtain ⟨a, hm, ht⟩ := task_of_mem_callsFrom hj
    rw [ht]
    exact ⟨ha a hm, hl⟩

theorem cycled_work (t : CrawlTask) (item : WorkItem) :
    let c := Cycle.run t.crawler.config.requeue w.registry w.queue item
    let u := (w.work t.crawler t.results item).2
    w.Cycled { u with stats := u.stats.record c.outcome } := by
  intro c u
  have hu : u.queue = c.queue ∧ u.stats = w.stats := by
    rw [show u = _ from work_eq w item]
    exact ⟨rfl, rfl⟩
  refine .inr ⟨c.outcome, (Cycle.run_outcome _ _ _ _).1, by rw [hu.2], ?_⟩
  show u.queue.accepted = _
  rw [hu.1]
  rcases Cycle.run_queue t.crawler.config.requeue w.registry w.queue item with
    ⟨hq, hr⟩ | ⟨failed, hq, hr⟩
  · rw [hq, hr]
    rfl
  · rw [hq, hr]
    exact w.queue.accepted_offer failed

theorem Cycled.of_eq (hs : v.stats = w.stats) (hq : v.queue.accepted = w.queue.accepted) :
    w.Cycled v :=
  .inl ⟨hs, hq⟩

theorem Cycled.congr {u u' : World} (h : w.Cycled v) (hs : w.stats = u.stats)
    (hq : w.queue.accepted = u.queue.accepted) (hs' : u'.stats = v.stats)
    (hq' : u'.queue.accepted = v.queue.accepted) : u.Cycled u' := by
  rcases h with ⟨h, k⟩ | ⟨o, ho, h, k⟩
  · exact .inl ⟨hs'.trans (h.trans hs), hq'.trans (k.trans hq)⟩
  · exact .inr ⟨o, ho, hs'.trans (h.trans (by rw [hs])), hq'.trans (k.trans (by rw [hq]))⟩

structure Crawled (served : Served) (w w' : World) : Prop where
  sound : w'.Sound none 0 served
  cycled : w.Cycled w'
  accord : w'.accord = w.accord

end World

namespace CrawlTask

open World

variable {w : World} {served : Served} {id : TaskId} {t : CrawlTask}

def Steady (w : World) (t : CrawlTask) : Prop :=
  (∃ activity, t.mode = .steady activity) ∧ t.results < w.results.length

theorem stop_crawled (h : w.Sound (some id) 0 served) : Crawled served w (t.stop w id) :=
  ⟨h.finish _, .of_eq rfl rfl, w.accord_finish (by cases t.mode <;> rfl)⟩

theorem lookAgain_crawled (h : w.Sound (some id) 0 served) (ht : t.Steady w) :
    Crawled served w (w.keepFirst id (.crawl { t with stage := .looking })) :=
  ⟨h.keepFirst rfl ht, .of_eq rfl rfl, rfl⟩

theorem complete_crawled (h : w.Sound (some id) .ofItem served) (ht : t.Steady w)
    (item : WorkItem) : Crawled served w (t.complete w id item) := by
  obtain ⟨⟨activity, hm⟩, hl⟩ := ht
  have hs := h.work hl item
  have hc := cycled_work (w := w) t item
  simp only at hs hc
  have hu : (w.work t.crawler t.results item).1 =
      (Cycle.run t.crawler.config.requeue w.registry w.queue item).outcome := rfl
  have hr : (w.work t.crawler t.results item).2.results.length = w.results.length := by
    rw [work_eq]
  have hk : (w.work t.crawler t.results item).2.accord = w.accord := by
    rw [work_eq]
    rfl
  unfold complete
  rcases hw : w.work t.crawler t.results item with ⟨outcome, u⟩
  rw [hw] at hs hc hu hr hk
  subst hu
  simp only [hm]
  have hp := hs.pass (v := ({ u with stats := u.stats.record _ } : World).changeActivity activity
    Activity.finish) rfl rfl rfl rfl rfl rfl rfl rfl
  split
  · exact ⟨hp.finish _, hc.congr rfl rfl rfl rfl, hk⟩
  · exact ⟨hp.keepFirst rfl ⟨⟨activity, rfl⟩, hr ▸ hl⟩, hc.congr rfl rfl rfl rfl, hk⟩

theorem takeUp_crawled (h : w.Sound (some id) .ofItem served) (ht : t.Steady w)
    (item : WorkItem) : Crawled served w (t.takeUp w id item) := by
  obtain ⟨⟨activity, hm⟩, hl⟩ := ht
  have hp := h.pass (v := w.changeActivity activity Activity.start) rfl rfl rfl rfl rfl rfl rfl rfl
  unfold takeUp
  simp only [hm]
  split
  · exact ⟨hp.keepLast rfl ⟨⟨activity, rfl⟩, hl⟩, .of_eq rfl rfl, rfl⟩
  · obtain ⟨hs, hc, hk⟩ := complete_crawled hp ⟨⟨activity, hm⟩, hl⟩ item
    exact ⟨hs, hc.congr rfl rfl rfl rfl, hk⟩

theorem heed_crawled {ticket : Nat} (h : w.Sound (some id) (.ofTicket ticket) served)
    (ht : t.Steady w) (seen : Nat) : Crawled served w (t.heed w id ticket seen) := by
  have hcancel : ({ w with queue := w.queue.cancel ticket } : World).Sound (some id) 0 served :=
    h.setQueue (fun b hb => by rw [zero_add]; exact hb.cancel) fun i hi => hi
  unfold heed
  simp only
  split
  · obtain ⟨hs, hc, hk⟩ := lookAgain_crawled hcancel ht
    exact ⟨hs, hc.congr rfl rfl rfl rfl, hk⟩
  · obtain ⟨hs, hc, hk⟩ := stop_crawled (t := t) hcancel
    exact ⟨hs, hc.congr rfl rfl rfl rfl, hk⟩

theorem follow_crawled {a : WorkQueue.Attempt} {q : WorkQueue}
    (h : ({ w with queue := q } : World).Sound (some id) a.burden served) (ht : t.Steady w)
    (hq : q.accepted = w.queue.accepted) (deadline seen : Nat) :
    Crawled served w (t.follow w id deadline seen (a, q)) := by
  rcases a with item | _ | ticket
  · obtain ⟨hs, hc, hk⟩ := takeUp_crawled h ht item
    exact ⟨hs, hc.congr rfl hq rfl rfl, hk⟩
  · obtain ⟨hs, hc, hk⟩ := stop_crawled (t := t) h
    exact ⟨hs, hc.congr rfl hq rfl rfl, hk⟩
  · simp only [follow]
    split
    · obtain ⟨hs, hc, hk⟩ := heed_crawled h ht seen
      exact ⟨hs, hc.congr rfl hq rfl rfl, hk⟩
    · exact ⟨h.keepLast rfl ht, .of_eq rfl hq, rfl⟩

theorem accepted_attempt (q : WorkQueue) : q.attempt.2.accepted = q.accepted := by
  rcases q.attempt_effect with ⟨item, -, hg⟩ | ⟨-, hg⟩
  · exact hg.accepted
  · exact hg.accepted

theorem look_crawled (h : w.Sound (some id) 0 served) (ht : t.Steady w) (signalFirst : Bool) :
    Crawled served w (t.look w id signalFirst) := by
  unfold look
  simp only
  split
  · exact stop_crawled h
  split
  · exact ⟨h.finish _, .of_eq rfl rfl, w.accord_finish rfl⟩
  · refine follow_crawled (h.setQueue (fun b hb => ?_) fun i hi => ?_) ht
      (accepted_attempt w.queue) _ _
    · rw [zero_add] at hb
      exact hb.attempt
    · rw [WorkQueue.Attempt.calls_burden] at hi
      exact hi

theorem wake_crawled (h : w.Sound none 0 served) {ticket : Nat}
    (hb : w.Sound (some id) (.ofTicket ticket) served) (ht : t.Steady w) (deadline seen : Nat)
    (signalFirst : Bool) : Crawled served w (t.wake w id ticket deadline seen signalFirst) := by
  unfold wake
  simp only
  split
  · exact heed_crawled hb ht seen
  · split
    · rename_i hr
      refine follow_crawled (hb.setQueue (fun b hb => hb.woken hr) fun i hi => ?_) ht
        (accepted_attempt _) deadline seen
      rw [WorkQueue.Attempt.calls_burden] at hi
      exact hi
    · split
      · have he : ({ w with queue := (w.queue.expire ticket).2 } : World).Sound (some id)
            (.ofFound (w.queue.expire ticket).1) served := by
          refine hb.setQueue (fun b hb => hb.expire) fun i hi => ?_
          rw [Burden.calls_ofFound] at hi
          exact hi
        have ha : (w.queue.expire ticket).2.accepted = w.queue.accepted := by
          rcases w.queue.expire_effect ticket with ⟨item, -, hg⟩ | ⟨-, hg⟩
          · exact hg.accepted
          · exact hg.accepted
        rcases hx : w.queue.expire ticket with ⟨_ | item, q⟩
        · rw [hx] at he ha
          simp only
          split
          · obtain ⟨hs, hc, hk⟩ := stop_crawled (t := t) he
            exact ⟨hs, hc.congr rfl ha rfl rfl, hk⟩
          · obtain ⟨hs, hc, hk⟩ := lookAgain_crawled he ht
            exact ⟨hs, hc.congr rfl ha rfl rfl, hk⟩
        · rw [hx] at he ha
          obtain ⟨hs, hc, hk⟩ := takeUp_crawled he ht item
          exact ⟨hs, hc.congr rfl ha rfl rfl, hk⟩
      · exact ⟨h, .of_eq rfl rfl, rfl⟩

theorem turn_crawled (h : w.Sound none 0 served) (hb : w.Sound (some id) t.stage.burden served)
    (ht : t.Steady w) (signalFirst : Bool) : Crawled served w (t.turn w id signalFirst) := by
  unfold turn
  split
  · rename_i hs
    rw [hs] at hb
    exact look_crawled hb ht signalFirst
  · rename_i ticket deadline seen hs
    rw [hs] at hb
    exact wake_crawled h hb ht deadline seen signalFirst
  · rename_i item hs
    rw [hs] at hb
    split
    · exact ⟨h, .of_eq rfl rfl, rfl⟩
    · exact complete_crawled hb ht item

end CrawlTask

namespace CallTask

open World

variable {w : World} {served : Served} {id : TaskId} {t : CallTask}

theorem conclude_ended (h : w.Sound (some id) (.ofCalls {id}) served) (o : CallOutcome) :
    Ended [] served w (conclude w id o) := by
  have hs : ({ w with stats := w.stats.recordCall o } : World).Sound (some id) 0 served :=
    h.alter rfl rfl (fun b hb => by rw [zero_add]; exact hb.conclude o) (fun i hi => by cases hi)
      (fun hi => hi) (fun _ hm => hm) (Nat.le_refl _) (Nat.le_refl _)
  have hsum : w.stats.delivered + w.stats.adapterFailures + w.stats.undelivered ≤
      (w.stats.recordCall o).delivered + (w.stats.recordCall o).adapterFailures +
        (w.stats.recordCall o).undelivered := by
    cases o <;> simp only [CrawlStats.recordCall] <;> omega
  refine ⟨⟨?_, ?_, ?_, ?_, hsum, rfl, Nat.le_refl _⟩, hs.finish _, rfl⟩
  all_goals cases o <;> rfl

theorem deliver_ended (h : w.Sound (some id) (.ofCalls {id}) served)
    (hf : (Task.call t).Fit w (w.burden (some id) (.ofCalls {id})) served) (d : Delivery) :
    Ended [] served w (t.deliver w id d) := by
  obtain ⟨ha, hl⟩ := hf
  unfold deliver
  rw [List.getElem?_eq_getElem hl]
  simp only
  have hs (q : ResultQueue) : (w.setResults t.results q).Sound (some id) (.ofCalls {id}) served :=
    h.pass rfl rfl rfl rfl rfl rfl rfl (by simp [setResults])
  have hr (q : ResultQueue) : t.results < (w.setResults t.results q).results.length := by
    simpa [setResults] using hl
  rcases d.attempt w.results[t.results] with ⟨_ | fault | ⟨delay, rest⟩, q⟩
  · exact (conclude_ended (hs q) .delivered).after (.of_eq rfl rfl) rfl
  · have hp := (hs q).pass (v := (w.setResults t.results q).report
      (.severeDueTo (undeliveredMessage fault) fault.message)) rfl rfl rfl rfl rfl rfl rfl rfl
    exact (conclude_ended hp .undelivered).after (.of_eq rfl rfl) rfl
  · simp only
    split
    · exact ⟨.of_eq rfl rfl, (hs q).keepFirst rfl ⟨ha, hr q⟩, rfl⟩
    · exact ⟨.of_eq rfl rfl, (hs q).keepLast rfl ⟨ha, hr q⟩, rfl⟩

theorem ask_ended (h : w.Sound (some id) (.ofCalls {id}) served)
    (hf : (Task.call t).Fit w (w.burden (some id) (.ofCalls {id})) served) :
    Ended [] served w (t.ask w id) := by
  obtain ⟨ha, hl⟩ := hf
  have hsize : (w.registry.count t.adapter).size = w.registry.size := by
    simp [Registry.count, Registry.size]
  have hp := h.pass (v := { w with registry := w.registry.count t.adapter }) rfl rfl rfl rfl rfl
    rfl hsize rfl
  have ha' : t.adapter < (w.registry.count t.adapter).size := hsize ▸ ha
  have hg : w.registry.get? t.adapter = some w.registry.adapters[t.adapter] :=
    List.getElem?_eq_getElem ha
  unfold ask
  rw [hg]
  rcases w.registry.adapters[t.adapter] with ⟨a, earlier⟩
  simp only
  split
  · exact ⟨.of_eq rfl rfl, hp.keepFirst rfl ⟨ha', hl⟩, rfl⟩
  · exact ⟨.of_eq rfl rfl, hp.keepLast rfl ⟨ha', hl⟩, rfl⟩

theorem answer_ended (h : w.Sound (some id) (.ofCalls {id}) served)
    (hf : (Task.call t).Fit w (w.burden (some id) (.ofCalls {id})) served)
    (outcome : Except AdapterFault Response) : Ended [] served w (t.answer w id outcome) := by
  cases outcome with
  | error fault =>
    have hp := h.pass (v := w.report (.severeDueTo (t.failedMessage w) fault.message)) rfl rfl rfl
      rfl rfl rfl rfl rfl
    exact (conclude_ended hp .failed).after (.of_eq rfl rfl) rfl
  | ok r =>
    have hp := h.pass (v := w.report (.info (receivedMessage r))) rfl rfl rfl rfl rfl rfl rfl rfl
    exact (deliver_ended hp hf (Delivery.start t.crawler.config.retry r)).after (.of_eq rfl rfl) rfl

theorem turn_ended (h : w.Sound none 0 served) (hj : w.job? id = some ⟨id, .call t⟩) :
    Ended [] served w (t.turn w id) := by
  obtain ⟨hb, hf⟩ := h.begin hj
  unfold turn
  split
  · exact ask_ended hb hf
  · split
    · exact answer_ended hb hf _
    · split
      · have hw := h.pass (v := w.warn (t.slowMessage w)) rfl rfl rfl rfl rfl rfl rfl rfl
        refine ⟨.of_eq rfl rfl, hw.keepInPlace hj rfl ?_, rfl⟩
        exact hf
      · exact ⟨.refl w, h, rfl⟩
  · split
    · exact deliver_ended hb hf _
    · exact ⟨.refl w, h, rfl⟩

end CallTask

end CatalogCrawl

import CatalogCrawl.Proofs.World.Rounds

namespace CatalogCrawl

def CrawlerConfig.untimed (c : CrawlerConfig) : CrawlerConfig := { c with requestTimeout := .zero }

def Crawler.untimed (c : Crawler) : Crawler := { c with config := c.config.untimed }

def CrawlTask.untimed (t : CrawlTask) : CrawlTask := { t with crawler := t.crawler.untimed }

def CallStage.untimed : CallStage → CallStage
  | .answering due _ outcome => .answering due none outcome
  | stage => stage

def CallTask.untimed (t : CallTask) : CallTask :=
  { t with crawler := t.crawler.untimed, stage := t.stage.untimed }

def Task.untimed : Task → Task
  | .crawl t => .crawl t.untimed
  | .call t => .call t.untimed
  | t => t

def Job.untimed (j : Job) : Job := ⟨j.id, j.task.untimed⟩

def Manager.untimed (m : Manager) : Manager := { m with crawler := m.crawler.untimed }

def Journal.after (before : List Notice) (j : Journal) : Journal :=
  { j with notices := j.notices ++ before }

theorem Journal.report_after (j : Journal) (before : List Notice) (e : Entry) :
    (j.after before).report e = (j.report e).after before := by
  rcases j with ⟨kind, entries, notices⟩
  cases kind <;> rfl

theorem Task.untimed_untimed (t : Task) : t.untimed.untimed = t.untimed := by
  cases t with
  | call t =>
    rcases t with ⟨crawler, results, adapter, request, stage⟩
    cases stage <;> rfl
  | _ => rfl

theorem Task.sendsTo_untimed (t : Task) (results : Nat) :
    t.untimed.sendsTo results = t.sendsTo results := by
  cases t <;> rfl

namespace World

def untimed (w : World) (before : List Notice) : World :=
  { w with
    jobs := w.jobs.map Job.untimed
    manager := w.manager.untimed
    journal := w.journal.after before }

variable (w : World) (before : List Notice) (id : TaskId) (t : Task)

theorem ite_untimed {c c' : Prop} [Decidable c] [Decidable c'] (hc : c' ↔ c) {u v u' v' : World}
    {before : List Notice} (hu : u' = u.untimed before) (hv : v' = v.untimed before) :
    (if c' then u' else v') = (if c then u else v).untimed before := by
  by_cases h : c
  · rw [if_pos h, if_pos (hc.2 h), hu]
  · rw [if_neg h, if_neg (mt hc.1 h), hv]

theorem untimed_untimed (earlier : List Notice) :
    (w.untimed before).untimed earlier = w.untimed (before ++ earlier) := by
  have hj : (w.jobs.map Job.untimed).map Job.untimed = w.jobs.map Job.untimed := by
    rw [List.map_map]
    refine List.map_congr_left fun j _ => ?_
    simp only [Function.comp_apply, Job.untimed, Task.untimed_untimed]
  simp only [untimed, hj, Journal.after, List.append_assoc]
  rfl

theorem untimed_again : (w.untimed before).untimed [] = w.untimed before := by
  rw [untimed_untimed, List.append_nil]

theorem report_untimed (e : Entry) :
    (w.untimed before).report e = (w.report e).untimed before := by
  have hj : (w.untimed before).journal.report e = (w.journal.report e).after before :=
    w.journal.report_after before e
  rw [report, hj]
  rfl

theorem warn_untimed (message : String) :
    (w.untimed before).warn message = (w.warn message).untimed before := rfl

theorem spawn_untimed :
    (w.untimed before).spawn t.untimed = ((w.spawn t).1, (w.spawn t).2.untimed before) := by
  simp [spawn, untimed, Job.untimed]

theorem removeJob_untimed :
    (w.untimed before).removeJob id = (w.removeJob id).untimed before := by
  simp only [removeJob, untimed, List.filter_map]
  rfl

theorem keepFirst_untimed :
    (w.untimed before).keepFirst id t.untimed = (w.keepFirst id t).untimed before := by
  unfold keepFirst
  rw [removeJob_untimed]
  rfl

theorem keepLast_untimed :
    (w.untimed before).keepLast id t.untimed = (w.keepLast id t).untimed before := by
  unfold keepLast
  rw [removeJob_untimed]
  simp [untimed, Job.untimed]

theorem keepInPlace_untimed :
    (w.untimed before).keepInPlace id t.untimed = (w.keepInPlace id t).untimed before := by
  simp only [keepInPlace, untimed, List.map_map]
  congr 1
  refine List.map_congr_left fun j _ => ?_
  simp only [Function.comp_apply]
  rw [show j.untimed.id = j.id from rfl]
  split <;> rfl

theorem finish_untimed (r : TaskResult) :
    (w.untimed before).finish id r = (w.finish id r).untimed before := by
  unfold finish
  rw [removeJob_untimed]
  rfl

theorem isLive_untimed : (w.untimed before).isLive id = w.isLive id := by
  simp only [isLive, untimed, List.any_map]
  rfl

theorem hasSenders_untimed (results : Nat) :
    (w.untimed before).hasSenders results = w.hasSenders results := by
  simp only [hasSenders, untimed, List.any_map]
  congr 2
  funext j
  exact j.task.sendsTo_untimed results

theorem job?_untimed : (w.untimed before).job? id = (w.job? id).map Job.untimed := by
  simp only [job?, untimed, List.find?_map]
  rfl

end World

open World

variable {w : World} {before : List Notice} {id : TaskId}

section Crawling

variable {crawler : Crawler} {results : Nat} {r : Request} {adapters : List Nat}

theorem callsFrom_untimed : callsFrom crawler.untimed results r id adapters =
    (callsFrom crawler results r id adapters).map Job.untimed := by
  induction adapters generalizing id with
  | nil => rfl
  | cons a rest ih =>
    rw [callsFrom, ih]
    rfl

theorem foldl_report_after (j : Journal) (before : List Notice) (entries : List Entry) :
    entries.foldl Journal.report (j.after before) =
      (entries.foldl Journal.report j).after before := by
  induction entries generalizing j with
  | nil => rfl
  | cons e rest ih =>
    rw [List.foldl_cons, j.report_after, ih]
    rfl

theorem work_untimed (item : WorkItem) :
    (w.untimed before).work crawler.untimed results item =
      ((w.work crawler results item).1, (w.work crawler results item).2.untimed before) := by
  refine Prod.ext rfl ?_
  simp only [work_eq, callsFrom_untimed]
  simp only [World.untimed, List.map_append, foldl_report_after]
  rfl

end Crawling

namespace CrawlTask

variable {t : CrawlTask}

theorem stop_untimed : t.untimed.stop (w.untimed before) id = (t.stop w id).untimed before :=
  w.finish_untimed before id _

theorem complete_untimed (item : WorkItem) :
    t.untimed.complete (w.untimed before) id item = (t.complete w id item).untimed before := by
  unfold complete
  simp only [untimed, work_untimed]
  rcases w.work t.crawler t.results item with ⟨o, v⟩
  split
  · rename_i activity _
    exact ite_untimed .rfl
      (finish_untimed (({ v with stats := v.stats.record o } : World).changeActivity activity
        Activity.finish) before id _)
      (keepFirst_untimed (({ v with stats := v.stats.record o } : World).changeActivity activity
        Activity.finish) before id (.crawl { t with stage := .looking }))
  · exact finish_untimed v before id _

theorem takeUp_untimed (item : WorkItem) :
    t.untimed.takeUp (w.untimed before) id item = (t.takeUp w id item).untimed before := by
  have begins (v : World) : (if (v.untimed before).isGated then
        (v.untimed before).keepLast id (.crawl { t.untimed with stage := .matching item })
      else t.untimed.complete (v.untimed before) id item) =
      (if v.isGated then v.keepLast id (.crawl { t with stage := .matching item })
        else t.complete v id item).untimed before :=
    ite_untimed .rfl (keepLast_untimed v before id (.crawl { t with stage := .matching item }))
      (complete_untimed item)
  unfold takeUp
  simp only
  rw [show t.untimed.mode = t.mode from rfl]
  split
  · exact finish_untimed w before id _
  · exact begins w
  · exact begins (w.changeActivity _ _)

theorem heed_untimed (ticket seen : Nat) :
    t.untimed.heed (w.untimed before) id ticket seen =
      (t.heed w id ticket seen).untimed before :=
  ite_untimed .rfl
    (keepFirst_untimed { w with queue := w.queue.cancel ticket } before id
      (.crawl { t with stage := .looking }))
    (stop_untimed (w := { w with queue := w.queue.cancel ticket }))

theorem follow_untimed (deadline seen : Nat) (r : WorkQueue.Attempt × WorkQueue) :
    t.untimed.follow (w.untimed before) id deadline seen r =
      (t.follow w id deadline seen r).untimed before := by
  rcases r with ⟨item | _ | ticket, q⟩
  · exact takeUp_untimed (w := { w with queue := q }) item
  · exact stop_untimed (w := { w with queue := q })
  · exact ite_untimed .rfl (heed_untimed (w := { w with queue := q }) ticket seen)
      (keepLast_untimed { w with queue := q } before id
        (.crawl { t with stage := .polling ticket deadline seen }))

theorem look_untimed (signalFirst : Bool) :
    t.untimed.look (w.untimed before) id signalFirst = (t.look w id signalFirst).untimed before :=
  ite_untimed .rfl stop_untimed
    (ite_untimed .rfl (finish_untimed w before id _) (follow_untimed _ _ _))

theorem wake_untimed (ticket deadline seen : Nat) (signalFirst : Bool) :
    t.untimed.wake (w.untimed before) id ticket deadline seen signalFirst =
      (t.wake w id ticket deadline seen signalFirst).untimed before := by
  refine ite_untimed .rfl (heed_untimed ticket seen)
    (ite_untimed .rfl (follow_untimed _ _ _) (ite_untimed .rfl ?_ rfl))
  rw [show (w.untimed before).queue = w.queue from rfl]
  rcases w.queue.expire ticket with ⟨_ | item, q⟩
  · exact ite_untimed .rfl (stop_untimed (w := { w with queue := q }))
      (keepFirst_untimed { w with queue := q } before id (.crawl { t with stage := .looking }))
  · exact takeUp_untimed (w := { w with queue := q }) item

theorem turn_untimed (signalFirst : Bool) :
    t.untimed.turn (w.untimed before) id signalFirst = (t.turn w id signalFirst).untimed before := by
  unfold turn
  rw [show t.untimed.stage = t.stage from rfl]
  split
  · exact look_untimed signalFirst
  · exact wake_untimed _ _ _ signalFirst
  · exact ite_untimed .rfl rfl (complete_untimed _)

end CrawlTask

namespace CallTask

variable {t : CallTask}

theorem conclude_untimed (outcome : CallOutcome) :
    conclude (w.untimed before) id outcome = (conclude w id outcome).untimed before :=
  finish_untimed { w with stats := w.stats.recordCall outcome } before id _

theorem deliver_untimed (d : Delivery) :
    t.untimed.deliver (w.untimed before) id d = (t.deliver w id d).untimed before := by
  unfold deliver
  rw [show (w.untimed before).results[t.untimed.results]? = w.results[t.results]? from rfl]
  split
  · exact removeJob_untimed w before id
  · rename_i q _
    rcases d.attempt q with ⟨_ | fault | ⟨delay, rest⟩, q⟩
    · exact conclude_untimed (w := w.setResults t.results q) .delivered
    · have hr := report_untimed (w.setResults t.results q) before
        (.severeDueTo (undeliveredMessage fault) fault.message)
      refine Eq.trans ?_ (conclude_untimed .undelivered)
      rw [← hr]
      rfl
    · exact ite_untimed .rfl
        (keepFirst_untimed (w.setResults t.results q) before id
          (.call { t with stage := .delivering rest (w.now + delay.nanos) }))
        (keepLast_untimed (w.setResults t.results q) before id
          (.call { t with stage := .delivering rest (w.now + delay.nanos) }))

theorem answer_untimed (outcome : Except AdapterFault Response) :
    t.untimed.answer (w.untimed before) id outcome = (t.answer w id outcome).untimed before := by
  cases outcome with
  | error fault =>
    have hr := report_untimed w before (.severeDueTo (t.failedMessage w) fault.message)
    refine Eq.trans ?_ (conclude_untimed .failed)
    rw [← hr]
    rfl
  | ok r =>
    have hr := report_untimed w before (.info (receivedMessage r))
    refine Eq.trans ?_ (deliver_untimed (Delivery.start t.crawler.config.retry r))
    rw [← hr]
    rfl

theorem ask_untimed :
    (t.untimed.ask (w.untimed before) id).untimed [] = (t.ask w id).untimed before := by
  unfold ask
  rw [show (w.untimed before).registry.get? t.untimed.adapter = w.registry.get? t.adapter from rfl]
  split
  · rw [removeJob_untimed, untimed_again]
  · simp only
    rw [apply_ite (World.untimed · [])]
    refine ite_untimed .rfl ?_ ?_
    · rw [← keepFirst_untimed, ← keepFirst_untimed]
      exact congrArg (keepFirst · id _) (untimed_again { w with
        registry := w.registry.count t.adapter } before)
    · rw [← keepLast_untimed, ← keepLast_untimed]
      exact congrArg (keepLast · id _) (untimed_again { w with
        registry := w.registry.count t.adapter } before)

theorem turn_untimed (h : t.untimed.isReady w = true) :
    (t.untimed.turn (w.untimed before) id).untimed [] = (t.turn w id).untimed before := by
  unfold turn
  cases hs : t.stage with
  | starting =>
    rw [show t.untimed.stage = .starting by rw [untimed, hs]; rfl]
    exact ask_untimed
  | answering due warnAt outcome =>
    have hst : t.untimed.stage = .answering due none outcome := by rw [untimed, hs]; rfl
    have hd : due ≤ w.now := by simpa [isReady, hst, isLate] using h
    rw [hst]
    simp only [if_pos hd]
    rw [if_pos (show due ≤ (w.untimed before).now from hd), answer_untimed, untimed_again]
  | delivering d due =>
    rw [show t.untimed.stage = .delivering d due by rw [untimed, hs]; rfl]
    simp only
    rw [ite_untimed .rfl (deliver_untimed d) rfl, untimed_again]
    rfl

end CallTask

end CatalogCrawl

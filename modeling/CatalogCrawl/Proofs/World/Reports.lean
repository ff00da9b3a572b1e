import CatalogCrawl.Proofs.World.Bystanders
import CatalogCrawl.Proofs.World.Rounds

namespace CatalogCrawl

section Entries

namespace Entry

inductive OfCall : Entry → Prop
  | failed (w : World) (t : CallTask) (fault : AdapterFault) :
    OfCall (.severeDueTo (t.failedMessage w) fault.message)
  | undelivered (fault : DeliveryFault) :
    OfCall (.severeDueTo (CallTask.undeliveredMessage fault) fault.message)

inductive OfCycle : Entry → Prop
  | unmatched (protocol : String) : OfCycle (.severe (Cycle.noAdapterMessage protocol))
  | rejected (item : WorkItem) : OfCycle (.severe (Cycle.rejectedMessage item))
  | dropped (item : WorkItem) : OfCycle (.severe (Cycle.droppedMessage item))

inductive Told : Entry → Prop
  | received (r : Response) : Told (.info (CallTask.receivedMessage r))
  | call {e : Entry} (h : e.OfCall) : Told e
  | cycle {e : Entry} (h : e.OfCycle) : Told e

def isInfo (e : Entry) : Bool := e.severity = .info

def isSevere (e : Entry) : Bool := e.severity = .severe

def isCaused (e : Entry) : Bool := e.isSevere && e.cause.isSome

def isUncaused (e : Entry) : Bool := e.isSevere && e.cause.isNone

theorem OfCall.cause {e : Entry} (h : e.OfCall) : e.cause.isSome = true := by
  cases h <;> rfl

theorem OfCycle.cause {e : Entry} (h : e.OfCycle) : e.cause = none := by
  cases h <;> rfl

theorem Told.of_severe {e : Entry} (h : e.Told) (hs : e.severity = .severe) :
    e.OfCall ∨ e.OfCycle := by
  cases h with
  | received => cases hs
  | call h => exact .inl h
  | cycle h => exact .inr h

theorem Told.not_debug {e : Entry} (h : e.Told) : e.severity ≠ .debug := by
  cases h with
  | received => nofun
  | call h => cases h <;> nofun
  | cycle h => cases h <;> nofun

theorem countP_isSevere (told : List Entry) :
    told.countP isSevere = told.countP isCaused + told.countP isUncaused := by
  induction told with
  | nil => rfl
  | cons e rest ih =>
    simp only [List.countP_cons, ih]
    cases hs : e.isSevere <;> cases hc : e.cause <;> simp [isCaused, isUncaused, hs, hc] <;> omega

end Entry

structure Accounted (told : List Entry) (s : CrawlStats) (arrived : Nat) : Prop where
  origin : ∀ e ∈ told, e.Told
  caused : told.countP Entry.isCaused = s.adapterFailures + s.undelivered
  uncaused : told.countP Entry.isUncaused = s.requeued + 2 * s.dropped
  infos : told.countP Entry.isInfo = s.delivered + s.undelivered + arrived

namespace Accounted

variable {told : List Entry} {s : CrawlStats} {n : Nat}

theorem received (h : Accounted told s n) (r : Response) :
    Accounted (.info (CallTask.receivedMessage r) :: told) s (n + 1) where
  origin := List.forall_mem_cons.2 ⟨.received r, h.origin⟩
  caused := h.caused
  uncaused := h.uncaused
  infos := by
    rw [List.countP_cons_of_pos rfl, h.infos]
    omega

theorem delivered (h : Accounted told s (n + 1)) :
    Accounted told (s.recordCall .delivered) n where
  origin := h.origin
  caused := h.caused
  uncaused := h.uncaused
  infos := by
    rw [h.infos]
    simp only [CrawlStats.recordCall]
    omega

theorem undelivered (h : Accounted told s (n + 1)) (fault : DeliveryFault) :
    Accounted (.severeDueTo (CallTask.undeliveredMessage fault) fault.message :: told)
      (s.recordCall .undelivered) n where
  origin := List.forall_mem_cons.2 ⟨.call (.undelivered fault), h.origin⟩
  caused := by
    rw [List.countP_cons_of_pos rfl, h.caused]
    rfl
  uncaused := h.uncaused
  infos := by
    rw [List.countP_cons_of_neg Bool.false_ne_true, h.infos]
    simp only [CrawlStats.recordCall]
    omega

theorem failed (h : Accounted told s n) (w : World) (t : CallTask) (fault : AdapterFault) :
    Accounted (.severeDueTo (t.failedMessage w) fault.message :: told) (s.recordCall .failed) n where
  origin := List.forall_mem_cons.2 ⟨.call (.failed w t fault), h.origin⟩
  caused := by
    rw [List.countP_cons_of_pos rfl, h.caused]
    simp only [CrawlStats.recordCall]
    omega
  uncaused := h.uncaused
  infos := h.infos

theorem cycle (h : Accounted told s n) {registry : Registry} {queue : WorkQueue} {item : WorkItem}
    {c : Cycle} (hc : Cycle.Verdict registry queue item c) :
    Accounted (c.entries.reverse ++ told) (s.record c.outcome) n := by
  have unmatched : (Entry.severe (Cycle.noAdapterMessage item.protocol)).Told :=
    .cycle (.unmatched item.protocol)
  have lost {e : Entry} (he : e.OfCycle) (hs : e.severity = .severe) {o : Outcome}
      (ho : s.record o = { s with cycles := s.cycles + 1, dropped := s.dropped + 1 }) :
      Accounted ([.severe (Cycle.noAdapterMessage item.protocol), e].reverse ++ told)
        (s.record o) n := by
    rw [ho]
    refine ⟨?_, ?_, ?_, ?_⟩
    · exact List.forall_mem_cons.2 ⟨.cycle he, List.forall_mem_cons.2 ⟨unmatched, h.origin⟩⟩
    · simpa [Entry.isCaused, Entry.severe, he.cause] using h.caused
    · have hu := h.uncaused
      simp [Entry.isUncaused, Entry.isSevere, Entry.severe, he.cause, hs]
      omega
    · simpa [Entry.isInfo, Entry.severe, hs] using h.infos
  cases hc with
  | dispatched m positions hp => exact ⟨h.origin, h.caused, h.uncaused, h.infos⟩
  | requeued q ho =>
    refine ⟨List.forall_mem_cons.2 ⟨unmatched, h.origin⟩, h.caused, ?_, h.infos⟩
    rw [List.reverse_singleton, List.singleton_append, List.countP_cons_of_pos rfl, h.uncaused]
    simp only [CrawlStats.record]
    omega
  | rejected q failed ho => exact lost (.rejected failed) rfl rfl
  | dropped m failed => exact lost (.dropped failed) rfl rfl

theorem severe (h : Accounted told s n) : told.countP Entry.isSevere =
    s.requeued + 2 * s.dropped + s.adapterFailures + s.undelivered := by
  rw [Entry.countP_isSevere, h.caused, h.uncaused]
  omega

end Accounted

end Entries

namespace Journal

variable {j k : Journal}

theorem entries_report (h : j.kind = .memory) (e : Entry) :
    (j.report e).entries = e :: j.entries := by
  simp only [report, h]

theorem entries_foldl_report (h : j.kind = .memory) (entries : List Entry) :
    (entries.foldl report j).entries = entries.reverse ++ j.entries := by
  induction entries generalizing j with
  | nil => rfl
  | cons e rest ih =>
    rw [List.foldl_cons, ih ((j.kind_report e).trans h), entries_report h, List.reverse_cons,
      List.append_assoc, List.singleton_append]

theorem since_eq {new : List Entry} (h : k.entries = new ++ j.entries) :
    k.since j.entries.length = new := by
  rw [since, h, List.length_append, Nat.add_sub_cancel, List.take_left]

end Journal

variable {w v : World} {id : TaskId} {e : Event} {served : Served} {told : List Entry}

def CallTask.isRedelivering (t : CallTask) : Bool :=
  match t.stage with
  | .delivering .. => true
  | _ => false

open World

namespace World

def redelivering (w : World) : Nat := w.calls.countP fun x => x.2.isRedelivering

section Redelivering

variable {t : CallTask}

theorem redelivering_of_crawl (h : w.Sound none 0 served) {t : CrawlTask}
    (hm : ⟨id, .crawl t⟩ ∈ w.jobs) : w.redelivering = (w.removeJob id).redelivering :=
  (gather_of_mem Job.call h hm).countP_eq _

theorem redelivering_of_call (h : w.Sound none 0 served) (hm : ⟨id, .call t⟩ ∈ w.jobs) :
    w.redelivering = (w.removeJob id).redelivering + t.isRedelivering.toNat := by
  have hc : w.calls.Perm ((id, t) :: (w.removeJob id).calls) := gather_of_mem Job.call h hm
  rw [redelivering, hc.countP_eq, List.countP_cons]
  cases t.isRedelivering <;> rfl

theorem redelivering_keepFirst (w : World) (id : TaskId) (t : CallTask) :
    (w.keepFirst id (.call t)).redelivering =
      (w.removeJob id).redelivering + t.isRedelivering.toNat := by
  have hc : (w.keepFirst id (.call t)).calls = (id, t) :: (w.removeJob id).calls :=
    gather_keepFirst Job.call w id (.call t)
  rw [redelivering, hc, List.countP_cons]
  cases t.isRedelivering <;> rfl

theorem redelivering_keepLast (w : World) (id : TaskId) (t : CallTask) :
    (w.keepLast id (.call t)).redelivering =
      (w.removeJob id).redelivering + t.isRedelivering.toNat := by
  have hc : (w.keepLast id (.call t)).calls = (w.removeJob id).calls ++ [(id, t)] :=
    gather_keepLast Job.call w id (.call t)
  rw [redelivering, hc, List.countP_append]
  cases ht : t.isRedelivering <;> simp [ht] <;> rfl

theorem redelivering_keepInPlace (h : w.Sound none 0 served) {s : Task} (hm : ⟨id, s⟩ ∈ w.jobs)
    (t : CallTask) : (w.keepInPlace id (.call t)).redelivering =
      (w.removeJob id).redelivering + t.isRedelivering.toNat := by
  have hc : (w.keepInPlace id (.call t)).calls.Perm ((id, t) :: (w.removeJob id).calls) :=
    gather_keepInPlace Job.call h hm (.call t)
  rw [redelivering, hc.countP_eq, List.countP_cons]
  cases t.isRedelivering <;> rfl

theorem redelivering_worked (w : World) (t : CrawlTask) (activity : Nat) (item : WorkItem)
    (id : TaskId) :
    ((w.worked t activity item).removeJob id).redelivering = (w.removeJob id).redelivering := by
  have fresh (crawler : Crawler) (results : Nat) (r : Request) (first : TaskId)
      (adapters : List Nat) :
      ((((callsFrom crawler results r first adapters).filter fun j => j.id != id).filterMap
        Job.call).countP fun x => x.2.isRedelivering) = 0 := by
    refine List.countP_eq_zero.2 fun x hx => ?_
    obtain ⟨j, hj, hc⟩ := List.mem_filterMap.1 hx
    obtain ⟨a, -, ht⟩ := task_of_mem_callsFrom (List.mem_of_mem_filter hj)
    rw [Job.call_eq_some.1 hc] at ht
    injection ht with ht
    rw [ht]
    exact Bool.false_ne_true
  simp only [redelivering, calls, removeJob, worked, List.filter_append, List.filterMap_append,
    List.countP_append, fresh, Nat.add_zero]

end Redelivering

def Tells (w : World) (told : List Entry) (v : World) : Prop :=
  ∃ new, v.journal.entries = new ++ w.journal.entries ∧
    Accounted (new ++ told) v.stats v.redelivering

theorem Tells.of_eq (h : Accounted told w.stats w.redelivering)
    (hj : v.journal.entries = w.journal.entries) (hs : v.stats = w.stats)
    (hr : v.redelivering = w.redelivering) : w.Tells told v :=
  ⟨[], hj, by rw [hs, hr]; exact h⟩

end World

section Turns

theorem CrawlTask.complete_tells {t : CrawlTask} {activity : Nat} (hm : t.mode = .steady activity)
    (hk : w.journal.kind = .memory) (h : Accounted told w.stats (w.removeJob id).redelivering)
    (item : WorkItem) : w.Tells told (t.complete w id item) := by
  refine ⟨(Cycle.run t.crawler.config.requeue w.registry w.queue item).entries.reverse, ?_, ?_⟩
  · rw [complete_eq hm]
    split <;> exact Journal.entries_foldl_report hk _
  · have hc := h.cycle (Cycle.run_verdict t.crawler.config.requeue w.registry w.queue item)
    rw [complete_eq hm, ← redelivering_worked w t activity item id] at *
    split <;> exact hc

theorem CrawlTask.Round.tells {t : CrawlTask} (hs : w.Sound none 0 served)
    (hj : ⟨id, .crawl t⟩ ∈ w.jobs) (hk : w.journal.kind = .memory)
    (h : Accounted told w.stats w.redelivering) (hr : t.Round w id v) : w.Tells told v := by
  have free := redelivering_of_crawl hs hj
  cases hr with
  | rests => exact .of_eq h rfl rfl rfl
  | ends => exact .of_eq h rfl rfl free.symm
  | again => exact .of_eq h rfl rfl free.symm
  | waits =>
    refine .of_eq h rfl rfl ((congrArg (List.countP _) ?_).trans free.symm)
    exact (gather_keepLast Job.call _ id _).trans (List.append_nil _)
  | takes =>
    refine .of_eq h rfl rfl ((congrArg (List.countP _) ?_).trans free.symm)
    exact (gather_keepLast Job.call _ id _).trans (List.append_nil _)
  | works item rest b activity hi hq hm =>
    exact complete_tells (w := w.taken rest b activity) hm hk (free ▸ h) item
  | completes item activity hi hm => exact complete_tells hm hk (free ▸ h) item

namespace CallTask

variable {t : CallTask}

theorem deliver_tells (hk : w.journal.kind = .memory) (hl : t.results < w.results.length)
    (h : Accounted told w.stats ((w.removeJob id).redelivering + 1)) (d : Delivery) :
    w.Tells told (t.deliver w id d) := by
  unfold deliver
  rw [List.getElem?_eq_getElem hl]
  simp only
  split
  · exact ⟨[], rfl, h.delivered⟩
  · rename_i fault hp
    exact ⟨[_], Journal.entries_report hk _, h.undelivered fault⟩
  · split
    · refine ⟨[], rfl, ?_⟩
      rw [redelivering_keepFirst]
      exact h
    · refine ⟨[], rfl, ?_⟩
      rw [redelivering_keepLast]
      exact h

theorem ask_tells (h : Accounted told w.stats (w.removeJob id).redelivering) :
    w.Tells told (t.ask w id) := by
  unfold ask
  split
  · exact ⟨[], rfl, h⟩
  · simp only
    split
    · refine ⟨[], rfl, ?_⟩
      rw [redelivering_keepFirst]
      exact h
    · refine ⟨[], rfl, ?_⟩
      rw [redelivering_keepLast]
      exact h

theorem answer_tells (hk : w.journal.kind = .memory) (hl : t.results < w.results.length)
    (h : Accounted told w.stats (w.removeJob id).redelivering)
    (outcome : Except AdapterFault Response) : w.Tells told (t.answer w id outcome) := by
  cases outcome with
  | error fault => exact ⟨[_], Journal.entries_report hk _, h.failed w t fault⟩
  | ok r =>
    obtain ⟨new, hn, ha⟩ := deliver_tells (w := w.report (.info (receivedMessage r))) (t := t)
      ((w.journal.kind_report _).trans hk) hl (h.received r) (.start t.crawler.config.retry r)
    refine ⟨new ++ [.info (receivedMessage r)], ?_, ?_⟩
    · refine hn.trans ?_
      rw [World.report, Journal.entries_report hk, List.append_assoc]
      rfl
    · rw [List.append_assoc]
      exact ha

theorem turn_tells (hs : w.Sound none 0 served) (hj : ⟨id, .call t⟩ ∈ w.jobs)
    (hk : w.journal.kind = .memory) (h : Accounted told w.stats w.redelivering) :
    w.Tells told (t.turn w id) := by
  have hf := hs.fit ⟨id, .call t⟩ (by rwa [others_none])
  have hl : t.results < w.results.length := hf.2
  have own := redelivering_of_call hs hj
  unfold turn
  cases ht : t.stage with
  | starting =>
    simp only [isRedelivering, ht, Bool.toNat_false, Nat.add_zero] at own
    exact ask_tells (own ▸ h)
  | answering due warnAt outcome =>
    simp only [isRedelivering, ht, Bool.toNat_false, Nat.add_zero] at own
    simp only
    split
    · exact answer_tells hk hl (own ▸ h) outcome
    split
    · refine .of_eq (v := (w.warn _).keepInPlace id _) h rfl rfl ?_
      have kept := redelivering_keepInPlace hs hj { t with stage := .answering due none outcome }
      exact kept.trans own.symm
    · exact .of_eq h rfl rfl rfl
  | delivering d due =>
    simp only [isRedelivering, ht, Bool.toNat_true] at own
    simp only
    split
    · exact deliver_tells hk hl (own ▸ h) d
    · exact .of_eq h rfl rfl rfl

end CallTask

end Turns

namespace World

def noted (w : World) (e : Event) : List Entry :=
  if w.isCrawling e || w.isCalling e then (w.react e).journal.since w.journal.entries.length else []

def records (w : World) : List Event → List Entry
  | [] => []
  | e :: rest => (w.react e).records rest ++ w.noted e

/-- Nothing comes to the monitor from others. -/
def Unshared (w : World) : List Event → Prop
  | [] => True
  | e :: rest => (w.isCrawling e = false → w.isCalling e = false →
      (w.react e).journal.entries = w.journal.entries) ∧ (w.react e).Unshared rest

structure Reported (w : World) (told : List Entry) : Prop where
  settled : w.Settled
  kind : w.journal.kind = .memory
  accounted : Accounted told w.stats w.redelivering

theorem Tells.noted (h : w.Tells told (w.react e))
    (ha : (w.isCrawling e || w.isCalling e) = true) :
    Accounted (w.noted e ++ told) (w.react e).stats (w.react e).redelivering ∧
      (w.react e).journal.entries = w.noted e ++ w.journal.entries := by
  obtain ⟨new, hn, hacc⟩ := h
  have he : w.noted e = new := by rw [World.noted, if_pos ha, Journal.since_eq hn]
  rw [he]
  exact ⟨hacc, hn⟩

theorem Reported.tells (h : w.Reported told) (ha : (w.isCrawling e || w.isCalling e) = true) :
    w.Tells told (w.react e) := by
  obtain ⟨n, hs⟩ := h.settled.sound
  have still : w.Tells told w := .of_eq h.accounted rfl rfl rfl
  rcases Bool.or_eq_true_iff.1 ha with hc | hk
  · obtain ⟨id, signalFirst, t, rfl, hj⟩ := of_isCrawling hc
    have hm := (mem_of_job? hj).1
    obtain ⟨activity, hmode⟩ := hs.isSteady hm
    simp only [react, step, hj]
    split
    · exact (t.turn_round hmode signalFirst).tells hs hm h.kind h.accounted
    · exact still
  · obtain ⟨id, signalFirst, t, rfl, hj⟩ := of_isCalling hk
    simp only [react, step, hj]
    split
    · exact t.turn_tells hs (mem_of_job? hj).1 h.kind h.accounted
    · exact still

theorem Reported.react (h : w.Reported told) (e : Event) :
    (w.react e).Reported (w.noted e ++ told) := by
  refine ⟨h.settled.react e, (kind_react w e).trans h.kind, ?_⟩
  by_cases ha : (w.isCrawling e || w.isCalling e) = true
  · exact ((h.tells ha).noted ha).1
  · have hn : w.noted e = [] := if_neg ha
    obtain ⟨hc, hk⟩ := Bool.or_eq_false_iff.1 (Bool.not_eq_true _ ▸ ha)
    have hr : (w.react e).redelivering = w.redelivering := (calls_react h.settled hc hk).countP_eq _
    rw [hn, hr, (react_supplied h.settled hc hk).stats]
    exact h.accounted

theorem Reported.play (h : w.Reported told) (events : List Event) :
    (w.play events).Reported (w.records events ++ told) := by
  induction events generalizing w told with
  | nil => exact h
  | cons e rest ih =>
    rw [records, List.append_assoc]
    exact ih (h.react e)

theorem Reported.entries (h : w.Reported told) {events : List Event} (hu : w.Unshared events) :
    (w.play events).journal.entries = w.records events ++ w.journal.entries := by
  induction events generalizing w told with
  | nil => rfl
  | cons e rest ih =>
    obtain ⟨hfree, hrest⟩ := hu
    have first : (w.react e).journal.entries = w.noted e ++ w.journal.entries := by
      by_cases ha : (w.isCrawling e || w.isCalling e) = true
      · exact ((h.tells ha).noted ha).2
      · obtain ⟨hc, hk⟩ := Bool.or_eq_false_iff.1 (Bool.not_eq_true _ ▸ ha)
        rw [hfree hc hk, World.noted, if_neg ha]
        rfl
    rw [records, List.append_assoc, ← first]
    exact ih (h.react e) hrest

instance decidableUnshared : (w : World) → (events : List Event) → Decidable (w.Unshared events)
  | _, [] => .isTrue trivial
  | w, e :: rest =>
    have := decidableUnshared (w.react e) rest
    inferInstanceAs (Decidable ((w.isCrawling e = false → w.isCalling e = false →
      (w.react e).journal.entries = w.journal.entries) ∧ (w.react e).Unshared rest))

/-- No plan and no call to a manager, unless it shuts down a pool that no manager owns, has a turn. -/
def Unreported (w : World) : List Event → Prop
  | [] => True
  | e :: rest => w.isReporting e = false ∧ (w.react e).Unreported rest

theorem Unreported.unshared {events : List Event} (h : w.Unreported events) :
    w.Unshared events := by
  induction events generalizing w with
  | nil => trivial
  | cons e rest ih => exact ⟨fun hc hk => entries_react hc hk h.1, ih h.2⟩

theorem setup_untold (s : Setup) : s.world.journal.kind = s.monitor ∧
    s.world.journal.entries = [] ∧ s.world.stats = .zero := by
  simp only [Setup.world, withManager]
  split <;> exact ⟨rfl, rfl, rfl⟩

theorem reported_withCrew (s : Setup) (hm : s.monitor = .memory) (crew : List Crawler) :
    (s.world.withCrew crew).Reported [] := by
  obtain ⟨hk, -, hs⟩ := setup_untold s
  refine ⟨(setup_settled s).withCrew crew, hk.trans hm, ?_⟩
  have uncalled : (s.world.withCrew crew).redelivering = 0 := by
    refine List.countP_eq_zero.2 fun x hx => ?_
    have hj := mem_calls.1 hx
    rw [withCrew, (setup_fresh s).1, List.nil_append] at hj
    obtain ⟨i, hi, he⟩ := List.mem_mapIdx.1 hj
    cases congrArg Job.task he
  rw [uncalled, withCrew, hs]
  exact ⟨fun e he => (by cases he), rfl, rfl, rfl⟩

/-- No failure of the crawlers of a pool goes unreported and none is reported twice, whatever the
work, the adapters and the run, and whatever else goes on. Of what crawlers and calls report, the
severe entries are one for each item put back, two for each that is dropped, and one for each call
that failed or whose response could not be delivered, and just those of calls name a cause; the other
entries are of responses that have arrived, whether delivered, not delivered or still tried again.
That is all the monitor holds if nobody else uses it, as where no plan and no call to a manager has a
turn. -/
theorem reports_tally (s : Setup) (hm : s.monitor = .memory) (crew : List Crawler) :
    ∃ start, s.world.addPool.2.startPool s.world.addPool.1 crew = .ok start ∧
      ∀ events : List Event,
        let w := start.play events
        let told := start.records events
        told.countP Entry.isSevere = w.stats.requeued + 2 * w.stats.dropped +
          w.stats.adapterFailures + w.stats.undelivered ∧
        told.countP Entry.isInfo = w.stats.delivered + w.stats.undelivered + w.redelivering ∧
        (∀ e ∈ told, e.severity ≠ .debug) ∧
        (∀ e ∈ told, e.severity = .severe →
          e.OfCall ∧ e.cause.isSome = true ∨ e.OfCycle ∧ e.cause = none) ∧
        told.countP Entry.isCaused = w.stats.adapterFailures + w.stats.undelivered ∧
        (start.Unshared events → w.journal.entries = told) ∧
        (start.Unreported events → start.Unshared events) := by
  have hr := reported_withCrew s hm crew
  refine ⟨_, s.world.startPool_withCrew crew, fun events => ?_⟩
  have ha : Accounted ((s.world.withCrew crew).records events)
      ((s.world.withCrew crew).play events).stats
      ((s.world.withCrew crew).play events).redelivering := by
    have hp := (hr.play events).accounted
    rwa [List.append_nil] at hp
  refine ⟨ha.severe, ha.infos, fun e he => (ha.origin e he).not_debug, fun e he hs => ?_, ha.caused,
    fun hu => ?_, Unreported.unshared⟩
  · exact ((ha.origin e he).of_severe hs).imp (fun h => ⟨h, h.cause⟩) fun h => ⟨h, h.cause⟩
  · have hn : (s.world.withCrew crew).journal.entries = [] := (setup_untold s).2.1
    rw [hr.entries hu, hn, List.append_nil]

def unlucky : Setup :=
  { queue := ⟨0⟩
    monitor := .memory
    partition := .standard
    crawler := .standard
    numbered := false
    workload := []
    adapters := [⟨"answering", (· == "dsp"), fun _ _ r => ⟨.zero, .ok ⟨r.url, ⟨"", []⟩⟩⟩, false⟩]
    results := (ResultQueue.empty 1 1).close }

def mishaps : List Event :=
  [.offer (.fresh ⟨"http", none, "", none, none⟩ "ftp"),
    .offer (.fresh ⟨"http", none, "", none, none⟩ "dsp"), .step (.turn 0 true),
    .step (.turn 0 true), .step (.turn 1 true), .step (.turn 1 true)]

theorem reports_tally_mishaps : ∃ start,
    unlucky.world.addPool.2.startPool unlucky.world.addPool.1 [⟨0, .standard⟩] = .ok start ∧
    start.Unshared mishaps ∧ (start.play mishaps).stats.requeued = 1 ∧
    (start.play mishaps).stats.undelivered = 1 ∧
    (start.play mishaps).journal.entries.countP Entry.isSevere = 2 ∧
    (start.play mishaps).journal.entries.countP Entry.isCaused = 1 := by
  obtain ⟨start, hs, h⟩ := reports_tally unlucky rfl [⟨0, .standard⟩]
  have he : start = unlucky.world.withCrew [⟨0, .standard⟩] :=
    (Except.ok.inj (hs.symm.trans (unlucky.world.startPool_withCrew _)))
  have hu : start.Unshared mishaps := by
    rw [he]
    decide +kernel
  have hr : (start.play mishaps).stats = ⟨2, 1, 0, 0, 1, 1, 0⟩ := by
    rw [he]
    decide +kernel
  obtain ⟨hsevere, -, -, -, hcaused, hentries, -⟩ := h mishaps
  refine ⟨start, hs, hu, by rw [hr], by rw [hr], ?_, ?_⟩
  · rw [hr] at hsevere
    exact (congrArg _ (hentries hu)).trans hsevere
  · rw [hr] at hcaused
    exact (congrArg _ (hentries hu)).trans hcaused

end World

end CatalogCrawl

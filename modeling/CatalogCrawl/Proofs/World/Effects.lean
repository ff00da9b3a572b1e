import CatalogCrawl.Proofs.World.Turns

namespace CatalogCrawl

variable {a : Actor} {calm : Prop} {w v u : World}

def CallTask.sending? (w : World) (t : CallTask) : Option (Nat × Response) :=
  match t.stage with
  | .answering due _ (.ok r) => if due ≤ w.now then some (t.results, r) else none
  | .delivering d due => if due ≤ w.now then some (t.results, d.response) else none
  | _ => none

theorem CallTask.results_of_sending? {t : CallTask} {i : Nat} {r : Response}
    (h : t.sending? w = some (i, r)) : i = t.results := by
  unfold sending? at h
  split at h
  · split at h <;> cases h
    rfl
  · split at h <;> cases h
    rfl
  · cases h

namespace World

def transmit (w : World) : Option (Nat × Response) → World
  | some (i, r) => { w with results := w.results.modify i fun q => (q.send r).2 }
  | none => w

def accepts (w : World) : Option (Nat × Response) → Bool
  | some (i, r) => (w.results[i]?).any fun q => (q.send r).1 == .sent
  | none => false

def deliver (w : World) (s : Option (Nat × Response)) : World :=
  { w.transmit s with
    stats := { w.stats with delivered := w.stats.delivered + (w.accepts s).toNat } }

theorem fixture_deliver_missing {i : Nat} (h : w.results[i]? = none) (r : Response) :
    (w.deliver (some (i, r))).fixture = w.fixture := by
  simp [deliver, transmit, accepts, fixture, List.modify_eq_set_getElem?, h]

theorem fixture_deliver {i : Nat} {q : ResultQueue} (h : w.results[i]? = some q) (r : Response) :
    (w.deliver (some (i, r))).fixture =
      { w.fixture with
        results := w.results.set i (q.send r).2
        delivered := w.stats.delivered + ((q.send r).1 == .sent).toNat } := by
  simp [deliver, transmit, accepts, fixture, List.modify_eq_set_getElem?, h]

def crew (w : World) : List Job × TaskId × List EndedJob × Manager × Nat × Nat × MonitorKind :=
  (w.jobs, w.nextId, w.ended, w.manager, w.now, w.uptime, w.journal.kind)

theorem Tends.pass (h : v.crew = w.crew) : w.Tends a calm v where
  nextId := Nat.le_of_eq (congrArg (·.2.1) h).symm
  crawler := congrArg (·.2.2.2.1.crawler) h
  shutdownTimeout := congrArg (·.2.2.2.1.shutdownTimeout) h
  jobs j hm := .kept (show j ∈ w.crew.1 from h ▸ hm)
  ended e hm := .inl (show e ∈ w.crew.2.2.1 from h ▸ hm)

theorem crew_transmit (w : World) (s : Option (Nat × Response)) : (w.transmit s).crew = w.crew := by
  cases s <;> rfl

theorem crew_saveOffer (w : World) (o : Offer) : (w.saveOffer o).crew = w.crew := by
  unfold saveOffer look
  cases w.clock <;> rfl

theorem crew_expireOffers (w : World) (ttl : Span) : (w.expireOffers ttl).crew = w.crew := by
  unfold expireOffers look
  cases w.clock <;> rfl

end World

theorem Delivery.attempt_eq (d : Delivery) (q : ResultQueue) :
    (d.attempt q).2 = (q.send d.response).2 ∧
      ((d.attempt q).1 = .delivered ↔ (q.send d.response).1 = .sent) := by
  unfold attempt
  rcases q.send d.response with ⟨_ | _ | _, p⟩
  · exact ⟨rfl, by simp⟩
  · simp only
    rcases d.backoff.next with ⟨_ | delay, b⟩
    · exact ⟨rfl, by simp⟩
    · exact ⟨rfl, by simp⟩
  · exact ⟨rfl, by simp⟩

namespace CallTask

open World

variable {t s : CallTask} {id : TaskId}

theorem fixture_report (v : World) (e : Entry) (stats : CrawlStats) :
    ({ v.report e with stats := stats } : World).fixture =
      ({ v with stats := stats } : World).fixture := by
  simp only [fixture, report, Journal.kind_report]

theorem conclude_aside (v : World) {o : CallOutcome}
    (h : ({ v with stats := v.stats.recordCall o } : World).fixture = w.fixture) :
    w.Aside (.job ⟨id, .call t⟩) calm (conclude v id o) :=
  (Aside.finish { v with stats := v.stats.recordCall o } ⟨id, .call t⟩ fun _ => rfl).after h

theorem deliver_aside (w : World) (d : Delivery) (hg : (Task.call t).GoesOn (.call s)) :
    (w.deliver (some (t.results, d.response))).Aside (.job ⟨id, .call t⟩) calm
      (s.deliver w id d) := by
  obtain ⟨hc, hr⟩ := hg
  unfold CallTask.deliver
  rw [hr]
  cases hq : w.results[t.results]? with
  | none => exact (Aside.removeJob w id).after (fixture_deliver_missing hq _).symm
  | some q =>
    obtain ⟨he, hd⟩ := d.attempt_eq q
    have hf := (fixture_deliver hq d.response).symm
    rcases hp : d.attempt q with ⟨p, q'⟩
    rw [hp] at he hd
    simp only at he hd
    rw [← he] at hf
    simp only [hp]
    cases p with
    | delivered =>
      rw [hd.1 rfl] at hf
      exact conclude_aside (o := .delivered) (w.setResults t.results q') hf
    | failed fault =>
      rw [beq_false_of_ne fun hs => by cases hd.2 hs] at hf
      exact conclude_aside (o := .undelivered) ((w.setResults t.results q').report _)
        ((fixture_report _ _ _).trans hf)
    | waits delay rest =>
      rw [beq_false_of_ne fun hs => by cases hd.2 hs] at hf
      simp only
      split
      · refine .after (v := w.setResults t.results q') (.keepFirst (k := ⟨id, .call t⟩) ?_) hf
        exact ⟨hc, rfl⟩
      · refine .after (v := w.setResults t.results q') (.keepLast (k := ⟨id, .call t⟩) ?_) hf
        exact ⟨hc, rfl⟩

theorem ask_aside (w : World) : w.Aside (.job ⟨id, .call t⟩) calm (t.ask w id) := by
  unfold ask
  split
  · exact .removeJob w id
  · simp only
    split
    · refine .after (v := { w with registry := w.registry.count t.adapter })
        (.keepFirst (k := ⟨id, .call t⟩) ?_) rfl
      exact ⟨rfl, rfl⟩
    · refine .after (v := { w with registry := w.registry.count t.adapter })
        (.keepLast (k := ⟨id, .call t⟩) ?_) rfl
      exact ⟨rfl, rfl⟩

theorem turn_aside (w : World) :
    (w.deliver (t.sending? w)).Aside (.job ⟨id, .call t⟩) calm (t.turn w id) := by
  unfold turn sending?
  cases hs : t.stage with
  | starting => exact (ask_aside w).after rfl
  | answering due warnAt outcome =>
    have late_aside : w.Aside (.job ⟨id, .call t⟩) calm
        (if isLate w.now warnAt then (w.warn (t.slowMessage w)).keepInPlace id
            (.call { t with stage := .answering due none outcome })
          else w) := by
      split
      · refine .after (v := w.warn (t.slowMessage w)) (.keepInPlace (k := ⟨id, .call t⟩) ?_) rfl
        exact ⟨rfl, rfl⟩
      · exact .refl w
    cases outcome with
    | error fault =>
      simp only
      split
      · exact conclude_aside (w.report _) (fixture_report w _ _)
      · exact late_aside
    | ok r =>
      simp only
      split
      · exact (deliver_aside (w.report (.info (receivedMessage r)))
          (.start t.crawler.config.retry r) ⟨rfl, rfl⟩).after
          (fixture_report (w.deliver (some (t.results, r))) (.info (receivedMessage r)) _)
      · exact late_aside
  | delivering d due =>
    simp only
    split
    · exact deliver_aside w d ⟨rfl, rfl⟩
    · exact .refl w

end CallTask

namespace LoadTask

open World

variable {t : LoadTask} {id : TaskId}

def counted (w : World) (t : LoadTask) (r : Response) (left : List Offer) : World :=
  if left.isEmpty then w.countLoaded t.results r else w

def effect (w : World) (t : LoadTask) : World :=
  match t.stage with
  | .receiving =>
    match t.receive? w with
    | some (r, q) => t.counted (w.setResults t.results q) r r.catalog.offers
    | none => if t.isOver w then w.closeResults t.results else w
  | .saving r [] => t.counted w r []
  | .saving r (o :: left) => t.counted (w.saveOffer o) r left

theorem crew_counted (w : World) (t : LoadTask) (r : Response) (left : List Offer) :
    (t.counted w r left).crew = w.crew := by
  unfold counted
  split
  · rfl
  · rfl

theorem crew_effect (w : World) (t : LoadTask) : (t.effect w).crew = w.crew := by
  unfold effect
  split
  · split
    · exact crew_counted _ t _ _
    · split
      · rfl
      · rfl
  · exact crew_counted w t _ _
  · rename_i o left _
    exact (crew_counted _ t _ left).trans (crew_saveOffer w o)

theorem goOn_aside (w : World) (r : Response) (left : List Offer) :
    (t.counted w r left).Aside (.job ⟨id, .load t⟩) calm (t.goOn w id r left) := by
  unfold counted goOn
  split
  · exact .keepFirst (k := ⟨id, .load t⟩) rfl
  · exact .keepFirst (k := ⟨id, .load t⟩) rfl

theorem turn_aside (w : World) :
    (t.effect w).Aside (.job ⟨id, .load t⟩) calm (t.turn w id) := by
  unfold turn effect
  cases hs : t.stage with
  | receiving =>
    simp only [receive]
    cases hr : t.receive? w with
    | some p => exact goOn_aside _ _ _
    | none =>
      simp only
      split
      · exact .finish _ ⟨id, .load t⟩ fun _ => rfl
      · exact .keepLast (k := ⟨id, .load t⟩) rfl
  | saving r left =>
    cases left with
    | nil => exact goOn_aside _ _ _
    | cons o left => exact goOn_aside _ _ _

end LoadTask

namespace EvictionTask

open World

variable {t : EvictionTask} {id : TaskId}

def expires (w : World) (t : EvictionTask) (signalFirst : Bool) : Bool :=
  match t.stage with
  | .starting => false
  | .ticking ticker =>
    decide (ticker.due ≤ w.now) && !((w.signal t.signal).hasNews t.seen && signalFirst)

def effect (w : World) (t : EvictionTask) (signalFirst : Bool) : World :=
  if t.expires w signalFirst then w.expireOffers t.ttl else w

theorem crew_effect (w : World) (t : EvictionTask) (signalFirst : Bool) :
    (t.effect w signalFirst).crew = w.crew := by
  unfold effect
  split
  · exact crew_expireOffers w t.ttl
  · rfl

theorem turn_aside (hc : calm → (Task.evict t).Safe w) (signalFirst : Bool) :
    (t.effect w signalFirst).Aside (.job ⟨id, .evict t⟩) calm (t.turn w id signalFirst) := by
  unfold turn effect expires
  cases hs : t.stage with
  | starting =>
    simp only [Bool.false_eq_true, if_false]
    split
    · rename_i hz
      exact .finish w ⟨id, .evict t⟩ fun h => absurd hz (hc h)
    · exact .keepLast (k := ⟨id, .evict t⟩) rfl
  | ticking ticker =>
    simp only
    generalize (w.signal t.signal).hasNews t.seen = news
    by_cases hd : ticker.due ≤ w.now
    · simp only [hd, decide_true]
      cases hn : news && signalFirst
      · simp only [hn, Bool.not_true, Bool.or_false, Bool.not_false]
        exact .keepLast (k := ⟨id, .evict t⟩) (t := .evict _) rfl
      · simp only [hn, Bool.not_true, Bool.or_false]
        exact .finish w ⟨id, .evict t⟩ fun _ => rfl
    · simp only [hd, decide_false]
      cases news
      · exact .refl w
      · simp only [Bool.not_false, Bool.or_true]
        exact .finish w ⟨id, .evict t⟩ fun _ => rfl

end EvictionTask

def Task.sending? (w : World) : Task → Option (Nat × Response)
  | .call t => t.sending? w
  | .send results r due => if due ≤ w.now then some (results, r) else none
  | _ => none

theorem World.sendTurn_aside {id : TaskId} (w : World) (results : Nat) (r : Response) (due : Nat) :
    (w.transmit (Task.sending? w (.send results r due))).Aside
      (.job ⟨id, .send results r due⟩) calm (w.sendTurn id results r due) := by
  unfold sendTurn Task.sending?
  simp only
  split
  · cases hq : w.results[results]? with
    | none =>
      refine .after (.removeJob w id) ?_
      simp [transmit, fixture, List.modify_eq_set_getElem?, hq]
    | some q =>
      have hf : (w.setResults results (q.send r).2).fixture =
          (w.transmit (some (results, r))).fixture := by
        simp [transmit, fixture, setResults, List.modify_eq_set_getElem?, hq]
      rcases hs : q.send r with ⟨_ | _ | _, p⟩ <;> rw [hs] at hf <;> simp only [hs]
      · exact (Aside.finish { w.setResults results p with sentAt := w.now :: w.sentAt }
          ⟨id, .send results r due⟩ fun _ => rfl).after hf
      · exact (Aside.finish (w.setResults results p) ⟨id, .send results r due⟩ fun _ => rfl).after hf
      · exact (Aside.finish (w.setResults results p) ⟨id, .send results r due⟩ fun _ => rfl).after hf
  · exact .refl w

namespace Task

open World

def effect (w : World) (signalFirst : Bool) : Task → World
  | .call t => w.deliver (t.sending? w)
  | .send results r due => w.transmit (sending? w (.send results r due))
  | .load t => t.effect w
  | .evict t => t.effect w signalFirst
  | _ => w

theorem turn_aside {t : Task} {id : TaskId} (hc : calm → t.Safe w) (signalFirst : Bool) :
    (t.effect w signalFirst).Aside (.job ⟨id, t⟩) calm (t.turn w id signalFirst) := by
  cases t with
  | crawl t => exact CrawlTask.turn_aside hc signalFirst
  | call t => exact CallTask.turn_aside w
  | plan t => exact PlanTask.turn_aside w signalFirst
  | load t => exact LoadTask.turn_aside w
  | evict t => exact EvictionTask.turn_aside hc signalFirst
  | manage t => exact ManagerTask.turn_aside hc
  | windDown t => exact WindDown.turn_aside w
  | send results r due => exact sendTurn_aside w results r due
  | poll ticket deadline => exact pollTurn_aside w ticket deadline
  | refill items entered => exact refillTurn_aside w items entered
  | lock deadline entered => exact lockTurn_aside w deadline entered
  | awaitIdle activity deadline => exact idleTurn_aside w activity deadline

theorem crew_effect (t : Task) (w : World) (signalFirst : Bool) :
    (t.effect w signalFirst).crew = w.crew := by
  cases t with
  | call t => exact crew_transmit w (t.sending? w)
  | send results r due => exact crew_transmit w _
  | load t => exact LoadTask.crew_effect w t
  | evict t => exact EvictionTask.crew_effect w t signalFirst
  | _ => rfl

end Task

namespace World

def acting? (w : World) (id : TaskId) : Option Job :=
  (w.job? id).filter fun j => j.task.isReady w j.id

theorem mem_of_acting? {id : TaskId} {j : Job} (h : w.acting? id = some j) :
    w.job? id = some j ∧ j ∈ w.jobs ∧ j.id = id := by
  obtain ⟨hj, -⟩ := Option.filter_eq_some_iff.1 h
  exact ⟨hj, mem_of_job? hj⟩

theorem step_turn_eq (w : World) (id : TaskId) (signalFirst : Bool) :
    w.step (.turn id signalFirst) =
      (w.acting? id).elim w fun j => j.task.turn w j.id signalFirst := by
  unfold acting?
  simp only [step]
  cases hj : w.job? id with
  | none => rfl
  | some j =>
    obtain ⟨-, rfl⟩ := mem_of_job? hj
    rw [Option.filter_some]
    simp only
    split <;> rfl

def actor (w : World) : Event → Actor
  | .step (.turn id _) => (w.acting? id).elim (.outside none) .job
  | .launch t => .outside (some t)
  | _ => .outside none

theorem of_actor_eq_job {e : Event} {k : Job} (h : w.actor e = .job k) :
    ∃ id signalFirst, e = .step (.turn id signalFirst) ∧ w.acting? id = some k := by
  unfold actor at h
  split at h
  · rename_i id signalFirst
    cases hj : w.acting? id with
    | none =>
      rw [hj] at h
      cases h
    | some j =>
      rw [hj] at h
      cases h
      exact ⟨id, signalFirst, rfl, hj⟩
  · cases h
  · cases h

theorem of_actor_eq_outside {e : Event} {t : Task} (h : w.actor e = .outside (some t)) :
    e = .launch t := by
  unfold actor at h
  split at h
  · rename_i id signalFirst
    cases hj : w.acting? id <;> rw [hj] at h <;> cases h
  · cases h
    rfl
  · cases h

def effect (w : World) : Event → World
  | .step (.turn id signalFirst) => (w.acting? id).elim w fun j => j.task.effect w signalFirst
  | .step (.pass nanos) => { w with now := w.now + nanos }
  | .dropManager => { w with results := w.results.modify 0 ResultQueue.dropSender }
  | .results i q => w.setResults i q
  | _ => w

def IsSafe (w : World) : Event → Prop
  | .step (.turn id _) => ∀ j, w.acting? id = some j → j.task.Safe w
  | _ => True

theorem follow_aside (w : World) (p : Plan) : w.Aside (.outside none) calm (w.follow p) := by
  have hs : (w.addSignal false).2.Aside (.outside none) calm
      ((w.addSignal false).2.spawn (.plan ⟨.start p.period.nanos (w.now + p.delay.nanos),
        w.signals.length, .refill, .looking⟩)).2 :=
    .spawn (a := .outside none) trivial
  have hw := hs.after (w := w) rfl
  unfold World.follow
  cases hm : w.manager.schedule with
  | none =>
    simp only [World.addSignal, World.spawn, hm]
    exact hw.trans (.pass rfl)
  | some earlier =>
    simp only [World.addSignal, World.spawn, hm]
    exact hw.trans (.pass rfl)

theorem dropManager_aside (w : World) :
    (w.effect .dropManager).Aside (.outside none) calm w.dropManager := by
  have gone (v : World) (h : w.Aside (.outside none) calm v) :
      (w.effect .dropManager).Aside (.outside none) calm { v with
        results := v.results.modify 0 ResultQueue.dropSender
        manager := { w.manager with pool := none, schedule := none, pending := [] } } :=
    ⟨⟨h.nextId, rfl, rfl, fun j hm => (h.jobs j hm).of_eq rfl rfl rfl, h.ended⟩, h.now, h.uptime,
      congrArg (·.modify 0 ResultQueue.dropSender) h.results, h.loaded, h.store, h.clock,
      h.delivered, h.kind⟩
  unfold World.dropManager
  cases hp : w.manager.pool with
  | none =>
    cases hs : w.manager.schedule with
    | none => simpa only [hp, hs] using gone w (.refl w)
    | some s => simpa only [hp, hs] using gone _ (.abort w s.task)
  | some pool =>
    cases hs : w.manager.schedule with
    | none => simpa only [hp, hs] using gone _ (.dropPool w pool)
    | some s => simpa only [hp, hs] using gone _ ((Aside.dropPool w pool).trans (.abort _ s.task))

theorem react_aside {e : Event} (hc : calm → w.IsSafe e) :
    (w.effect e).Aside (w.actor e) calm (w.react e) := by
  cases e with
  | step s =>
    cases s with
    | turn id signalFirst =>
      simp only [effect, actor, react, step_turn_eq]
      cases hj : w.acting? id with
      | none => exact .refl w
      | some j => exact Task.turn_aside (fun h => hc h j hj) signalFirst
    | pass nanos => exact .refl _
  | launch t =>
    simp only [effect, actor, react]
    split
    · rename_i ht
      exact .spawn (a := .outside (some t)) ⟨rfl, ht⟩
    · exact .refl w
  | cancel id =>
    simp only [effect, actor, react]
    split
    · split
      · exact .abort w id
      · exact .refl w
    · exact .refl w
  | offer item => exact .pass rfl
  | addAll items => exact .pass rfl
  | close => exact .pass rfl
  | unlock holder => exact .pass rfl
  | schedule p => exact follow_aside w p
  | dropManager => exact dropManager_aside w
  | register a => exact .pass rfl
  | gate isOpen => exact .pass rfl
  | files f => exact .pass rfl
  | results i q => exact .refl _

theorem effect_tends (w : World) (e : Event) : w.Tends a calm (w.effect e) := by
  cases e with
  | step s =>
    cases s with
    | turn id signalFirst =>
      simp only [effect]
      cases w.acting? id with
      | none => exact .refl w
      | some j => exact .pass (j.task.crew_effect w signalFirst)
    | pass nanos => exact ⟨Nat.le_refl _, rfl, rfl, fun _ hm => .kept hm, fun _ hm => .inl hm⟩
  | _ => exact .pass rfl

theorem react_tends {e : Event} (hc : calm → w.IsSafe e) :
    w.Tends (w.actor e) calm (w.react e) :=
  (effect_tends w e).trans (react_aside hc).toTends

theorem tends_react (w : World) (e : Event) : w.Tends (w.actor e) False (w.react e) :=
  react_tends False.elim

def elapsed : Event → Nat
  | .step (.pass nanos) => nanos
  | _ => 0

theorem time_react (w : World) (e : Event) :
    (w.react e).now = w.now + elapsed e ∧ (w.react e).uptime = w.uptime := by
  have ha : (w.effect e).Aside (w.actor e) False (w.react e) := react_aside False.elim
  rw [ha.now, ha.uptime]
  cases e with
  | step s =>
    cases s with
    | turn id signalFirst =>
      simp only [effect]
      cases w.acting? id with
      | none => exact ⟨rfl, rfl⟩
      | some j =>
        have hc := j.task.crew_effect w signalFirst
        exact ⟨congrArg (·.2.2.2.2.1) hc, congrArg (·.2.2.2.2.2.1) hc⟩
    | pass nanos => exact ⟨rfl, rfl⟩
  | _ => exact ⟨rfl, rfl⟩

theorem kind_react (w : World) (e : Event) : (w.react e).journal.kind = w.journal.kind := by
  have ha : (w.effect e).Aside (w.actor e) False (w.react e) := react_aside False.elim
  rw [ha.kind]
  cases e with
  | step s =>
    cases s with
    | turn id signalFirst =>
      simp only [effect]
      cases w.acting? id with
      | none => rfl
      | some j => exact congrArg (·.2.2.2.2.2.2) (j.task.crew_effect w signalFirst)
    | pass nanos => rfl
  | _ => rfl

end World

end CatalogCrawl

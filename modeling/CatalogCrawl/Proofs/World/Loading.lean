import CatalogCrawl.Proofs.World.Effects

namespace CatalogCrawl

inductive Happening
  | event (e : Event)
  | dropSender (results : Nat)
  | setSignal (signal : Nat) (raised : Bool)
  | loseSignal (signal : Nat)
  | warn (message : String)

def Happening.isPlain : Happening → Bool
  | .event (.launch (.load _)) | .event (.results ..) => false
  | _ => true

namespace World

def meet (w : World) : Happening → World
  | .event e => w.react e
  | .dropSender i => { w with results := w.results.modify i ResultQueue.dropSender }
  | .setSignal i raised => w.setSignal i raised
  | .loseSignal i => w.loseSignal i
  | .warn message => w.warn message

def undergo (w : World) (list : List Happening) : World := list.foldl meet w

def accepted (w : World) (i : Nat) : Option (Nat × Response) → List Response
  | some (k, r) => if k = i ∧ w.accepts (some (k, r)) = true then [r] else []
  | none => []

end World

inductive StoreWork
  | save (time : Int) (o : Offer)
  | expire (time : Int) (ttl : Span)

def StoreWork.offer? : StoreWork → Option Offer
  | .save _ o => some o
  | .expire .. => none

def Store.carryOut (s : Store) : StoreWork → Store
  | .save time o => s.save time o
  | .expire time ttl => s.expire time ttl

/-- What has been seen of a result queue and of the store: the responses that the queue accepted,
those that were taken from it, and what was done to the store. -/
structure LoadLog where
  accepted : List Response
  received : List Response
  work : List StoreWork

namespace LoadLog

def empty : LoadLog := ⟨[], [], []⟩

def saved (g : LoadLog) : List Offer := g.work.filterMap StoreWork.offer?

def load (g : LoadLog) (w : World) (i : Nat) (t : LoadTask) : LoadLog :=
  match t.stage with
  | .receiving =>
    if t.results = i then
      { g with received := g.received ++ ((t.receive? w).map Prod.fst).toList }
    else g
  | .saving _ [] => g
  | .saving _ (o :: _) => { g with work := g.work ++ [.save w.look.1 o] }

def turn (g : LoadLog) (w : World) (i : Nat) (signalFirst : Bool) : Task → LoadLog
  | .load t => g.load w i t
  | .evict t =>
    if t.expires w signalFirst then { g with work := g.work ++ [.expire w.look.1 t.ttl] } else g
  | t => { g with accepted := g.accepted ++ w.accepted i (t.sending? w) }

def note (g : LoadLog) (w : World) (i : Nat) : Happening → LoadLog
  | .event (.step (.turn id signalFirst)) =>
    (w.acting? id).elim g fun j => g.turn w i signalFirst j.task
  | _ => g

def watch (g : LoadLog) (w : World) (i : Nat) : List Happening → LoadLog
  | [] => g
  | x :: rest => (g.note w i x).watch (w.meet x) i rest

end LoadLog

def LoadCount.ofList (list : List Response) : LoadCount :=
  ⟨list.length, (list.flatMap fun r => r.catalog.offers).length⟩

theorem LoadCount.add_ofList (list : List Response) (r : Response) :
    (ofList list).add r = ofList (list ++ [r]) := by
  simp [ofList, add]

namespace ResultQueue

structure Gains (q : ResultQueue) (more : List Response) (p : ResultQueue) : Prop where
  held : p.held = q.held ++ more
  isOpen : p.isOpen = q.isOpen
  refused : q.isOpen = false → more = []

theorem Gains.of_eq {q p : ResultQueue} (hh : p.held = q.held) (ho : p.isOpen = q.isOpen) :
    q.Gains [] p :=
  ⟨hh.trans (List.append_nil _).symm, ho, fun _ => rfl⟩

theorem gains_send (q : ResultQueue) (r : Response) :
    q.Gains (if (q.send r).1 = .sent then [r] else []) (q.send r).2 := by
  unfold send
  split
  · exact .of_eq rfl rfl
  · rename_i ho
    split
    · exact .of_eq rfl rfl
    · exact ⟨rfl, rfl, fun hc => absurd hc (by simpa using ho)⟩

theorem send_closed {q : ResultQueue} (h : q.isOpen = false) (r : Response) :
    (q.send r).1 = .closed := by
  simp [send, h]

end ResultQueue

structure Actor.Spares (a : Actor) (id : TaskId) : Prop where
  job : ∀ k, a = .job k → k.id ≠ id ∧ ∀ t, k.task ≠ .load t
  starts : ∀ config t, ¬ a.Starts config (.load t)

theorem Actor.Starts.load {a : Actor} {config : CrawlerConfig} {t : LoadTask}
    (h : a.Starts config (.load t)) : a = .outside (some (.load t)) := by
  unfold Starts at h
  split at h
  · rename_i hs
    cases hs
  · rename_i hs
    cases hs
  · rename_i hs
    cases hs
  · rw [h.1]
  · exact h.elim

theorem Task.GoesOn.exists_load {t : Task} {u : LoadTask} (h : t.GoesOn (.load u)) :
    ∃ s, t = .load s := by
  cases t with
  | load s => exact ⟨s, rfl⟩
  | _ => exact h.elim

namespace World

variable {w v : World} {i : Nat} {q : ResultQueue}

theorem gains_transmit (hq : w.results[i]? = some q) (s : Option (Nat × Response)) :
    ∃ p, (w.transmit s).results[i]? = some p ∧ q.Gains (w.accepted i s) p := by
  rcases s with _ | ⟨k, r⟩
  · exact ⟨q, hq, .of_eq rfl rfl⟩
  · by_cases hk : k = i
    · subst hk
      refine ⟨(q.send r).2, ?_, ?_⟩
      · simp [transmit, hq]
      · have hg := q.gains_send r
        simpa [accepted, accepts, hq] using hg
    · refine ⟨q, ?_, ?_⟩
      · simp [transmit, hk, hq]
      · simp only [accepted, hk, false_and, if_false]
        exact .of_eq rfl rfl

structure Tally (w : World) (i : Nat) (g : LoadLog) (counted : List Response) (more : List Offer) :
    Prop where
  count : w.loaded[i]? = some (.ofList counted)
  saved : g.saved = (counted.flatMap fun r => r.catalog.offers) ++ more

def Stands (w : World) (i : Nat) (g : LoadLog) : LoadStage → Prop
  | .receiving => w.Tally i g g.received []
  | .saving r left => ∃ counted done, g.received = counted ++ [r] ∧
      r.catalog.offers = done ++ left ∧ w.Tally i g counted done

structure Loading (w : World) (id : TaskId) (i : Nat) (g : LoadLog) (q : ResultQueue) : Prop where
  queue : w.results[i]? = some q
  kept : g.accepted = g.received ++ q.held
  issued : id < w.nextId
  sole : ∀ j ∈ w.jobs, ∀ t, j.task = .load t → j.id = id
  live : ∀ j ∈ w.jobs, j.id = id → q.isOpen = true ∧
    ∃ t, j.task = .load t ∧ t.results = i ∧ w.Stands i g t.stage
  past : ∀ e ∈ w.ended, e.id = id → (∀ j ∈ w.jobs, j.id ≠ id) ∧ q.isOpen = false ∧ q.held = [] ∧
    w.Tally i g g.received []

variable {id : TaskId} {g g' : LoadLog} {p : ResultQueue} {a : Actor} {calm : Prop}
  {more : List Response}

structure Bypassed (w : World) (i : Nat) (g : LoadLog) (q : ResultQueue) (v : World) (g' : LoadLog)
    (p : ResultQueue) : Prop where
  queue : v.results[i]? = some p
  gains : ∃ more, q.Gains more p ∧ g'.accepted = g.accepted ++ more
  received : g'.received = g.received
  saved : g'.saved = g.saved
  loaded : v.loaded = w.loaded

theorem Tally.of_eq {counted : List Response} {done : List Offer} (h : w.Tally i g counted done)
    (hl : v.loaded = w.loaded) (hs : g'.saved = g.saved) : v.Tally i g' counted done :=
  ⟨by rw [hl, h.count], by rw [hs, h.saved]⟩

theorem Stands.of_eq {s : LoadStage} (h : w.Stands i g s) (hl : v.loaded = w.loaded)
    (hr : g'.received = g.received) (hs : g'.saved = g.saved) : v.Stands i g' s := by
  cases s with
  | receiving =>
    rw [Stands, hr]
    exact Tally.of_eq h hl hs
  | saving r left =>
    obtain ⟨counted, done, hg, ho, ht⟩ := h
    exact ⟨counted, done, hr.trans hg, ho, ht.of_eq hl hs⟩

theorem Loading.bypass (h : w.Loading id i g q) (ha : a.Spares id) (ht : w.Tends a calm v)
    (hb : w.Bypassed i g q v g' p) : v.Loading id i g' p := by
  -- The loader does not act, so it is where it was; and nobody else becomes a loader.
  have hj : ∀ j ∈ v.jobs, j.id = id → j ∈ w.jobs := by
    intro j hm hi
    rcases ht.jobs j hm with hm | ⟨k, hk, hi', -⟩ | ⟨t, hm, -⟩ | ⟨hn, -⟩
    · exact hm
    · exact absurd (hi'.symm.trans hi) (ha.job k hk).1
    · obtain ⟨-, u, hu, -⟩ := h.live _ hm hi
      cases hu
    · exact absurd (hi ▸ hn) (Nat.not_le_of_lt h.issued)
  have hl : ∀ j ∈ v.jobs, ∀ t, j.task = .load t → j ∈ w.jobs := by
    intro j hm t hj
    rcases ht.jobs j hm with hm | ⟨k, hk, -, hg⟩ | ⟨u, -, hu⟩ | ⟨-, hs⟩
    · exact hm
    · obtain ⟨s, hs⟩ := (hj ▸ hg).exists_load
      exact absurd hs ((ha.job k hk).2 s)
    · rw [hj] at hu
      cases hu
    · exact absurd (hj ▸ hs) (ha.starts _ t)
  obtain ⟨more, hg, hm⟩ := hb.gains
  refine ⟨hb.queue, ?_, Nat.lt_of_lt_of_le h.issued ht.nextId, fun j hm t ht => ?_,
    fun j hm hi => ?_, fun e he hi => ?_⟩
  · rw [hm, h.kept, hb.received, hg.held, List.append_assoc]
  · exact h.sole j (hl j hm t ht) t ht
  · obtain ⟨ho, t, ht, hr, hs⟩ := h.live j (hj j hm hi) hi
    exact ⟨hg.isOpen.trans ho, t, ht, hr, hs.of_eq hb.loaded hb.received hb.saved⟩
  · rcases ht.ended e he with he | ⟨⟨k, hk, hi'⟩, -⟩
    · obtain ⟨hn, ho, hh, ht⟩ := h.past e he hi
      refine ⟨fun j hm hi => hn j (hj j hm hi) hi, hg.isOpen.trans ho, ?_, ?_⟩
      · rw [hg.held, hh, hg.refused ho]
        rfl
      · rw [hb.received]
        exact ht.of_eq hb.loaded hb.saved
    · exact absurd (hi'.symm.trans hi) (ha.job k hk).1

theorem results_saveOffer (w : World) (o : Offer) : (w.saveOffer o).results = w.results := by
  unfold saveOffer look
  cases w.clock <;> rfl

theorem loaded_saveOffer (w : World) (o : Offer) : (w.saveOffer o).loaded = w.loaded := by
  unfold saveOffer look
  cases w.clock <;> rfl

section Turns

variable {t u : LoadTask} {r : Response} {left : List Offer}

theorem Loading.goes (h : w.Loading id i g q) (hm : ⟨id, .load t⟩ ∈ w.jobs)
    (hj : ∀ j ∈ v.jobs, j ∈ w.jobs ∧ j.id ≠ id ∨ j = ⟨id, .load u⟩) (he : v.ended = w.ended)
    (hn : v.nextId = w.nextId) (hq : v.results[i]? = some p) (ho : p.isOpen = true)
    (hk : g'.accepted = g'.received ++ p.held) (hr : u.results = i) (hs : v.Stands i g' u.stage) :
    v.Loading id i g' p := by
  refine ⟨hq, hk, hn ▸ h.issued, fun j hm t ht => ?_, fun j hm hi => ?_, fun e hm' hi => ?_⟩
  · rcases hj j hm with ⟨hm, -⟩ | rfl
    · exact h.sole j hm t ht
    · rfl
  · rcases hj j hm with ⟨-, hi'⟩ | rfl
    · exact absurd hi hi'
    · exact ⟨ho, u, rfl, hr, hs⟩
  · exact absurd rfl ((h.past e (he ▸ hm') hi).1 _ hm)

theorem Tally.complete {counted : List Response} {done : List Offer} (h : w.Tally i g counted done)
    (ho : r.catalog.offers = done) : (w.countLoaded i r).Tally i g (counted ++ [r]) [] := by
  refine ⟨?_, ?_⟩
  · rw [← LoadCount.add_ofList]
    simp [countLoaded, h.count]
  · rw [h.saved]
    simp [ho]

theorem Loading.goOn (h : w.Loading id i g q) (hm : ⟨id, .load t⟩ ∈ w.jobs)
    (hc : v.crew = w.crew) (hq : v.results[i]? = some p) (ho : p.isOpen = true)
    (hk : g'.accepted = g'.received ++ p.held) (hr : t.results = i)
    (hs : v.Stands i g' (.saving r left)) : (t.goOn v id r left).Loading id i g' p := by
  have hj : v.jobs = w.jobs := congrArg (·.1) hc
  have hf (u : LoadTask) : ∀ j ∈ (v.keepFirst id (.load u)).jobs,
      j ∈ w.jobs ∧ j.id ≠ id ∨ j = ⟨id, .load u⟩ := by
    intro j hm
    rw [← hj]
    exact (mem_jobs_keepFirst.1 hm).symm
  unfold LoadTask.goOn
  cases left with
  | nil =>
    obtain ⟨counted, done, hg, hd, ht⟩ := hs
    rw [List.append_nil] at hd
    have ht := ht.complete hd
    rw [← hg] at ht
    simp only [List.isEmpty_nil, if_true]
    exact h.goes hm (hf { t with stage := .receiving }) (congrArg (·.2.2.1) hc)
      (congrArg (·.2.1) hc) hq ho hk hr (hr.symm ▸ ht.of_eq rfl rfl)
  | cons o left =>
    simp only [List.isEmpty_cons, Bool.false_eq_true, if_false]
    exact h.goes hm (hf { t with stage := .saving r (o :: left) }) (congrArg (·.2.2.1) hc)
      (congrArg (·.2.1) hc) hq ho hk hr (hs.of_eq rfl rfl rfl)

theorem Loading.finish (h : w.Loading id i g q) (hq : q.held = [])
    (ht : w.Stands i g .receiving) :
    ((w.closeResults i).finish id .nothing).Loading id i g q.close := by
  have hj : ∀ j ∈ ((w.closeResults i).finish id .nothing).jobs, j ∈ w.jobs ∧ j.id ≠ id :=
    fun j hm => mem_jobs_removeJob.1 hm
  have hk := h.kept
  rw [hq] at hk
  refine ⟨?_, hk, h.issued, fun j hm t ht => h.sole j (hj j hm).1 t ht,
    fun j hm hi => absurd hi (hj j hm).2, fun e he hi => ?_⟩
  · simp [World.finish, removeJob, closeResults, h.queue]
  · exact ⟨fun j hm => (hj j hm).2, rfl, rfl, Tally.of_eq ht rfl rfl⟩

theorem Loading.receive (h : w.Loading id i g q) (hm : ⟨id, .load t⟩ ∈ w.jobs)
    (hs : t.stage = .receiving) : ∃ p, (t.turn w id).Loading id i (g.load w i t) p := by
  obtain ⟨ho, _, ⟨⟩, hr, ht⟩ := h.live _ hm rfl
  rw [hs] at ht
  have hk := h.kept
  simp only [LoadTask.turn, LoadTask.receive, LoadLog.load, hs, LoadTask.receive?, hr, h.queue,
    Option.bind_eq_bind, Option.bind_some, ResultQueue.receive?, if_true]
  cases hq : q.held with
  | cons r rest =>
    simp only [Option.map_some, Option.toList_some]
    refine ⟨{ q with held := rest }, ?_⟩
    have hc : (w.setResults i { q with held := rest }).crew = w.crew := rfl
    refine h.goOn hm hc ?_ ho ?_ hr ⟨g.received, [], rfl, rfl, Tally.of_eq ht rfl rfl⟩
    · have hi : i < w.results.length := (List.getElem?_eq_some_iff.1 h.queue).1
      simp [setResults, hi]
    · rw [hk, hq]
      simp
  | nil =>
    simp only [Option.map_none, Option.toList_none, List.append_nil]
    split
    · exact ⟨q.close, h.finish hq ht⟩
    · exact ⟨q, h.goes (u := t) hm (fun j hj => mem_jobs_keepLast.1 hj) rfl rfl h.queue ho hk hr
        (hs ▸ ht.of_eq rfl rfl rfl)⟩

theorem Loading.save (h : w.Loading id i g q) (hm : ⟨id, .load t⟩ ∈ w.jobs)
    (hs : t.stage = .saving r left) : (t.turn w id).Loading id i (g.load w i t) q := by
  obtain ⟨ho, _, ⟨⟩, hr, ht⟩ := h.live _ hm rfl
  rw [hs] at ht
  simp only [LoadTask.turn, LoadLog.load, hs]
  cases left with
  | nil => exact h.goOn hm rfl h.queue ho h.kept hr ht
  | cons o left =>
    obtain ⟨counted, done, hg, hd, hl⟩ := ht
    refine h.goOn hm (crew_saveOffer w o) ?_ ho h.kept hr ⟨counted, done ++ [o], hg, ?_, ?_⟩
    · rw [results_saveOffer, h.queue]
    · rw [hd, List.append_assoc]
      rfl
    · refine ⟨?_, ?_⟩
      · rw [loaded_saveOffer, hl.count]
      · rw [LoadLog.saved, List.filterMap_append, ← List.append_assoc]
        exact congrArg (· ++ [o]) hl.saved

end Turns

theorem Loading.turn (h : w.Loading id i g q) {t : LoadTask} (hm : ⟨id, .load t⟩ ∈ w.jobs) :
    ∃ p, (t.turn w id).Loading id i (g.load w i t) p := by
  cases hs : t.stage with
  | receiving => exact h.receive hm hs
  | saving r left => exact ⟨q, h.save hm hs⟩

section Happenings

theorem Bypassed.refl (hq : w.results[i]? = some q) (g : LoadLog) : w.Bypassed i g q w g q :=
  ⟨hq, ⟨[], .of_eq rfl rfl, (List.append_nil _).symm⟩, rfl, rfl, rfl⟩

theorem Bypassed.aside {u : World} (h : w.Bypassed i g q v g' p) (ha : v.Aside a calm u) :
    w.Bypassed i g q u g' p :=
  ⟨ha.results ▸ h.queue, h.gains, h.received, h.saved, ha.loaded.trans h.loaded⟩

theorem Bypassed.dropSender (hq : w.results[i]? = some q) (g : LoadLog) (k : Nat) :
    ∃ p, w.Bypassed i g q { w with results := w.results.modify k ResultQueue.dropSender } g p := by
  refine ⟨if k = i then q.dropSender else q, ?_, ⟨[], ?_, (List.append_nil _).symm⟩, rfl, rfl, rfl⟩
  · split
    · rename_i hk
      simp [hk, hq]
    · rename_i hk
      simp [hk, hq]
  · split
    · exact .of_eq rfl rfl
    · exact .of_eq rfl rfl

theorem Bypassed.transmit (hq : w.results[i]? = some q) (g : LoadLog)
    (s : Option (Nat × Response)) : ∃ p, w.Bypassed i g q (w.transmit s)
      { g with accepted := g.accepted ++ w.accepted i s } p := by
  obtain ⟨p, hp, hg⟩ := gains_transmit hq s
  refine ⟨p, hp, ⟨_, hg, rfl⟩, rfl, rfl, ?_⟩
  cases s <;> rfl

theorem results_expireOffers (w : World) (ttl : Span) :
    (w.expireOffers ttl).results = w.results := by
  unfold expireOffers look
  cases w.clock <;> rfl

theorem loaded_expireOffers (w : World) (ttl : Span) : (w.expireOffers ttl).loaded = w.loaded := by
  unfold expireOffers look
  cases w.clock <;> rfl

theorem Bypassed.evict (hq : w.results[i]? = some q) (g : LoadLog) (t : EvictionTask)
    (signalFirst : Bool) :
    w.Bypassed i g q (t.effect w signalFirst) (g.turn w i signalFirst (.evict t)) q := by
  unfold EvictionTask.effect LoadLog.turn
  simp only
  split
  · refine ⟨?_, ⟨[], .of_eq rfl rfl, (List.append_nil _).symm⟩, rfl, ?_, ?_⟩
    · rw [results_expireOffers, hq]
    · simp [LoadLog.saved, StoreWork.offer?]
    · rw [loaded_expireOffers]
  · exact .refl hq g

theorem Bypassed.turn (hq : w.results[i]? = some q) (g : LoadLog) {t : Task}
    (ht : ∀ u, t ≠ .load u) (signalFirst : Bool) :
    ∃ p, w.Bypassed i g q (t.effect w signalFirst) (g.turn w i signalFirst t) p := by
  have same : ∃ p, w.Bypassed i g q w { g with accepted := g.accepted ++ [] } p := by
    rw [List.append_nil]
    exact ⟨q, .refl hq g⟩
  cases t with
  | load u => exact absurd rfl (ht u)
  | call t =>
    obtain ⟨p, hb⟩ := Bypassed.transmit hq g (t.sending? w)
    exact ⟨p, hb.queue, hb.gains, hb.received, hb.saved, hb.loaded⟩
  | send results r due => exact Bypassed.transmit hq g _
  | evict t => exact ⟨q, .evict hq g t signalFirst⟩
  | _ => exact same

theorem Bypassed.event (hq : w.results[i]? = some q) (g : LoadLog) {e : Event}
    (hp : (Happening.event e).isPlain = true)
    (hn : ∀ k, w.actor e = .job k → ∀ t, k.task ≠ .load t) :
    ∃ p, w.Bypassed i g q (w.effect e) (g.note w i (.event e)) p := by
  cases e with
  | step s =>
    cases s with
    | turn k signalFirst =>
      simp only [effect, LoadLog.note]
      cases hj : w.acting? k with
      | none => exact ⟨q, .refl hq g⟩
      | some j =>
        have ha : w.actor (.step (.turn k signalFirst)) = .job j := by rw [actor, hj]; rfl
        exact Bypassed.turn hq g (hn j ha) signalFirst
    | pass nanos => exact ⟨q, hq, ⟨[], .of_eq rfl rfl, (List.append_nil _).symm⟩, rfl, rfl, rfl⟩
  | dropManager => exact Bypassed.dropSender hq g 0
  | results k r => cases hp
  | _ => exact ⟨q, .refl hq g⟩

def Loads (id : TaskId) (i : Nat) (q : ResultQueue) (v : World) (g : LoadLog) : Prop :=
  ∃ p, v.Loading id i g p ∧ (q.isOpen = false → p.isOpen = false)

theorem Loading.meet_own (h : w.Loading id i g q) {k : TaskId} {signalFirst : Bool} {j : Job}
    (hj : w.acting? k = some j) (hi : j.id = id) :
    Loads id i q (w.react (.step (.turn k signalFirst)))
      (g.note w i (.event (.step (.turn k signalFirst)))) := by
  obtain ⟨-, hm, -⟩ := mem_of_acting? hj
  obtain ⟨ho, t, ht, -⟩ := h.live j hm hi
  rcases j with ⟨_, _⟩
  cases hi
  cases ht
  simp only [react, step_turn_eq, LoadLog.note, hj, Option.elim_some]
  obtain ⟨p, hp⟩ := h.turn hm
  exact ⟨p, hp, fun hc => by rw [ho] at hc; cases hc⟩

theorem Loading.meet_others (h : w.Loading id i g q) (ha : a.Spares id) (ht : w.Tends a calm v)
    (hb : w.Bypassed i g q v g' p) : Loads id i q v g' := by
  obtain ⟨more, hg, -⟩ := hb.gains
  exact ⟨p, h.bypass ha ht hb, fun hc => hg.isOpen.trans hc⟩

theorem Loading.meet_event (h : w.Loading id i g q) {e : Event}
    (hp : (Happening.event e).isPlain = true) :
    Loads id i q (w.react e) (g.note w i (.event e)) := by
  have others (hn : ∀ k, w.actor e = .job k → k.id ≠ id ∧ ∀ t, k.task ≠ .load t) :
      Loads id i q (w.react e) (g.note w i (.event e)) := by
    obtain ⟨p, hb⟩ := Bypassed.event h.queue g hp fun k hk => (hn k hk).2
    have ha : (w.effect e).Aside (w.actor e) False (w.react e) := react_aside False.elim
    refine h.meet_others ⟨hn, fun config t hs => ?_⟩ (w.tends_react e) (hb.aside ha)
    have he := of_actor_eq_outside hs.load
    subst he
    cases hp
  -- Whoever is not the loader is no loader at all, since there is but one.
  cases ha : w.actor e with
  | job k =>
    obtain ⟨i', signalFirst, rfl, hj⟩ := of_actor_eq_job ha
    by_cases hi : k.id = id
    · exact h.meet_own hj hi
    · refine others fun k' hk' => ?_
      rw [ha] at hk'
      cases hk'
      exact ⟨hi, fun t ht => hi (h.sole k (mem_of_acting? hj).2.1 t ht)⟩
  | outside s =>
    refine others fun k hk => ?_
    rw [ha] at hk
    cases hk

theorem Actor.spares_outside (id : TaskId) : (Actor.outside none).Spares id :=
  ⟨fun k hk => (by cases hk), fun config t hs => (by cases hs.load)⟩

theorem Loading.meet (h : w.Loading id i g q) {x : Happening} (hx : x.isPlain = true) :
    Loads id i q (w.meet x) (g.note w i x) := by
  have others {v : World} (hv : w.Aside (.outside none) False v) : Loads id i q v g :=
    h.meet_others (Actor.spares_outside id) hv.toTends ((Bypassed.refl h.queue g).aside hv)
  cases x with
  | event e => exact h.meet_event hx
  | dropSender k =>
    obtain ⟨p, hb⟩ := Bypassed.dropSender h.queue g k
    have ht : w.Tends (.outside none) False (w.meet (.dropSender k)) := .pass rfl
    exact h.meet_others (Actor.spares_outside id) ht hb
  | setSignal k raised => exact others (.pass rfl)
  | loseSignal k => exact others (.pass rfl)
  | warn message => exact others (.pass rfl)

theorem Loading.undergo (h : w.Loading id i g q) {list : List Happening}
    (hp : ∀ x ∈ list, x.isPlain = true) :
    Loads id i q (w.undergo list) (g.watch w i list) := by
  induction list generalizing w g q with
  | nil => exact ⟨q, h, fun ho => ho⟩
  | cons x rest ih =>
    obtain ⟨p, hm, hc⟩ := h.meet (hp x List.mem_cons_self)
    obtain ⟨r, hr, hd⟩ := ih hm fun y hy => hp y (List.mem_cons_of_mem x hy)
    exact ⟨r, hr, fun ho => hd (hc ho)⟩

theorem store_load (w : World) (i : Nat) (g : LoadLog) (t : LoadTask) (s : Store)
    (h : g.work.foldl Store.carryOut s = w.store) :
    (g.load w i t).work.foldl Store.carryOut s = (t.effect w).store := by
  have store_counted (v : World) (r : Response) (left : List Offer) :
      (t.counted v r left).store = v.store := by
    unfold LoadTask.counted
    split <;> rfl
  unfold LoadLog.load LoadTask.effect
  cases hs : t.stage with
  | receiving =>
    have hw : (if t.results = i then
        { g with received := g.received ++ ((t.receive? w).map Prod.fst).toList } else g).work =
        g.work := by
      split <;> rfl
    simp only [hw, h]
    split
    · rw [store_counted]
      rfl
    · split <;> rfl
  | saving r left =>
    cases left with
    | nil => exact h.trans (store_counted w r []).symm
    | cons o left =>
      simp only [store_counted, List.foldl_append, h]
      unfold saveOffer look
      cases w.clock <;> rfl

theorem store_transmit (w : World) (s : Option (Nat × Response)) :
    (w.transmit s).store = w.store := by
  cases s <;> rfl

theorem store_note (w : World) (i : Nat) (g : LoadLog) (x : Happening) (s : Store)
    (h : g.work.foldl Store.carryOut s = w.store) :
    (g.note w i x).work.foldl Store.carryOut s = (w.meet x).store := by
  cases x with
  | event e =>
    have ha : (w.effect e).Aside (w.actor e) False (w.react e) := react_aside False.elim
    simp only [meet]
    rw [ha.store]
    cases e with
    | step x =>
      cases x with
      | turn k signalFirst =>
        simp only [LoadLog.note, effect]
        cases w.acting? k with
        | none => exact h
        | some j =>
          simp only [Option.elim_some]
          cases j.task with
          | load t => exact store_load w i g t s h
          | evict t =>
            simp only [LoadLog.turn, Task.effect, EvictionTask.effect]
            split
            · rw [List.foldl_append, h]
              unfold expireOffers look
              cases w.clock <;> rfl
            · exact h
          | call t => exact h.trans (store_transmit w _).symm
          | send results r due => exact h.trans (store_transmit w _).symm
          | _ => exact h
      | pass nanos => exact h
    | _ => exact h
  | _ => exact h

theorem store_watch (w : World) (i : Nat) (g : LoadLog) (list : List Happening) (s : Store)
    (h : g.work.foldl Store.carryOut s = w.store) :
    (g.watch w i list).work.foldl Store.carryOut s = (w.undergo list).store := by
  induction list generalizing w g with
  | nil => exact h
  | cons x rest ih => exact ih _ _ (store_note w i g x s h)

theorem Loading.ended (h : w.Loading id i g q) (he : ∃ e ∈ w.ended, e.id = id) :
    g.received = g.accepted ∧ q.isOpen = false ∧
      g.saved = (g.accepted.flatMap fun r => r.catalog.offers) ∧
      w.loaded[i]? = some (.ofList g.accepted) := by
  obtain ⟨e, hm, hi⟩ := he
  obtain ⟨-, ho, hh, ht⟩ := h.past e hm hi
  have hk := h.kept
  rw [hh, List.append_nil] at hk
  rw [← hk] at ht
  exact ⟨hk.symm, ho, by rw [ht.saved, List.append_nil], ht.count⟩

theorem loading_startLoader (hr : w.results = []) (hl : w.loaded = []) (hj : w.jobs = [])
    (he : w.ended = []) (capacity senders : Nat) :
    (w.startLoader (.empty capacity senders)).Loading w.nextId 0 .empty
      (.empty capacity senders) := by
  have hjobs : ∀ j ∈ (w.startLoader (.empty capacity senders)).jobs,
      j = ⟨w.nextId, .load ⟨0, w.background.signal, (w.signal w.background.signal).version,
        .receiving⟩⟩ := by
    intro j hm
    simpa [startLoader, World.spawn, hj, hr, signal] using hm
  refine ⟨?_, rfl, Nat.lt_succ_self _, fun j hm t ht => ?_, fun j hm hi => ?_, fun e hm => ?_⟩
  · simp [startLoader, World.spawn, hr]
  · rw [hjobs j hm]
  · have ht : (w.startLoader (.empty capacity senders)).Tally 0 .empty [] [] := by
      refine ⟨?_, rfl⟩
      simp [startLoader, World.spawn, hl]
      rfl
    rw [hjobs j hm]
    exact ⟨rfl, _, rfl, rfl, ht⟩
  · simp [startLoader, World.spawn, he] at hm

end Happenings

end World

end CatalogCrawl

import CatalogCrawl.Proofs.World.Deliveries
import CatalogCrawl.Proofs.World.Dispatching

namespace CatalogCrawl

@[ext] structure Asking where
  adapter : Nat
  request : Request
  files : Files
  earlier : Nat
  reply : Reply

/-- What a call has done in a run: its requests, its attempts at the queue of results, each with the
queue found and the queue left, and what has been counted of it. -/
structure CallCourse where
  asked : List Asking
  attempts : List (ResultQueue × ResultQueue)
  counted : List CallOutcome

def CallCourse.delivered (c : CallCourse) : List Response :=
  c.attempts.flatMap fun (found, left) => left.held.drop found.held.length

inductive CallCourse.Settles (a : Asking) : CallCourse → Prop
  | delivered (r : Response) (q : ResultQueue) (h : a.reply.outcome = .ok r) :
    Settles a ⟨[a], [(q, q.push r)], [.delivered]⟩
  | failed (fault : AdapterFault) (h : a.reply.outcome = .error fault) :
    Settles a ⟨[a], [], [.failed]⟩

namespace CrawlStats

def added? (s s' : CrawlStats) : Option CallOutcome :=
  [CallOutcome.delivered, .failed, .undelivered].find? fun o => s' = s.recordCall o

theorem added?_self (s : CrawlStats) : s.added? s = none := by
  cases s
  simp [added?, recordCall]

theorem added?_recordCall (s : CrawlStats) (o : CallOutcome) :
    s.added? (s.recordCall o) = some o := by
  cases s
  cases o <;> simp [added?, recordCall]

end CrawlStats

variable {w v : World} {id : TaskId} {e : Event} {served : Served} {t : CallTask}

open World

namespace World

def asking? (w : World) (id : TaskId) (e : Event) : Option Asking :=
  if w.acts id e then
    match w.job? id with
    | some ⟨_, .call ⟨_, _, adapter, request, .starting⟩⟩ =>
      (w.registry.get? adapter).map fun (a, earlier) =>
        ⟨adapter, request, w.files, earlier, a.reply w.files earlier request⟩
    | _ => none
  else none

def counted? (w : World) (id : TaskId) (e : Event) : Option CallOutcome :=
  if w.acts id e then w.stats.added? (w.react e).stats else none

def waiting (id : TaskId) (nanos : Nat) : List Event :=
  [.step (.turn id true), .step (.pass nanos), .step (.turn id true)]

def course (w : World) (id : TaskId) : List Event → CallCourse
  | [] => ⟨[], [], []⟩
  | e :: rest =>
    let c := (w.react e).course id rest
    ⟨(w.asking? id e).toList ++ c.asked, (w.attempt? id e).toList ++ c.attempts,
      (w.counted? id e).toList ++ c.counted⟩

theorem deeds_of_not_acts (h : w.acts id e = false) :
    w.asking? id e = none ∧ w.attempt? id e = none ∧ w.counted? id e = none := by
  simp [asking?, attempt?, counted?, h]

theorem course_of_not_isLive (hi : id < w.nextId) (h : w.isLive id = false)
    (events : List Event) : w.course id events = ⟨[], [], []⟩ := by
  induction events generalizing w with
  | nil => rfl
  | cons e rest ih =>
    obtain ⟨ha, ht, hc⟩ := deeds_of_not_acts (acts_of_not_isLive h e)
    have hr := ih (Nat.lt_of_lt_of_le hi (w.nextId_react e)) (not_isLive_react hi h e)
    simp only [course, ha, ht, hc, hr, Option.toList_none, List.append_nil]

theorem counted?_turn {signalFirst : Bool} {j : Job} (h : w.acting? id = some j) :
    w.counted? id (.step (.turn id signalFirst)) =
      w.stats.added? (j.task.turn w id signalFirst).stats := by
  have ha : w.acts id (.step (.turn id signalFirst)) = true := acts_iff.2 ⟨_, _, rfl, h⟩
  rw [counted?, if_pos ha, react_of_acts h]

theorem toList_react (h : w.Settled) (e : Event) :
    w.registry.toList <+: (w.react e).registry.toList := by
  obtain ⟨n, hs⟩ := h.sound
  by_cases hc : w.isCrawling e = true
  · obtain ⟨id, signalFirst, t, rfl, hj⟩ := of_isCrawling hc
    obtain ⟨activity, hmode⟩ := hs.isSteady (mem_of_job? hj).1
    simp only [react, step, hj]
    split
    · exact (t.turn_round hmode signalFirst).carries.registry ▸ List.prefix_rfl
    · exact List.prefix_rfl
  by_cases hk : w.isCalling e = true
  · obtain ⟨id, signalFirst, t, rfl, hj⟩ := of_isCalling hk
    simp only [react, step, hj]
    split
    · exact (t.turn_carries w).registry ▸ List.prefix_rfl
    · exact List.prefix_rfl
  · rw [Bool.not_eq_true] at hc hk
    exact (react_supplied h hc hk).registry

end World

structure CallTask.Asks (registry : Registry) (t : CallTask) (a : Asking) : Prop where
  adapter : a.adapter = t.adapter
  request : a.request = t.request
  reply : ∃ adapter, registry.toList[t.adapter]? = some adapter ∧
    a.reply = adapter.reply a.files a.earlier t.request

theorem CallTask.Asks.of_prefix {registry later : Registry} {a : Asking} (h : t.Asks later a)
    (hp : registry.toList <+: later.toList) (hl : t.adapter < registry.size) :
    t.Asks registry a := by
  obtain ⟨adapter, ha, hr⟩ := h.reply
  obtain ⟨more, hm⟩ := hp
  have hl : t.adapter < registry.toList.length := by simpa [Registry.toList, Registry.size] using hl
  rw [← hm, List.getElem?_append_left hl] at ha
  exact ⟨h.adapter, h.request, adapter, ha, hr⟩

section Answering

variable {due : Nat} {warnAt : Option Nat} {outcome : Except AdapterFault Response}
  {q : ResultQueue}

theorem CallTask.deliver_of_hasSpace (hq : w.results[t.results]? = some q) (hs : q.HasSpace)
    (id : TaskId) (d : Delivery) : t.deliver w id d =
      conclude (w.setResults t.results (q.push d.response)) id .delivered := by
  unfold deliver
  rw [hq]
  simp only [Delivery.attempt_of_hasSpace hs]

namespace World

theorem acting?_of_isReady (h : w.Sound none 0 served) (hm : ⟨id, .call t⟩ ∈ w.jobs)
    (hr : t.isReady w = true) : w.acting? id = some ⟨id, .call t⟩ :=
  Option.filter_eq_some_iff.2 ⟨h.job?_of_mem hm, hr⟩

theorem deeds_of_late (h : w.acting? id = some ⟨id, .call t⟩)
    (ht : t.stage = .answering due warnAt outcome) (hd : ¬ due ≤ w.now) (signalFirst : Bool) :
    w.attempt? id (.step (.turn id signalFirst)) = none ∧
      w.counted? id (.step (.turn id signalFirst)) = none ∧
      ∃ later, ⟨id, .call { t with stage := .answering due later outcome }⟩ ∈
        (t.turn w id).jobs := by
  obtain ⟨-, hm, -⟩ := mem_of_acting? h
  have hsending : t.sending? w = none := by
    cases outcome <;> simp [CallTask.sending?, ht, hd]
  refine ⟨by rw [attempt?_turn h, hsending]; rfl, ?_, ?_⟩
  · rw [counted?_turn h, ← w.stats.added?_self]
    refine congrArg _ ?_
    simp only [Task.turn, CallTask.turn, ht, hd, if_false]
    split <;> rfl
  · simp only [CallTask.turn, ht, hd, if_false]
    split
    · exact ⟨none, List.mem_map.2 ⟨_, hm, if_pos (beq_self_eq_true id)⟩⟩
    · refine ⟨warnAt, ?_⟩
      rw [← ht]
      exact hm

theorem settles_of_due (h : w.Settled) (ha : w.acting? id = some ⟨id, .call t⟩) {a : Asking}
    (ht : t.stage = .answering due warnAt a.reply.outcome) (hd : due ≤ w.now) (signalFirst : Bool)
    (hs : ∀ x ∈ w.attempt? id (.step (.turn id signalFirst)), x.1.HasSpace) :
    (t.turn w id).isLive id = false ∧
      CallCourse.Settles a ⟨[a], (w.attempt? id (.step (.turn id signalFirst))).toList,
        (w.counted? id (.step (.turn id signalFirst))).toList⟩ := by
  obtain ⟨n, sound⟩ := h.sound
  obtain ⟨-, hm, -⟩ := mem_of_acting? ha
  have hturn : t.turn w id = t.answer w id a.reply.outcome := by
    simp only [CallTask.turn, ht, hd, if_true]
  rw [counted?_turn ha, attempt?_turn ha, Task.turn, hturn]
  cases ho : a.reply.outcome with
  | error fault =>
    have hsending : t.sending? w = none := by simp [CallTask.sending?, ht, ho]
    have hstats : (t.answer w id (.error fault)).stats = w.stats.recordCall .failed := rfl
    rw [hsending, hstats, CrawlStats.added?_recordCall]
    exact ⟨not_isLive_removeJob _ id, .failed fault ho⟩
  | ok r =>
    have hl : t.results < w.results.length := (sound.fit ⟨id, .call t⟩ (by rwa [others_none])).2
    have hq := List.getElem?_eq_getElem hl
    have hsending : t.sending? w = some (t.results, r) := by simp [CallTask.sending?, ht, ho, hd]
    have hr : (w.report (.info (CallTask.receivedMessage r))).results[t.results]? =
        some w.results[t.results] := hq
    have hleft := (t.deliver_leaves id (.start t.crawler.config.retry r) hr).1
    have hattempt : w.attempt? id (.step (.turn id signalFirst)) = some (w.results[t.results],
        ((Delivery.start t.crawler.config.retry r).attempt w.results[t.results]).2) := by
      rw [attempt?_turn ha, hsending, hturn, ho, CallTask.answer]
      simp only [Option.bind_some, hq, hleft, Option.map_some]
    have hspace : w.results[t.results].HasSpace := hs _ hattempt
    rw [attempt?_turn ha, hsending, hturn, ho] at hattempt
    rw [hsending, hattempt, Delivery.attempt_of_hasSpace hspace, CallTask.answer,
      CallTask.deliver_of_hasSpace hr hspace]
    refine ⟨not_isLive_removeJob _ id, ?_⟩
    have hstats : (CallTask.conclude ((w.report (.info (CallTask.receivedMessage r))).setResults
        t.results (w.results[t.results].push r)) id .delivered).stats =
          w.stats.recordCall .delivered := rfl
    rw [Delivery.start, hstats, CrawlStats.added?_recordCall]
    exact .delivered r _ ho

theorem react_answering (h : w.Settled) (hm : ⟨id, .call t⟩ ∈ w.jobs) {a : Asking}
    (ht : t.stage = .answering due warnAt a.reply.outcome) (e : Event)
    (hs : ∀ x ∈ w.attempt? id e, x.1.HasSpace) :
    w.asking? id e = none ∧
      (w.attempt? id e = none ∧ w.counted? id e = none ∧
        (∃ later, ⟨id, .call { t with stage := .answering due later a.reply.outcome }⟩ ∈
          (w.react e).jobs) ∨
      (w.react e).isLive id = false ∧
        CallCourse.Settles a ⟨[a], (w.attempt? id e).toList, (w.counted? id e).toList⟩) := by
  obtain ⟨n, sound⟩ := h.sound
  cases ha : w.acts id e with
  | false =>
    obtain ⟨hask, hattempt, hcount⟩ := deeds_of_not_acts ha
    refine ⟨hask, .inl ⟨hattempt, hcount, warnAt, ?_⟩⟩
    rw [← ht]
    exact call_stays h hm ha
  | true =>
    obtain ⟨signalFirst, j, rfl, hj⟩ := acts_iff.1 ha
    obtain rfl : j = ⟨id, .call t⟩ :=
      Option.some.inj ((mem_of_acting? hj).1.symm.trans (sound.job?_of_mem hm))
    refine ⟨?_, ?_⟩
    · rw [asking?, if_pos ha, (mem_of_acting? hj).1]
      rcases t with ⟨crawler, results, adapter, request, stage⟩
      obtain rfl : stage = _ := ht
      rfl
    rw [react_of_acts hj]
    by_cases hd : due ≤ w.now
    · exact .inr (settles_of_due h hj ht hd signalFirst hs)
    · exact .inl (deeds_of_late hj ht hd signalFirst)

theorem course_answering (h : w.Settled) (hm : ⟨id, .call t⟩ ∈ w.jobs) {a : Asking}
    (ht : t.stage = .answering due warnAt a.reply.outcome) (events : List Event)
    (hs : ∀ x ∈ w.attempts id events, x.1.HasSpace) :
    (w.course id events).asked = [] ∧
      ((w.play events).isLive id = true ∧ w.course id events = ⟨[], [], []⟩ ∨
        (w.play events).isLive id = false ∧ CallCourse.Settles a
          ⟨[a], (w.course id events).attempts, (w.course id events).counted⟩) := by
  induction events generalizing w t warnAt with
  | nil => exact ⟨rfl, .inl ⟨isLive_of_mem hm, rfl⟩⟩
  | cons e rest ih =>
    obtain ⟨n, sound⟩ := h.sound
    have hi : id < (w.react e).nextId := Nat.lt_of_lt_of_le (sound.lt_nextId hm) (w.nextId_react e)
    have hfirst : ∀ x ∈ w.attempt? id e, x.1.HasSpace := fun x hx =>
      hs x (List.mem_append_left _ (Option.mem_toList.2 hx))
    obtain ⟨hask, ⟨hattempt, hcount, later, hstays⟩ | ⟨hover, hsettles⟩⟩ :=
      react_answering h hm ht e hfirst
    · have hrest := ih (h.react e) hstays rfl fun x hx => hs x (List.mem_append_right _ hx)
      simp only [course, hask, hattempt, hcount, Option.toList_none, List.nil_append]
      exact hrest
    · have hrest := course_of_not_isLive hi hover rest
      simp only [course, hask, hrest, Option.toList_none, List.append_nil]
      exact ⟨trivial, .inr ⟨not_isLive_play hi hover rest, hsettles⟩⟩

theorem asks_of_acting (h : w.Settled) (hj : w.acting? id = some ⟨id, .call t⟩)
    (ht : t.stage = .starting) (signalFirst : Bool) :
    w.attempt? id (.step (.turn id signalFirst)) = none ∧
      w.counted? id (.step (.turn id signalFirst)) = none ∧
      (t.turn w id).now = w.now ∧
      ∃ a warnAt, w.asking? id (.step (.turn id signalFirst)) = some a ∧ t.Asks w.registry a ∧
        ⟨id, .call { t with
          stage := .answering (w.now + a.reply.delay.nanos) warnAt a.reply.outcome }⟩ ∈
            (t.turn w id).jobs := by
  obtain ⟨n, sound⟩ := h.sound
  obtain ⟨hjob, hm, -⟩ := mem_of_acting? hj
  have hl : t.adapter < w.registry.size := (sound.fit ⟨id, .call t⟩ (by rwa [others_none])).1
  obtain ⟨⟨adapter, earlier⟩, hget⟩ : ∃ x, w.registry.get? t.adapter = some x :=
    ⟨_, List.getElem?_eq_getElem hl⟩
  have hadapter : w.registry.toList[t.adapter]? = some adapter := by
    rw [Registry.toList, List.getElem?_map]
    exact congrArg (Option.map Prod.fst) hget
  have hask : w.asking? id (.step (.turn id signalFirst)) = some ⟨t.adapter, t.request, w.files,
      earlier, adapter.reply w.files earlier t.request⟩ := by
    rw [asking?, if_pos (acts_iff.2 ⟨_, _, rfl, hj⟩), hjob]
    rcases t with ⟨crawler, results, position, request, stage⟩
    obtain rfl : stage = .starting := ht
    simp only [hget, Option.map_some]
  have hsending : t.sending? w = none := by rw [CallTask.sending?, ht]
  have hturn : t.turn w id = t.ask w id := by rw [CallTask.turn, ht]
  rw [attempt?_turn hj, counted?_turn hj, hsending, Task.turn, hturn, CallTask.ask, hget]
  simp only
  refine ⟨rfl, ?_, ?_, _, some (w.now + t.crawler.config.requestTimeout.nanos), hask,
    ⟨rfl, rfl, adapter, hadapter, rfl⟩, ?_⟩
  · refine Eq.trans (congrArg _ ?_) w.stats.added?_self
    split <;> rfl
  · split <;> rfl
  · split
    · exact mem_jobs_keepFirst.2 (.inl rfl)
    · exact mem_jobs_keepLast.2 (.inr rfl)

theorem react_starting (h : w.Settled) (hm : ⟨id, .call t⟩ ∈ w.jobs) (ht : t.stage = .starting)
    (e : Event) : w.attempt? id e = none ∧ w.counted? id e = none ∧
      (w.asking? id e = none ∧ ⟨id, .call t⟩ ∈ (w.react e).jobs ∨
      ∃ a due warnAt, w.asking? id e = some a ∧ t.Asks w.registry a ∧
        ⟨id, .call { t with stage := .answering due warnAt a.reply.outcome }⟩ ∈
          (w.react e).jobs) := by
  obtain ⟨n, sound⟩ := h.sound
  cases ha : w.acts id e with
  | false =>
    obtain ⟨hask, hattempt, hcount⟩ := deeds_of_not_acts ha
    exact ⟨hattempt, hcount, .inl ⟨hask, call_stays h hm ha⟩⟩
  | true =>
    obtain ⟨signalFirst, j, rfl, hj⟩ := acts_iff.1 ha
    obtain rfl : j = ⟨id, .call t⟩ :=
      Option.some.inj ((mem_of_acting? hj).1.symm.trans (sound.job?_of_mem hm))
    obtain ⟨hattempt, hcount, -, a, warnAt, hask, hasks, hstays⟩ :=
      asks_of_acting h hj ht signalFirst
    rw [react_of_acts hj]
    exact ⟨hattempt, hcount, .inr ⟨a, _, warnAt, hask, hasks, hstays⟩⟩

/-- How far a call has come that was just started: it has not asked yet, or it has no reply yet, or
it is over and has done what the reply settles. -/
inductive Courses (w : World) (t : CallTask) : Bool → CallCourse → Prop
  | starting : Courses w t true ⟨[], [], []⟩
  | answering (a : Asking) (h : t.Asks w.registry a) : Courses w t true ⟨[a], [], []⟩
  | ended (a : Asking) (h : t.Asks w.registry a) (c : CallCourse) (hc : c.Settles a) :
    Courses w t false c

theorem Courses.of_later (h : w.Settled) (hl : t.adapter < w.registry.size) {e : Event}
    {isLive : Bool} {c : CallCourse} (hc : (w.react e).Courses t isLive c) :
    w.Courses t isLive c := by
  have earlier {a : Asking} (ha : t.Asks (w.react e).registry a) : t.Asks w.registry a :=
    ha.of_prefix (toList_react h e) hl
  cases hc with
  | starting => exact .starting
  | answering a ha => exact .answering a (earlier ha)
  | ended a ha c hc => exact .ended a (earlier ha) c hc

theorem course_starting (h : w.Settled) (hm : ⟨id, .call t⟩ ∈ w.jobs) (ht : t.stage = .starting)
    (events : List Event) (hs : ∀ x ∈ w.attempts id events, x.1.HasSpace) :
    w.Courses t ((w.play events).isLive id) (w.course id events) := by
  induction events generalizing w with
  | nil =>
    rw [play_nil, isLive_of_mem hm]
    exact .starting
  | cons e rest ih =>
    obtain ⟨n, sound⟩ := h.sound
    have hl : t.adapter < w.registry.size := (sound.fit ⟨id, .call t⟩ (by rwa [others_none])).1
    have hrest : ∀ x ∈ (w.react e).attempts id rest, x.1.HasSpace := fun x hx =>
      hs x (List.mem_append_right _ hx)
    obtain ⟨hattempt, hcount, ⟨hask, hstays⟩ | ⟨a, due, warnAt, hask, hasks, hstays⟩⟩ :=
      react_starting h hm ht e
    · have hc := ih (h.react e) hstays hrest
      simp only [course, hask, hattempt, hcount, Option.toList_none, List.nil_append]
      exact hc.of_later h hl
    · obtain ⟨hasked, ⟨hlive, hc⟩ | ⟨hover, hc⟩⟩ :=
        course_answering (h.react e) hstays rfl rest hrest
      · have hplay : (w.play (e :: rest)).isLive id = true := hlive
        simp only [course, hask, hattempt, hcount, hc, hplay, Option.toList_none,
          Option.toList_some, List.append_nil]
        exact .answering a hasks
      · have hplay : (w.play (e :: rest)).isLive id = false := hover
        simp only [course, hask, hattempt, hcount, hasked, hplay, Option.toList_none,
          Option.toList_some, List.nil_append, List.append_nil]
        exact .ended a hasks _ hc

theorem over_in_time (h : w.Settled) (hm : ⟨id, .call t⟩ ∈ w.jobs) (ht : t.stage = .starting) :
    ∃ nanos, (∀ x ∈ w.attempts id (waiting id nanos), x.1.HasSpace) →
      (w.play (waiting id nanos)).isLive id = false := by
  obtain ⟨n, sound⟩ := h.sound
  have hj : w.acting? id = some ⟨id, .call t⟩ :=
    acting?_of_isReady sound hm (by simp [CallTask.isReady, ht])
  obtain ⟨-, -, hnow, a, warnAt, -, -, hstays⟩ := asks_of_acting h hj ht true
  refine ⟨a.reply.delay.nanos, fun hs => ?_⟩
  have hv : w.react (.step (.turn id true)) = t.turn w id := react_of_acts hj
  rw [← hv] at hnow hstays
  have settled := (h.react (.step (.turn id true))).react (.step (.pass a.reply.delay.nanos))
  have hlater := call_stays (h.react _) hstays (e := .step (.pass a.reply.delay.nanos)) rfl
  have hdue : w.now + a.reply.delay.nanos ≤ ((w.react (.step (.turn id true))).react
      (.step (.pass a.reply.delay.nanos))).now :=
    Nat.le_of_eq (congrArg (· + a.reply.delay.nanos) hnow.symm)
  have hlast : ∀ x ∈ ((w.react (.step (.turn id true))).react
      (.step (.pass a.reply.delay.nanos))).attempt? id (.step (.turn id true)), x.1.HasSpace := by
    intro x hx
    refine hs x ?_
    simp only [attempts, waiting, List.mem_append, Option.mem_toList]
    exact .inr (.inr (.inl hx))
  have hplay : w.play (waiting id a.reply.delay.nanos) = ((w.react (.step (.turn id true))).react
      (.step (.pass a.reply.delay.nanos))).react (.step (.turn id true)) := rfl
  rw [hplay]
  generalize (w.react (.step (.turn id true))).react (.step (.pass a.reply.delay.nanos)) = u at *
  obtain ⟨m, later⟩ := settled.sound
  have hready := acting?_of_isReady later hlater (by simp [CallTask.isReady, hdue])
  rw [react_of_acts hready]
  exact (settles_of_due settled hready rfl hdue true hlast).1

variable {w' : World} {t' : CallTask} {c c' : CallCourse}

theorem Courses.alike (h : w.Courses t false c) (h' : w'.Courses t' false c')
    (ha : t'.adapter = t.adapter) (hr : t'.request = t.request)
    (hg : w'.registry.toList[t.adapter]? = w.registry.toList[t.adapter]?)
    (hs : ∀ a ∈ c.asked, ∀ a' ∈ c'.asked, a'.files = a.files ∧ a'.earlier = a.earlier) :
    c'.asked = c.asked ∧ c'.delivered = c.delivered ∧ c'.counted = c.counted := by
  obtain ⟨a, hasks, hc⟩ : ∃ a, t.Asks w.registry a ∧ c.Settles a := by
    cases h with
    | ended a ha c hc => exact ⟨a, ha, hc⟩
  obtain ⟨a', hasks', hc'⟩ : ∃ a, t'.Asks w'.registry a ∧ c'.Settles a := by
    cases h' with
    | ended a ha c hc => exact ⟨a, ha, hc⟩
  have asked {a : Asking} {c : CallCourse} (hc : c.Settles a) : c.asked = [a] := by
    cases hc <;> rfl
  obtain ⟨hf, he⟩ := hs a (by simp [asked hc]) a' (by simp [asked hc'])
  obtain ⟨adapter, had, hrep⟩ := hasks.reply
  obtain ⟨adapter', had', hrep'⟩ := hasks'.reply
  rw [ha, hg, had] at had'
  cases had'
  have reply : a'.reply = a.reply := by
    rw [hrep', hrep, hr, hf, he]
  have same : a' = a := Asking.ext (hasks'.adapter.trans (ha.trans hasks.adapter.symm))
    (hasks'.request.trans (hr.trans hasks.request.symm)) hf he reply
  subst same
  cases hc with
  | delivered r q hok =>
    cases hc' with
    | delivered r' q' hok' =>
      cases hok.symm.trans hok'
      simp [CallCourse.delivered, ResultQueue.push]
    | failed fault hfault => cases hok.symm.trans hfault
  | failed fault hfault =>
    cases hc' with
    | delivered r' q' hok' => cases hfault.symm.trans hok'
    | failed => exact ⟨rfl, rfl, rfl⟩

end World

end Answering

/-- An item that adapters serve is asked of each of them once, in the order of their registration, by
its address and protocol, and the queue stays as it is, then and in the turns of the calls; an item
that none serves is asked of none. No other call is ever started. A call asks once; when it is over,
which it is after the delay of the reply, its answer has been put on the queue of results once and
counted as delivered, or its failure has been counted once, as long as the queue of results has
space. All of this is settled by what its own adapter replies: in any two runs in which that is
asked in the same circumstances, whatever other adapters reply and when, the same comes of it. -/
theorem World.calls_fan_out :
    (∀ (w : World) (crawler : Crawler) (results : Nat) (item : WorkItem),
      (w.askedFor item).Pairwise (· < ·) ∧
      (∀ i, i ∈ w.askedFor item ↔ w.registry.Serves i item.protocol) ∧
      (∀ v : World, v.registry.toList.map (·.serves item.protocol) =
        w.registry.toList.map (·.serves item.protocol) → v.askedFor item = w.askedFor item) ∧
      (w.work crawler results item).2.calls =
        w.calls ++ newCalls crawler results ⟨item.url, item.protocol⟩ w.nextId (w.askedFor item) ∧
      (w.askedFor item ≠ [] →
        (w.work crawler results item).1 = .dispatched (w.askedFor item).length ∧
        (w.work crawler results item).2.queue = w.queue ∧
        (w.work crawler results item).2.journal = w.journal) ∧
      (w.askedFor item = [] → (w.work crawler results item).2.jobs = w.jobs)) ∧
    ∀ (s : Setup) (before : List Event),
      let w := s.world.play before
      (∀ e : Event,
        ((∀ x ∈ (w.react e).calls, ∃ y ∈ w.calls, y.1 = x.1) ∧
          (w.react e).stats.cycles = w.stats.cycles) ∨
        ∃ id t item, ⟨id, .crawl t⟩ ∈ w.jobs ∧ t.Handles w item (w.react e)) ∧
      (∀ e : Event, w.isCalling e = true → (w.react e).queue = w.queue) ∧
      ∀ (id : TaskId) (t : CallTask), ⟨id, .call t⟩ ∈ w.jobs → t.stage = .starting →
        (∃ nanos, (∀ x ∈ w.attempts id (waiting id nanos), x.1.HasSpace) →
          (w.play (waiting id nanos)).isLive id = false) ∧
        ∀ after : List Event, (∀ x ∈ w.attempts id after, x.1.HasSpace) →
          w.Courses t ((w.play after).isLive id) (w.course id after) ∧
          ∀ (s' : Setup) (before' after' : List Event) (id' : TaskId) (t' : CallTask),
            let w' := s'.world.play before'
            let c := w.course id after
            let c' := w'.course id' after'
            ⟨id', .call t'⟩ ∈ w'.jobs → t'.stage = .starting →
            (∀ x ∈ w'.attempts id' after', x.1.HasSpace) →
            (w.play after).isLive id = false → (w'.play after').isLive id' = false →
            t'.adapter = t.adapter → t'.request = t.request →
            w'.registry.toList[t.adapter]? = w.registry.toList[t.adapter]? →
            (∀ a ∈ c.asked, ∀ a' ∈ c'.asked, a'.files = a.files ∧ a'.earlier = a.earlier) →
              c'.asked = c.asked ∧ c'.delivered = c.delivered ∧ c'.counted = c.counted := by
  constructor
  · intro w crawler results item
    obtain ⟨hcalls, hserved, hunserved⟩ := w.work_fans_out crawler results item
    exact ⟨Registry.pairwise_matching _ _, fun i => Registry.mem_matching_iff,
      fun v => askedFor_congr, hcalls, hserved, hunserved⟩
  · intro s before w
    have h : w.Settled := play_settled s before
    refine ⟨handles_or_calls_old h, fun e => queue_react_of_isCalling, fun id t hm ht =>
      ⟨over_in_time h hm ht, fun after hs => ⟨course_starting h hm ht after hs, ?_⟩⟩⟩
    intro s' before' after' id' t' w' c c' hm' ht' hs' hover hover' ha hr hg hsame
    have hc := course_starting h hm ht after hs
    have hc' := course_starting (play_settled s' before') hm' ht' after' hs'
    rw [hover] at hc
    rw [hover'] at hc'
    exact hc.alike hc' ha hr hg hsame

namespace Setup

def uneven : Setup := { Account.lone with
  adapters := [⟨"answering", fun _ => true, fun _ _ r => ⟨.zero, .ok ⟨r.url, ⟨"", []⟩⟩⟩, false⟩,
    Account.failing] }

def worse : Setup := { Account.lone with
  adapters := [⟨"answering", fun _ => true, fun _ _ _ => ⟨.ofMillis 5, .error .decode⟩, false⟩,
    Account.failing] }

def underway : List Event :=
  [.launch (.manage ⟨.start, .entering⟩), .step (.turn 0 true), .offer Account.unserved,
    .step (.turn 1 true)]

def called (adapter : Nat) : CallTask :=
  ⟨⟨0, .standard⟩, 0, adapter, Account.unserved.request, .starting⟩

def atOnce : List Event :=
  [.step (.turn 2 true), .step (.turn 3 true), .step (.turn 2 true), .step (.turn 3 true)]

def inTime : List Event :=
  [.step (.turn 3 true), .step (.turn 2 true), .step (.turn 3 true), .step (.pass 5000000),
    .step (.turn 2 true)]

def lastAsking : Asking :=
  ⟨1, Account.unserved.request, .empty [], 0, ⟨.zero, .error .decode⟩⟩

theorem calls_fan_out_uneven :
    let w := uneven.world.play underway
    let v := worse.world.play underway
    ⟨2, .call (called 0)⟩ ∈ w.jobs ∧ ⟨3, .call (called 1)⟩ ∈ w.jobs ∧
    ⟨3, .call (called 1)⟩ ∈ v.jobs ∧
    w.Courses (called 0) false (w.course 2 atOnce) ∧
    (w.course 2 atOnce).counted = [.delivered] ∧ (v.course 2 inTime).counted = [.failed] ∧
    (w.course 3 atOnce).asked = [lastAsking] ∧
    (v.course 3 inTime).asked = (w.course 3 atOnce).asked ∧
    (v.course 3 inTime).counted = (w.course 3 atOnce).counted := by
  intro w v
  have h2 : ⟨2, .call (called 0)⟩ ∈ w.jobs := .tail _ (.head _)
  have h3 : ⟨3, .call (called 1)⟩ ∈ w.jobs := .tail _ (.tail _ (.head _))
  have h3' : ⟨3, .call (called 1)⟩ ∈ v.jobs := .tail _ (.tail _ (.head _))
  have hasked : (w.course 3 atOnce).asked = [lastAsking] := rfl
  have hasked' : (v.course 3 inTime).asked = [lastAsking] := rfl
  have hsame : ∀ a ∈ (w.course 3 atOnce).asked, ∀ a' ∈ (v.course 3 inTime).asked,
      a'.files = a.files ∧ a'.earlier = a.earlier := by
    rw [hasked, hasked']
    simp
  have hspace : ∀ id ∈ [2, 3], ∀ x ∈ w.attempts id atOnce, x.1.HasSpace := by decide
  have hspace' : ∀ x ∈ v.attempts 3 inTime, x.1.HasSpace := by decide
  have hover : ∀ id ∈ [2, 3], (w.play atOnce).isLive id = false := by decide
  have hover' : (v.play inTime).isLive 3 = false := by decide
  have hcalls := (World.calls_fan_out.2 uneven underway).2.2
  have hfirst := ((hcalls 2 (called 0) h2 rfl).2 atOnce (hspace 2 (by decide))).1
  rw [hover 2 (by decide)] at hfirst
  have hsecond := ((hcalls 3 (called 1) h3 rfl).2 atOnce (hspace 3 (by decide))).2
  have hr : w.registry.toList[1]? = some Account.failing := rfl
  have hr' : v.registry.toList[1]? = some Account.failing := rfl
  have hlike := hsecond worse underway inTime 3 (called 1) h3' rfl hspace' (hover 3 (by decide))
    hover' rfl rfl (hr'.trans hr.symm) hsame
  exact ⟨h2, h3, h3', hfirst, by decide, by decide, hasked, hlike.1, hlike.2.2⟩

end Setup

end CatalogCrawl

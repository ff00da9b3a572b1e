import CatalogCrawl.Proofs.World.Order
import CatalogCrawl.Proofs.World.Timeless

namespace CatalogCrawl

open World

variable {w v u : World} {id : TaskId} {e : Event} {tick : Nat → Prop} {arrival : Option Nat}

namespace World

/-- A world without the limits, and without what was said in the log. -/
def bare (w : World) : World :=
  { w with journal := { w.journal with notices := [] } }.untimed []

theorem bare_untimed (w : World) (before : List Notice) : (w.untimed before).bare = w.bare :=
  congrArg (fun v : World => { v with journal := { v.journal with notices := [] } })
    (w.untimed_untimed before [])

theorem untimed_bare (w : World) : w.bare.untimed w.journal.notices = w.untimed [] := by
  rw [bare, untimed_untimed]
  simp [untimed, Journal.after]

theorem now_bare (w : World) : w.bare.now = w.now := rfl

theorem react_bare (h : w.isPlain e = true) : (w.react e).bare = (w.bare.react e).bare ∧
    (w.react e).journal.notices = (w.bare.react e).journal.notices ++ w.journal.notices := by
  have hb : w.bare.isPlain e = true := by
    rw [bare, isPlain_untimed]
    exact h
  have he : (w.react e).untimed [] = (w.bare.react e).untimed w.journal.notices :=
    calc (w.react e).untimed []
      _ = ((w.untimed []).react e).untimed [] := (react_untimed h []).symm
      _ = ((w.bare.untimed w.journal.notices).react e).untimed [] := by rw [untimed_bare]
      _ = (w.bare.react e).untimed w.journal.notices := react_untimed hb _
  refine ⟨?_, ?_⟩
  · rw [← bare_untimed (w.react e) [], he, bare_untimed]
  · have hn := congrArg (fun v : World => v.journal.notices) he
    simpa [untimed, Journal.after] using hn

def asked? (w : World) : Event → Option (Nat × Request)
  | .step (.turn id _) =>
    match w.job? id with
    | some ⟨_, .call ⟨_, _, adapter, request, .starting⟩⟩ =>
      (w.registry.get? adapter).map fun _ => (adapter, request)
    | _ => none
  | _ => none

def sent? (w : World) : Event → Option (Nat × Response)
  | .step (.turn id _) => (w.job? id).bind fun j => j.task.sending? w
  | _ => none

def said (w : World) (e : Event) : List Notice :=
  (w.react e).journal.notices.take
    ((w.react e).journal.notices.length - w.journal.notices.length)

end World

structure Stroke where
  time : Nat
  event : Event
  asked : Option (Nat × Request)
  sent : Option (Nat × Response)
  said : List Notice
  after : World

namespace World

def stroke (w : World) (e : Event) : Stroke :=
  ⟨w.now, e, w.asked? e, w.sent? e, w.said e, (w.react e).bare⟩

def strokes (w : World) : List Event → List Stroke
  | [] => []
  | e :: rest =>
    if w.isPlain e then w.stroke e :: (w.react e).strokes rest else (w.react e).strokes rest

def IsQuiet (w : World) : Prop := ∀ j ∈ w.jobs, j.task.untimed.isReady w j.id = false

/-- Time stands still as long as a task has something to do other than to warn, and then goes on to
a tick of the clock, but to none beyond one at which a task has something to do or something comes
from outside. -/
structure Elapses (tick : Nat → Prop) (arrival : Option Nat) (w : World) (nanos : Nat) : Prop where
  ticks : nanos = 0 ∨ tick (w.now + nanos)
  quiet : ∀ time, time = w.now ∨ tick time → w.now ≤ time → time < w.now + nanos →
    ({ w with now := time } : World).IsQuiet
  before : ∀ time, arrival = some time → nanos = 0 ∨ w.now + nanos ≤ time

end World

/-- What decides how a run goes on, given what has happened so far. -/
structure Script where
  tick : Nat → Prop
  next : List Stroke → Nat → Event
  arrival : List Stroke → Option Nat

def Event.isOutside : Event → Bool
  | .step _ => false
  | _ => true

namespace World

/-- A run as a script has it, from a world before which something may have happened. Of warnings
the script says nothing. -/
def Follows (s : Script) (past : List Stroke) (w : World) : List Event → Prop
  | [] => True
  | e :: rest =>
    if w.isPlain e then
      (e = s.next past w.now ∧ (e.isOutside = true → s.arrival past = some w.now)) ∧
        (w.react e).Follows s (past ++ [w.stroke e]) rest
    else
      (∀ nanos, e = .step (.pass nanos) → w.Elapses s.tick (s.arrival past) nanos) ∧
        (w.react e).Follows s past rest

section Follows

variable {s : Script} {past : List Stroke} {rest : List Event}

theorem Follows.plain (h : w.isPlain e = true) (hn : e = s.next past w.now)
    (ha : e.isOutside = true → s.arrival past = some w.now)
    (hr : (w.react e).Follows s (past ++ [w.stroke e]) rest) : w.Follows s past (e :: rest) := by
  rw [Follows, if_pos h]
  exact ⟨⟨hn, ha⟩, hr⟩

theorem Follows.trifle (h : w.isPlain e = false)
    (hp : ∀ nanos, e = .step (.pass nanos) → w.Elapses s.tick (s.arrival past) nanos)
    (hr : (w.react e).Follows s past rest) : w.Follows s past (e :: rest) := by
  rw [Follows, h]
  exact ⟨hp, hr⟩

end Follows

theorem said_eq (h : w.isPlain e = true) : w.said e = (w.bare.react e).journal.notices := by
  rw [said, (react_bare h).2, List.length_append, Nat.add_sub_cancel, List.take_left]

theorem job?_bare (w : World) (id : TaskId) : w.bare.job? id = (w.job? id).map Job.untimed :=
  job?_untimed { w with journal := { w.journal with notices := [] } } [] id

theorem asked?_bare (w : World) (e : Event) : w.bare.asked? e = w.asked? e := by
  unfold asked?
  split
  · rw [job?_bare]
    cases w.job? _ with
    | none => rfl
    | some j =>
      rcases j with ⟨i, task⟩
      cases task with
      | call t =>
        rcases t with ⟨crawler, results, adapter, request, stage⟩
        cases stage <;> rfl
      | _ => rfl
  · rfl

theorem sending?_untimed (t : Task) (w : World) : t.untimed.sending? w.bare = t.sending? w := by
  cases t with
  | call t =>
    rcases t with ⟨crawler, results, adapter, request, stage⟩
    cases stage with
    | answering due warnAt outcome => cases outcome <;> rfl
    | _ => rfl
  | _ => rfl

theorem sent?_bare (w : World) (e : Event) : w.bare.sent? e = w.sent? e := by
  unfold sent?
  split
  · rw [job?_bare]
    cases w.job? _ with
    | none => rfl
    | some j => exact sending?_untimed j.task w
  · rfl

theorem stroke_eq (h : w.isPlain e = true) : w.stroke e =
    ⟨w.bare.now, e, w.bare.asked? e, w.bare.sent? e, (w.bare.react e).journal.notices,
      (w.bare.react e).bare⟩ := by
  rw [stroke, said_eq h, (react_bare h).1, asked?_bare, sent?_bare, now_bare]

theorem isReady_journal (t : Task) (w : World) (journal : Journal) (id : TaskId) :
    t.isReady { w with journal := journal } id = t.isReady w id := by
  cases t with
  | poll ticket deadline => cases ticket <;> rfl
  | _ => rfl

theorem isReady_bare (t : Task) (w : World) (id : TaskId) :
    t.isReady w.bare id = t.isReady w id :=
  (t.isReady_untimed _ [] id).trans (isReady_journal t w _ id)

theorem isQuiet_bare : w.bare.IsQuiet ↔ w.IsQuiet := by
  have hj (j : Job) : j.untimed.task.untimed.isReady w.bare j.untimed.id =
      j.task.untimed.isReady w j.id := by
    rw [show j.untimed.task.untimed = j.task.untimed from j.task.untimed_untimed]
    exact isReady_bare _ w j.id
  constructor
  · intro h j hm
    rw [← hj]
    exact h _ (List.mem_map_of_mem hm)
  · intro h j hm
    obtain ⟨k, hk, rfl⟩ := List.mem_map.1 hm
    rw [hj]
    exact h k hk

theorem not_isQuiet {signalFirst : Bool} (h : w.isPlain (.step (.turn id signalFirst)) = true) :
    ¬ w.IsQuiet := by
  intro hq
  cases hj : w.job? id with
  | none => simp [isPlain, hj] at h
  | some j =>
    obtain ⟨hm, rfl⟩ := mem_of_job? hj
    have hr := hq j hm
    simp [isPlain, hj, hr] at h

structure Drifts (tick : Nat → Prop) (arrival : Option Nat) (w v : World) : Prop where
  later : w.now ≤ v.now
  ticks : v.now = w.now ∨ tick v.now
  quiet : ∀ time, time = w.now ∨ tick time → w.now ≤ time → time < v.now →
    ({ w with now := time } : World).IsQuiet
  before : ∀ time, arrival = some time → v.now = w.now ∨ v.now ≤ time
  bare : v.bare = { w.bare with now := v.now }

theorem Drifts.of_bare (h : v.bare = w.bare) : w.Drifts tick arrival v := by
  have hn : v.bare.now = w.bare.now := by rw [h]
  rw [now_bare, now_bare] at hn
  refine ⟨Nat.le_of_eq hn.symm, .inl hn, fun time _ hl hg => ?_, fun _ _ => .inl hn, ?_⟩
  · rw [hn] at hg
    exact absurd hg (Nat.not_lt.2 hl)
  · rw [h, hn]
    rfl

theorem Elapses.drifts {nanos : Nat} (h : w.Elapses tick arrival nanos) :
    w.Drifts tick arrival (w.step (.pass nanos)) := by
  refine ⟨Nat.le_add_right _ _, ?_, h.quiet, fun time ha => ?_, rfl⟩
  · rcases h.ticks with rfl | ht
    · exact .inl rfl
    · exact .inr ht
  · rcases h.before time ha with rfl | hb
    · exact .inl rfl
    · exact .inr hb

theorem isQuiet_of_bare {time : Nat} (h : v.bare = { w.bare with now := u.now })
    (hq : ({ v with now := time } : World).IsQuiet) : ({ w with now := time } : World).IsQuiet := by
  rw [← isQuiet_bare] at hq ⊢
  have hb : ({ v with now := time } : World).bare = ({ w with now := time } : World).bare :=
    congrArg (fun x : World => { x with now := time }) h
  rwa [← hb]

theorem Drifts.trans (h : w.Drifts tick arrival v) (k : v.Drifts tick arrival u) :
    w.Drifts tick arrival u := by
  refine ⟨Nat.le_trans h.later k.later, ?_, fun time ht hl hg => ?_, fun time ha => ?_, ?_⟩
  · rcases k.ticks with hk | hk
    · rw [hk]
      exact h.ticks
    · exact .inr hk
  · by_cases hv : time < v.now
    · exact h.quiet time ht hl hv
    · rw [Nat.not_lt] at hv
      have hlater := h.later
      refine isQuiet_of_bare h.bare (k.quiet time (ht.imp_left fun hw => ?_) hv hg)
      omega
  · rcases k.before time ha with hk | hk
    · rw [hk]
      exact h.before time ha
    · exact .inr hk
  · rw [k.bare, h.bare]

end World

structure CallTask.Late (w : World) (t : CallTask) (due : Nat)
    (outcome : Except AdapterFault Response) : Prop where
  stage : ∃ time, t.stage = .answering due (some time) outcome ∧ time ≤ w.now
  waits : w.now < due

theorem Task.late_of_isReady {t : Task} (h : t.isReady w id = true)
    (hn : t.untimed.isReady w id = false) :
    ∃ s due outcome, t = .call s ∧ s.Late w due outcome := by
  cases t with
  | call t =>
    rcases t with ⟨crawler, results, adapter, request, stage⟩
    cases stage with
    | answering due warnAt outcome =>
      have hd : ¬ due ≤ w.now := by
        simpa [isReady, untimed, CallTask.untimed, CallStage.untimed, CallTask.isReady,
          CallTask.isLate] using hn
      cases warnAt with
      | none => simp [isReady, CallTask.isReady, CallTask.isLate, hd] at h
      | some time =>
        have hl : time ≤ w.now := by
          simpa [isReady, CallTask.isReady, CallTask.isLate, hd] using h
        exact ⟨_, due, outcome, rfl, ⟨time, rfl, hl⟩, Nat.not_le.1 hd⟩
    | _ => exact absurd (h.symm.trans hn) Bool.noConfusion
  | _ => exact absurd (h.symm.trans hn) Bool.noConfusion

namespace World

def warned (w : World) (id : TaskId) (t : CallTask) (due : Nat)
    (outcome : Except AdapterFault Response) : World :=
  (w.warn (t.slowMessage w)).keepInPlace id (.call { t with stage := .answering due none outcome })

theorem turn_of_late {t : CallTask} {due : Nat} {outcome : Except AdapterFault Response}
    (h : t.Late w due outcome) : t.turn w id = w.warned id t due outcome := by
  obtain ⟨⟨time, hs, hl⟩, hd⟩ := h
  simp [CallTask.turn, hs, Nat.not_le.2 hd, CallTask.isLate, hl, warned]

inductive Trifle (w : World) : Event → World → Prop
  | passes (nanos : Nat) : w.Trifle (.step (.pass nanos)) (w.step (.pass nanos))
  | idles (id : TaskId) (signalFirst : Bool) (ha : w.acting? id = none) :
    w.Trifle (.step (.turn id signalFirst)) w
  | warns (signalFirst : Bool) {id : TaskId} {t : CallTask} {due : Nat}
    {outcome : Except AdapterFault Response} (ha : w.acting? id = some ⟨id, .call t⟩)
    (hl : t.Late w due outcome) :
    w.Trifle (.step (.turn id signalFirst)) (w.warned id t due outcome)

theorem isPlain_turn (w : World) (id : TaskId) (signalFirst : Bool) :
    w.isPlain (.step (.turn id signalFirst)) =
      (w.job? id).any fun j => j.task.untimed.isReady w id := rfl

theorem trifle (hn : w.isPlain e = false) : w.Trifle e (w.react e) := by
  rcases e with ⟨⟨id, signalFirst⟩ | nanos⟩ | _
  · rw [react, step_turn_eq]
    cases ha : w.acting? id with
    | none => exact .idles id signalFirst ha
    | some j =>
      obtain ⟨hj, -, hi⟩ := mem_of_acting? ha
      have hr : j.task.isReady w j.id = true := (Option.filter_eq_some_iff.1 ha).2
      rw [isPlain_turn, hj, Option.any_some, ← hi] at hn
      obtain ⟨t, due, outcome, ht, hl⟩ := Task.late_of_isReady hr hn
      rcases j with ⟨i, task⟩
      cases ht
      cases hi
      show w.Trifle _ (t.turn w i)
      rw [turn_of_late hl]
      exact .warns signalFirst ha hl
  · exact .passes nanos
  all_goals cases hn

theorem bare_warned {served : Served} (h : w.Sound none 0 served) {t : CallTask} {due : Nat}
    {outcome : Except AdapterFault Response} (hm : ⟨id, .call t⟩ ∈ w.jobs)
    (hl : t.Late w due outcome) : (w.warned id t due outcome).bare = w.bare := by
  obtain ⟨⟨time, hs, -⟩, -⟩ := hl
  have hj : ((w.warned id t due outcome).jobs).map Job.untimed = w.jobs.map Job.untimed := by
    simp only [warned, keepInPlace, warn, List.map_map]
    refine List.map_congr_left fun j hj => ?_
    simp only [Function.comp_apply]
    split
    · rename_i hi
      rw [h.eq_of_mem hm hj (beq_iff_eq.1 hi)]
      simp [Job.untimed, Task.untimed, CallTask.untimed, CallStage.untimed, hs]
    · rfl
  show ({ w with jobs := _, manager := _, journal := _ } : World) = _
  rw [hj]
  rfl

theorem drifts_react {served : Served} (h : w.Sound none 0 served) (hn : w.isPlain e = false)
    (hp : ∀ nanos, e = .step (.pass nanos) → w.Elapses tick arrival nanos) :
    w.Drifts tick arrival (w.react e) := by
  have ht := trifle hn
  generalize w.react e = v at ht ⊢
  cases ht with
  | passes nanos => exact (hp nanos rfl).drifts
  | idles => exact .of_bare rfl
  | warns signalFirst ha hl => exact .of_bare (bare_warned h (mem_of_acting? ha).2.1 hl)

theorem le_now_react (w : World) (e : Event) : w.now ≤ (w.react e).now := by
  rw [(time_react w e).1]
  exact Nat.le_add_right _ _

theorem le_now_play (w : World) (events : List Event) : w.now ≤ (w.play events).now :=
  play_induction (I := fun v => w.now ≤ v.now)
    (fun v e _ h => Nat.le_trans h (v.le_now_react e)) (Nat.le_refl _)

section Twins

variable {w' : World} {events events' rest : List Event} {s : Script} {past : List Stroke}

structure Skims (s : Script) (past : List Stroke) (w : World) (events : List Event) (v : World)
    (e : Event) (rest : List Event) : Prop where
  drifts : w.Drifts s.tick (s.arrival past) v
  settled : v.Settled
  plain : v.isPlain e = true
  next : e = s.next past v.now
  arrival : e.isOutside = true → s.arrival past = some v.now
  follows : (v.react e).Follows s (past ++ [v.stroke e]) rest
  strokes : w.strokes events = v.stroke e :: (v.react e).strokes rest
  play : w.play events = (v.react e).play rest

structure Idles (s : Script) (past : List Stroke) (w : World) (events : List Event) : Prop where
  drifts : w.Drifts s.tick (s.arrival past) (w.play events)
  strokes : w.strokes events = []

theorem skim (h : w.Settled) (hf : w.Follows s past events) :
    w.Idles s past events ∨ ∃ v e rest, w.Skims s past events v e rest := by
  induction events generalizing w with
  | nil => exact .inl ⟨.of_bare rfl, rfl⟩
  | cons e rest ih =>
    rw [Follows] at hf
    cases hn : w.isPlain e with
    | true =>
      rw [if_pos hn] at hf
      refine .inr ⟨w, e, rest, .of_bare rfl, h, hn, hf.1.1, hf.1.2, hf.2, ?_, rfl⟩
      rw [strokes, if_pos hn]
    | false =>
      rw [hn] at hf
      obtain ⟨n, hs⟩ := h.sound
      have hd := drifts_react hs hn hf.1
      have hst : w.strokes (e :: rest) = (w.react e).strokes rest := by simp [strokes, hn]
      rcases ih (h.react e) hf.2 with hi | ⟨v, k, later, hk⟩
      · exact .inl ⟨hd.trans hi.drifts, hst.trans hi.strokes⟩
      · exact .inr ⟨v, k, later, hd.trans hk.drifts, hk.settled, hk.plain, hk.next, hk.arrival,
          hk.follows, hst.trans hk.strokes, hk.play⟩

theorem Drifts.bare_eq (h : w.Drifts tick arrival v) (h' : w'.Drifts tick arrival u)
    (hb : w.bare = w'.bare) (hn : v.now = u.now) : v.bare = u.bare := by
  rw [h.bare, h'.bare, hb, hn]

theorem now_eq_of_bare (hb : w.bare = w'.bare) : w.now = w'.now := by
  have hn : w.bare.now = w'.bare.now := by rw [hb]
  rwa [now_bare, now_bare] at hn

theorem Drifts.not_lt (h : w.Drifts tick arrival v) (h' : w'.Drifts tick arrival u)
    (hb : w.bare = w'.bare) {signalFirst : Bool}
    (hv : v.isPlain (.step (.turn id signalFirst)) = true) : ¬ v.now < u.now := by
  intro hlt
  have hn := now_eq_of_bare hb
  -- The other run would have passed over an instant at which the task had something to do.
  have hq := h'.quiet v.now (hn ▸ h.ticks) (hn ▸ h.later) hlt
  refine not_isQuiet hv (isQuiet_bare.1 ?_)
  rw [h.bare, hb]
  exact isQuiet_bare.2 hq

theorem Skims.le (h : w.Skims s past events v e rest) (h' : w'.Drifts s.tick (s.arrival past) u)
    (hb : w.bare = w'.bare) : u.now ≤ v.now := by
  cases ho : e.isOutside with
  | true =>
    have hn := now_eq_of_bare hb
    have hl := h.drifts.later
    rcases h'.before v.now (h.arrival ho) with he | he
    · omega
    · exact he
  | false =>
    rcases e with ⟨⟨id, signalFirst⟩ | nanos⟩ | _
    · exact Nat.not_lt.1 (h.drifts.not_lt h' hb h.plain)
    · cases h.plain
    all_goals cases ho

theorem Skims.meet {k : Event} {rest' : List Event} (h : w.Skims s past events v e rest)
    (h' : w'.Skims s past events' u k rest') (hb : w.bare = w'.bare) : v.now = u.now :=
  Nat.le_antisymm (h'.le h.drifts hb.symm) (h.le h'.drifts hb)

structure AtRest (s : Script) (past : List Stroke) (w : World) (events : List Event) : Prop where
  quiet : (w.play events).IsQuiet
  before : ∀ time, s.arrival (past ++ w.strokes events) = some time → (w.play events).now < time

/-- Two runs have come equally far: to the same instant, and either as much has happened in both or
nothing is left to happen at this instant in either. -/
structure Level (s : Script) (past : List Stroke) (w : World) (events : List Event) (w' : World)
    (events' : List Event) : Prop where
  now : (w.play events).now = (w'.play events').now
  far : (w.strokes events).length = (w'.strokes events').length ∨
    w.AtRest s past events ∧ w'.AtRest s past events'

theorem Level.symm (h : Level s past w events w' events') : Level s past w' events' w events :=
  ⟨h.now.symm, h.far.imp Eq.symm And.symm⟩

theorem Skims.lt_now (h : w.Skims s past events v e rest) (h' : w'.Idles s past events')
    (hb : w.bare = w'.bare) (hr : w'.AtRest s past events') : (w'.play events').now < v.now := by
  refine Nat.lt_of_le_of_ne (h.le h'.drifts hb) fun hn => ?_
  have hvu := h.drifts.bare_eq h'.drifts hb hn.symm
  cases ho : e.isOutside with
  | true =>
    have hlt := hr.before v.now (by rw [h'.strokes, List.append_nil]; exact h.arrival ho)
    omega
  | false =>
    rcases e with ⟨⟨id, signalFirst⟩ | nanos⟩ | _
    · refine not_isQuiet h.plain (isQuiet_bare.1 ?_)
      rw [hvu]
      exact isQuiet_bare.2 hr.quiet
    · cases h.plain
    all_goals cases ho

theorem Level.onward {rest' : List Event} (hl : Level s past w events w' events')
    (h : w.Skims s past events v e rest) (h' : w'.Skims s past events' u e rest')
    (hs : v.stroke e = u.stroke e) :
    Level s (past ++ [v.stroke e]) (v.react e) rest (u.react e) rest' := by
  have rests {w v : World} {events rest : List Event} (h : w.Skims s past events v e rest)
      (hr : w.AtRest s past events) : (v.react e).AtRest s (past ++ [v.stroke e]) rest := by
    obtain ⟨hq, hb⟩ := hr
    rw [h.play] at hq hb
    rw [h.strokes] at hb
    refine ⟨hq, fun time ha => hb time ?_⟩
    rwa [List.append_assoc] at ha
  obtain ⟨hn, hf⟩ := hl
  rw [h.play, h'.play] at hn
  rw [h.strokes, h'.strokes, List.length_cons, List.length_cons, Nat.add_right_cancel_iff] at hf
  exact ⟨hn, hf.imp_right fun hr => ⟨rests h hr.1, hs ▸ rests h' hr.2⟩⟩

theorem Level.not_skims (hl : Level s past w events w' events')
    (h : w.Skims s past events v e rest) (h' : w'.Idles s past events') (hb : w.bare = w'.bare) :
    False := by
  rcases hl.far with hf | ⟨-, hr⟩
  · rw [h.strokes, h'.strokes] at hf
    cases hf
  · have hlt := h.lt_now h' hb hr
    have hle : v.now ≤ (w.play events).now := by
      rw [h.play]
      exact Nat.le_trans (v.le_now_react e) (le_now_play _ rest)
    have hn := hl.now
    omega

theorem twins (h : w.Settled) (h' : w'.Settled) (hb : w.bare = w'.bare)
    (hf : w.Follows s past events) (hf' : w'.Follows s past events') :
    (w.strokes events <+: w'.strokes events' ∨ w'.strokes events' <+: w.strokes events) ∧
      (Level s past w events w' events' → w.strokes events = w'.strokes events' ∧
        (w.play events).bare = (w'.play events').bare) := by
  generalize hos : w.strokes events = list
  induction list generalizing w w' events events' past with
  | nil =>
    refine ⟨.inl List.nil_prefix, fun hl => ?_⟩
    rcases skim h hf with hi | ⟨v, e, rest, hk⟩
    · rcases skim h' hf' with hi' | ⟨v, e, rest, hk⟩
      · exact ⟨hi'.strokes.symm, hi.drifts.bare_eq hi'.drifts hb hl.now⟩
      · exact (hl.symm.not_skims hk hi hb.symm).elim
    · exact absurd (hos.symm.trans hk.strokes) (List.cons_ne_nil _ _).symm
  | cons o list ih =>
    rcases skim h hf with hi | ⟨v, e, rest, hk⟩
    · exact absurd (hos.symm.trans hi.strokes) (List.cons_ne_nil _ _)
    rcases skim h' hf' with hi' | ⟨u, k, rest', hk'⟩
    · rw [hi'.strokes]
      exact ⟨.inr List.nil_prefix, fun hl => (hl.not_skims hk hi' hb).elim⟩
    have hn := hk.meet hk' hb
    have hek : e = k := by rw [hk.next, hk'.next, hn]
    subst hek
    have hvu := hk.drifts.bare_eq hk'.drifts hb hn
    have hbr : (v.react e).bare = (u.react e).bare := by
      rw [(react_bare hk.plain).1, (react_bare hk'.plain).1, hvu]
    have hst : v.stroke e = u.stroke e := by
      rw [stroke_eq hk.plain, stroke_eq hk'.plain, hvu]
    obtain ⟨ho, hrest⟩ := List.cons.inj (hos.symm.trans hk.strokes)
    obtain ⟨hpre, hlevel⟩ := ih (hk.settled.react e) (hk'.settled.react e) hbr hk.follows
      (hst ▸ hk'.follows) hrest.symm
    rw [hk'.strokes, hk.play, hk'.play, ho, hst]
    refine ⟨hpre.imp (fun h => ?_) fun h => ?_, fun hl => ?_⟩
    · exact List.cons_prefix_cons.2 ⟨rfl, h⟩
    · exact List.cons_prefix_cons.2 ⟨rfl, h⟩
    · obtain ⟨hs, hbare⟩ := hlevel (hl.onward hk hk' hst)
      exact ⟨by rw [hs], hbare⟩

end Twins

end World

end CatalogCrawl

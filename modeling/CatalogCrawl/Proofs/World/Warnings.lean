import CatalogCrawl.Proofs.World.Jumps

namespace CatalogCrawl

open World

variable {w v : World} {id : TaskId} {e : Event} {served : Served}

def CallStage.warningsLeft : CallStage → Nat
  | .starting => 1
  | .answering _ (some _) _ => 1
  | _ => 0

def Task.warningsLeft : Task → Nat
  | .call t => t.stage.warningsLeft
  | _ => 0

theorem Task.warningsLeft_le (t : Task) : t.warningsLeft ≤ 1 := by
  unfold warningsLeft CallStage.warningsLeft
  split
  · split <;> simp
  · simp

namespace World

def LeavesAtMost (w : World) (id : TaskId) (n : Nat) : Prop :=
  ∀ j ∈ w.jobs, j.id = id → j.task.warningsLeft ≤ n

variable {n : Nat} {t : Task}

theorem LeavesAtMost.of_removeJob : (w.removeJob id).LeavesAtMost id n :=
  own_removeJob (P := (·.warningsLeft ≤ n))

theorem LeavesAtMost.of_keepFirst (h : t.warningsLeft ≤ n) :
    (w.keepFirst id t).LeavesAtMost id n :=
  own_keepFirst (P := (·.warningsLeft ≤ n)) h

theorem LeavesAtMost.of_keepLast (h : t.warningsLeft ≤ n) : (w.keepLast id t).LeavesAtMost id n :=
  own_keepLast (P := (·.warningsLeft ≤ n)) h

theorem LeavesAtMost.of_keepInPlace (h : t.warningsLeft ≤ n) :
    (w.keepInPlace id t).LeavesAtMost id n :=
  own_keepInPlace (P := (·.warningsLeft ≤ n)) h

end World

namespace CallTask

theorem leavesAtMost_deliver (w : World) (t : CallTask) (d : Delivery) :
    (t.deliver w id d).LeavesAtMost id 0 := by
  unfold deliver
  split
  · exact .of_removeJob
  · rename_i q _
    rcases d.attempt q with ⟨_ | fault | ⟨delay, rest⟩, q⟩
    · exact LeavesAtMost.of_removeJob (w := w)
    · exact LeavesAtMost.of_removeJob (w := w)
    · simp only
      split
      · exact .of_keepFirst (Nat.le_refl _)
      · exact .of_keepLast (Nat.le_refl _)

theorem leavesAtMost_answer (w : World) (t : CallTask) (outcome : Except AdapterFault Response) :
    (t.answer w id outcome).LeavesAtMost id 0 := by
  cases outcome with
  | error fault => exact LeavesAtMost.of_removeJob (w := w)
  | ok r => exact leavesAtMost_deliver _ t _

theorem leavesAtMost_ask (w : World) (t : CallTask) : (t.ask w id).LeavesAtMost id 1 := by
  unfold ask
  split
  · exact .of_removeJob
  · simp only
    split
    · exact .of_keepFirst (Nat.le_refl _)
    · exact .of_keepLast (Nat.le_refl _)

theorem leavesAtMost_turn {t : CallTask} (h : t.untimed.isReady w = true) :
    (t.turn w id).LeavesAtMost id t.stage.warningsLeft := by
  rcases t with ⟨crawler, results, adapter, request, stage⟩
  cases stage with
  | starting => exact leavesAtMost_ask w _
  | answering due warnAt outcome =>
    have hd : due ≤ w.now := by
      simpa [untimed, CallStage.untimed, isReady, isLate] using h
    simp only [turn, hd, if_true]
    exact fun j hj hi => Nat.le_trans (leavesAtMost_answer w _ outcome j hj hi) (Nat.zero_le _)
  | delivering d due =>
    have hd : due ≤ w.now := by
      simpa [untimed, CallStage.untimed, isReady] using h
    simp only [turn, hd, if_true]
    exact leavesAtMost_deliver w _ d

end CallTask

namespace World

def warning? (w : World) : Event → Option (TaskId × Notice)
  | .step (.turn id _) =>
    match w.acting? id with
    | some ⟨_, .call t⟩ =>
      if t.untimed.isReady w then none else some (id, .warn (t.slowMessage w))
    | _ => none
  | _ => none

def warnings (w : World) : List Event → List (TaskId × Notice)
  | [] => []
  | e :: rest => (w.warning? e).toList ++ (w.react e).warnings rest

theorem warning?_of_isPlain (h : w.isPlain e = true) : w.warning? e = none := by
  unfold warning?
  split
  · rename_i id signalFirst
    split
    · rename_i ha
      rw [isPlain_turn, (mem_of_acting? ha).1, Option.any_some] at h
      exact if_pos h
    · rfl
  · rfl

theorem warning?_of_late {signalFirst : Bool} {t : CallTask} {due : Nat}
    {outcome : Except AdapterFault Response} (ha : w.acting? id = some ⟨id, .call t⟩)
    (hl : t.Late w due outcome) : w.warning? (.step (.turn id signalFirst)) =
      some (id, .warn (t.slowMessage w)) := by
  obtain ⟨⟨time, hs, -⟩, hd⟩ := hl
  have hr : t.untimed.isReady w = false := by
    simp [CallTask.untimed, CallStage.untimed, hs, CallTask.isReady, CallTask.isLate, hd]
  simp [warning?, ha, hr]

theorem leavesAtMost_of_not_call (h : w.Sound none 0 served) (signalFirst : Bool) {t : Task}
    (ha : w.acting? id = some ⟨id, t⟩) (ht : ∀ s, t ≠ .call s) :
    (w.react (.step (.turn id signalFirst))).LeavesAtMost id 0 := by
  obtain ⟨-, hm, -⟩ := mem_of_acting? ha
  have left_own : t.warningsLeft = 0 := by
    cases t with
    | call s => exact absurd rfl (ht s)
    | _ => rfl
  intro j hj hi
  refine Nat.le_of_eq ?_
  rcases (tends_react w _).jobs j hj with hk | ⟨k, hk, -, hg⟩ | ⟨s, -, hs⟩ | ⟨hn, -⟩
  · have he : (⟨id, j.task⟩ : Job) ∈ w.jobs := hi ▸ hk
    rw [← ofTask_of_mem h he Task.warningsLeft, ofTask_of_mem h hm, left_own]
  · obtain ⟨i, first, he, hk⟩ := of_actor_eq_job hk
    cases he
    cases Option.some.inj (ha.symm.trans hk)
    unfold Task.warningsLeft
    split
    · rename_i u hu
      rw [hu] at hg
      cases t with
      | call s => exact absurd rfl (ht s)
      | _ => exact hg.elim
    · rfl
  · rw [hs]
    rfl
  · rw [hi] at hn
    exact absurd (h.lt_nextId hm) (Nat.not_lt.2 hn)

theorem leavesAtMost_react (h : w.Sound none 0 served) {signalFirst : Bool} {t : Task}
    (ha : w.acting? id = some ⟨id, t⟩) (hp : w.isPlain (.step (.turn id signalFirst)) = true) :
    (w.react (.step (.turn id signalFirst))).LeavesAtMost id t.warningsLeft := by
  by_cases hc : ∃ s, t = .call s
  · obtain ⟨s, rfl⟩ := hc
    rw [isPlain_turn, (mem_of_acting? ha).1, Option.any_some] at hp
    rw [react_of_acts ha]
    exact CallTask.leavesAtMost_turn hp
  · have hl := leavesAtMost_of_not_call h signalFirst ha fun s hs => hc ⟨s, hs⟩
    exact fun j hj hi => Nat.le_trans (hl j hj hi) (Nat.zero_le _)

theorem acts_of_warning? {x : TaskId × Notice} (h : w.warning? e = some x) :
    w.acts x.1 e = true := by
  unfold warning? at h
  split at h
  · split at h
    · rename_i id signalFirst _ _ ha
      split at h
      · cases h
      · cases h
        simp [acts, ha]
    · cases h
  · cases h

theorem warnings_left (h : w.Sound none 0 served) (hi : id < w.nextId) (e : Event) :
    ((w.warning? e).any (·.1 == id)).toNat + (w.react e).ofTask id Task.warningsLeft ≤
      w.ofTask id Task.warningsLeft := by
  refine ofTask_react h hi (fun _ => rfl) (fun hq => ?_) fun signalFirst t he ha => ?_
  · rw [← Bool.not_eq_true] at hq ⊢
    intro hx
    obtain ⟨x, hw, hxi⟩ := (Option.any_eq_true _ _).1 hx
    rw [beq_iff_eq] at hxi
    exact hq (hxi ▸ acts_of_warning? hw)
  · subst he
    cases hp : w.isPlain (.step (.turn id signalFirst)) with
    | true =>
      rw [warning?_of_isPlain hp]
      refine ⟨Nat.zero_le _, fun j hj hid => ?_⟩
      rw [Option.any_none, Bool.toNat_false, Nat.zero_add]
      exact leavesAtMost_react h ha hp j hj hid
    | false =>
      have ht := trifle hp
      generalize w.react (.step (.turn id signalFirst)) = v at ht ⊢
      have hb := Bool.toNat_le ((w.warning? (.step (.turn id signalFirst))).any (·.1 == id))
      cases ht with
      | idles _ _ hn => cases ha.symm.trans hn
      | warns _ hk hl =>
        cases Option.some.inj (ha.symm.trans hk)
        obtain ⟨⟨time, hs, -⟩, -⟩ := hl
        have hone : (Task.call _).warningsLeft = 1 := congrArg CallStage.warningsLeft hs
        rw [hone]
        refine ⟨hb, fun j hj hid => ?_⟩
        have hz := LeavesAtMost.of_keepInPlace (Nat.le_refl 0) j hj hid
        omega

theorem issued_of_warning? (h : w.Sound none 0 served) {x : TaskId × Notice}
    (hw : w.warning? e = some x) : x.1 < w.nextId := by
  obtain ⟨signalFirst, j, -, ha⟩ := acts_iff.1 (acts_of_warning? hw)
  obtain ⟨-, hm, hi⟩ := mem_of_acting? ha
  exact hi ▸ h.lt_nextId hm

theorem not_mem_warnings (h : w.Settled) (hi : id < w.nextId)
    (hl : w.ofTask id Task.warningsLeft = 0) (events : List Event) :
    id ∉ (w.warnings events).map Prod.fst := by
  induction events generalizing w with
  | nil => exact List.not_mem_nil
  | cons e rest ih =>
    obtain ⟨n, hs⟩ := h.sound
    have hb := warnings_left hs hi e
    rw [hl, Nat.le_zero, Nat.add_eq_zero_iff, Bool.toNat_eq_zero] at hb
    rw [warnings, List.map_append, List.mem_append, not_or]
    refine ⟨fun hm => ?_, ih (h.react e) (Nat.lt_of_lt_of_le hi (w.nextId_react e)) hb.2⟩
    obtain ⟨x, hx, rfl⟩ := List.mem_map.1 hm
    rw [Option.mem_toList] at hx
    simp [hx] at hb

theorem nodup_warnings (h : w.Settled) (events : List Event) :
    ((w.warnings events).map Prod.fst).Nodup := by
  induction events generalizing w with
  | nil => exact List.nodup_nil
  | cons e rest ih =>
    obtain ⟨n, hs⟩ := h.sound
    have hr := ih (h.react e)
    rw [warnings]
    cases hw : w.warning? e with
    | none => exact hr
    | some x =>
      have hi := issued_of_warning? hs hw
      have hb := warnings_left hs hi e
      have hle : w.ofTask x.1 Task.warningsLeft ≤ 1 := ofTask_le fun j _ _ => j.task.warningsLeft_le
      rw [hw, Option.any_some, beq_self_eq_true, Bool.toNat_true] at hb
      refine List.nodup_cons.2 ⟨?_, hr⟩
      exact not_mem_warnings (h.react e) (Nat.lt_of_lt_of_le hi (w.nextId_react e)) (by omega) rest

theorem notices_react (w : World) (e : Event) : (w.react e).journal.notices =
    ((w.warning? e).map Prod.snd).toList ++ (if w.isPlain e then w.said e else []) ++
      w.journal.notices := by
  cases hp : w.isPlain e with
  | true =>
    rw [warning?_of_isPlain hp, said_eq hp, (react_bare hp).2]
    rfl
  | false =>
    have ht := trifle hp
    generalize w.react e = v at ht ⊢
    cases ht with
    | passes nanos => rfl
    | idles id signalFirst ha => simp [warning?, ha]
    | warns signalFirst ha hl =>
      rw [warning?_of_late ha hl]
      rfl

theorem notices_play (w : World) (events : List Event) :
    (w.play events).journal.notices.Perm ((w.warnings events).map Prod.snd ++
      (w.strokes events).flatMap Stroke.said ++ w.journal.notices) := by
  induction events generalizing w with
  | nil => exact .refl _
  | cons e rest ih =>
    refine (ih (w.react e)).trans ?_
    have hs : (w.strokes (e :: rest)).flatMap Stroke.said =
        (if w.isPlain e then w.said e else []) ++
          ((w.react e).strokes rest).flatMap Stroke.said := by
      rw [strokes]
      split <;> rfl
    rw [notices_react, hs, warnings, List.map_append, ← Option.toList_map, List.perm_iff_count]
    intro n
    simp only [List.count_append]
    omega

theorem eq_of_bare (h : w.bare = v.bare) : w.stats = v.stats ∧
    w.journal.entries = v.journal.entries ∧ w.queue = v.queue ∧ w.results = v.results := by
  have hs : w.bare.stats = v.bare.stats := by rw [h]
  have hj : w.bare.journal.entries = v.bare.journal.entries := by rw [h]
  have hq : w.bare.queue = v.bare.queue := by rw [h]
  have hr : w.bare.results = v.bare.results := by rw [h]
  exact ⟨hs, hj, hq, hr⟩

structure OnlyWarns (w : World) (events : List Event) : Prop where
  notices : (w.play events).journal.notices.Perm ((w.warnings events).map Prod.snd ++
    (w.strokes events).flatMap Stroke.said ++ w.journal.notices)
  once : ((w.warnings events).map Prod.fst).Nodup
  waits : ∀ before e after x, events = before ++ e :: after →
    (w.play before).warning? e = some x →
      ∃ t due outcome, ⟨x.1, .call t⟩ ∈ (w.play before).jobs ∧
        t.Late (w.play before) due outcome ∧
        (w.play before).react e = (w.play before).warned x.1 t due outcome
  ends : (w.play events).stats.dispatched = (w.play events).stats.delivered +
    (w.play events).stats.adapterFailures + (w.play events).stats.undelivered +
      (w.play events).inFlight

theorem react_of_warning? {x : TaskId × Notice} (h : w.warning? e = some x) :
    ∃ t due outcome, ⟨x.1, .call t⟩ ∈ w.jobs ∧ t.Late w due outcome ∧
      w.react e = w.warned x.1 t due outcome := by
  cases hp : w.isPlain e with
  | true =>
    rw [warning?_of_isPlain hp] at h
    cases h
  | false =>
    have ht := trifle hp
    generalize w.react e = v at ht ⊢
    cases ht with
    | passes => cases h
    | idles _ _ ha => simp [warning?, ha] at h
    | warns _ ha hl =>
      rw [warning?_of_late ha hl] at h
      cases h
      exact ⟨_, _, _, (mem_of_acting? ha).2.1, hl, rfl⟩

theorem onlyWarns (h : w.Settled) (events : List Event) : w.OnlyWarns events := by
  obtain ⟨n, hs⟩ := (h.play events).sound
  exact ⟨notices_play w events, nodup_warnings h events,
    fun _ _ _ _ _ hw => react_of_warning? hw, hs.dispatched⟩

end World

namespace Setup

def withTimeout (s : Setup) (timeout : Span) : Setup :=
  { s with crawler := { s.crawler with requestTimeout := timeout } }

theorem bare_withTimeout (s : Setup) (timeout : Span) :
    s.world.bare = (s.withTimeout timeout).world.bare := by
  simp only [world, withManager, withTimeout]
  split <;> rfl

/-- The limit that is set for requests is for observation only. If two runs differ in it and follow
the same script, then the same happens in both at the same instants, as far as both have come: the
same adapters are asked for the same, the same responses are offered to the same result queues, and
all that is left behind is the same but for warnings in the log; of each call at most one is given,
and the call goes on as if there had been none. -/
theorem timeout_observes (s : Setup) (timeout : Span) (script : Script)
    (events events' : List Event)
    (hf : s.world.Follows script [] events)
    (hf' : (s.withTimeout timeout).world.Follows script [] events') :
    let w := s.world
    let w' := (s.withTimeout timeout).world
    (w.strokes events <+: w'.strokes events' ∨ w'.strokes events' <+: w.strokes events) ∧
    (Level script [] w events w' events' →
      w.strokes events = w'.strokes events' ∧
      (w.play events).bare = (w'.play events').bare ∧
      (w.play events).stats = (w'.play events').stats ∧
      (w.play events).journal.entries = (w'.play events').journal.entries ∧
      (w.play events).queue = (w'.play events').queue ∧
      (w.play events).results = (w'.play events').results) ∧
    w.OnlyWarns events ∧ w'.OnlyWarns events' := by
  intro w w'
  have hs := setup_settled s
  have hs' := setup_settled (s.withTimeout timeout)
  obtain ⟨hpre, hlevel⟩ := twins hs hs' (s.bare_withTimeout timeout) hf hf'
  refine ⟨hpre, fun hl => ?_, onlyWarns hs events, onlyWarns hs' events'⟩
  obtain ⟨hst, hb⟩ := hlevel hl
  exact ⟨hst, hb, eq_of_bare hb⟩

def sluggish : Setup :=
  { Account.lone with
    adapters :=
      [⟨"sluggish", fun _ => true, fun _ _ r => ⟨.ofMillis 5, .ok ⟨r.url, ⟨"", []⟩⟩⟩, false⟩] }

def asking : List Event :=
  [.launch (.manage ⟨.start, .entering⟩), .step (.turn 0 true), .offer Account.unserved,
    .step (.turn 1 true), .step (.turn 2 true), .step (.turn 1 true)]

def answered : List Event := [.step (.pass 5000000), .step (.turn 2 true)]

def warnedAndAnswered : List Event :=
  [.step (.pass 2000000), .step (.turn 2 true), .step (.pass 3000000), .step (.turn 2 true)]

def untilAnswered : Script where
  tick time := Span.nanosInMilli ∣ time
  next past _ := ((asking ++ [.step (.turn 2 true)])[past.length]?).getD .close
  arrival past := if past.length ≤ 2 then some 0 else none

theorem follows_asking {timeout : Span} (ht : timeout = .ofSecs 30 ∨ timeout = .ofMillis 2)
    {rest : List Event} (hr : ∀ past : List Stroke, past.length = asking.length →
      ((sluggish.withTimeout timeout).world.play asking).Follows untilAnswered past rest) :
    (sluggish.withTimeout timeout).world.Follows untilAnswered [] (asking ++ rest) := by
  rcases ht with rfl | rfl <;>
    exact .plain (by decide) rfl (fun _ => rfl) <| .plain (by decide) rfl nofun <|
      .plain (by decide) rfl (fun _ => rfl) <| .plain (by decide) rfl nofun <|
      .plain (by decide) rfl nofun <| .plain (by decide) rfl nofun <| hr _ rfl

theorem follows_jump {w : World} {d nanos : Nat} {past : List Stroke} {rest : List Event}
    (hp : past.length = asking.length) (hr : w.nextReady? = none) (hd : w.nextDeadline? = some d)
    (hn : nanos = roundUp d - w.now)
    (hf : (w.step (.pass nanos)).Follows untilAnswered past rest) :
    w.Follows untilAnswered past (.step (.pass nanos) :: rest) := by
  refine .trifle rfl (fun n he => ?_) hf
  have ha : untilAnswered.arrival past = none := if_neg (by rw [hp]; decide)
  cases he
  rw [ha, hn]
  exact elapses_jump hr hd

theorem follows_answer {w : World} {past : List Stroke} (hp : past.length = asking.length)
    (hw : w.isPlain (.step (.turn 2 true)) = true) :
    w.Follows untilAnswered past [.step (.turn 2 true)] := by
  refine .plain hw ?_ nofun trivial
  simp only [untilAnswered, hp]
  rfl

theorem follows_answered : sluggish.world.Follows untilAnswered [] (asking ++ answered) := by
  refine follows_asking (.inl rfl) fun past hp => ?_
  refine follows_jump (d := 5000000) hp (by decide) (by decide) (by decide) ?_
  exact follows_answer hp (by decide)

theorem follows_warned : (sluggish.withTimeout (.ofMillis 2)).world.Follows untilAnswered []
    (asking ++ warnedAndAnswered) := by
  refine follows_asking (.inr rfl) fun past hp => ?_
  refine follows_jump (d := 2000000) hp (by decide) (by decide) (by decide) ?_
  refine .trifle (by decide) nofun ?_
  refine follows_jump (d := 5000000) hp (by decide) (by decide) (by decide) ?_
  exact follows_answer hp (by decide)

theorem timeout_observes_sluggish :
    let w := sluggish.world
    let w' := (sluggish.withTimeout (.ofMillis 2)).world
    w.Follows untilAnswered [] (asking ++ answered) ∧
    w'.Follows untilAnswered [] (asking ++ warnedAndAnswered) ∧
    Level untilAnswered [] w (asking ++ answered) w' (asking ++ warnedAndAnswered) ∧
    (w.warnings (asking ++ answered)).map Prod.fst = [] ∧
    (w'.warnings (asking ++ warnedAndAnswered)).map Prod.fst = [2] ∧
    (w.play (asking ++ answered)).stats = ⟨1, 1, 1, 0, 0, 0, 0⟩ ∧
    w.strokes (asking ++ answered) = w'.strokes (asking ++ warnedAndAnswered) := by
  have hl : Level untilAnswered [] sluggish.world (asking ++ answered)
      (sluggish.withTimeout (.ofMillis 2)).world (asking ++ warnedAndAnswered) :=
    ⟨by decide, .inl (by decide)⟩
  refine ⟨follows_answered, follows_warned, hl, by decide, by decide, by decide, ?_⟩
  exact ((timeout_observes sluggish _ untilAnswered _ _ follows_answered follows_warned).2.1 hl).1

end Setup

end CatalogCrawl

import CatalogCrawl.Proofs.World.Jumps

namespace CatalogCrawl

open World

variable {w v : World} {id : TaskId} {e : Event} {signalFirst : Bool}

structure Bout where
  start : Nat
  stop : Option Nat
  deriving DecidableEq, Repr

theorem Ticker.le_due_tick (t : Ticker) (now : Nat) :
    now + t.period ≤ (t.tick now).due + tolerance := by
  simp only [tick]
  split <;> omega

namespace Ticker

variable {t : Ticker} {time k : Nat}

def nth (t : Ticker) (k : Nat) : Nat := t.due + k * t.period

def ticksBy (t : Ticker) (time : Nat) : Nat :=
  if time < t.due then 0 else (time - t.due) / t.period + 1

@[simp] theorem period_tick (t : Ticker) (now : Nat) : (t.tick now).period = t.period := rfl

theorem due_tick (t : Ticker) : (t.tick t.due).due = t.due + t.period :=
  due_tick_of_on_time (Nat.le_add_right _ _)

theorem nth_tick : (t.tick t.due).nth k = t.nth (k + 1) := by
  rw [nth, due_tick, nth, Nat.succ_mul, Nat.add_assoc, Nat.add_comm t.period]
  rfl

theorem ticksBy_tick (h : t.due ≤ time) (hp : 0 < t.period) :
    (t.tick t.due).ticksBy time + 1 = t.ticksBy time := by
  rw [ticksBy, due_tick, ticksBy, if_neg (Nat.not_lt.2 h)]
  change (if time < t.due + t.period then 0 else (time - (t.due + t.period)) / t.period + 1) + 1 = _
  split
  · rename_i hlt
    rw [Nat.div_eq_of_lt (by omega)]
  · rename_i hle
    have hsub : time - t.due = time - (t.due + t.period) + t.period := by omega
    rw [hsub, Nat.add_div_right _ hp]

end Ticker

namespace Bout

def IsOver (b : Bout) (time : Nat) : Prop := ∃ stop, b.stop = some stop ∧ stop ≤ time

theorem stop_le_of_isOver {b : Bout} {time now : Nat} (h : time ≤ now → b.IsOver time)
    (hnow : ∀ stop, b.stop = some stop → stop ≤ now) :
    ∀ stop, b.stop = some stop → stop ≤ time := by
  intro stop hstop
  by_cases hlt : now < time
  · exact Nat.le_trans (hnow stop hstop) (Nat.le_of_lt hlt)
  · obtain ⟨other, hother, hle⟩ := h (Nat.not_lt.1 hlt)
    cases hstop.symm.trans hother
    exact hle

theorem lt_of_not_stop {b : Bout} {time now : Nat} (h : time ≤ now → b.IsOver time)
    (hstop : b.stop = none) : now < time := by
  refine Nat.not_le.1 fun hle => ?_
  obtain ⟨stop, hsome, -⟩ := h hle
  cases hstop.symm.trans hsome

/-- One after the other, and not much less than a period after it. -/
structure Precedes (period : Nat) (a b : Bout) : Prop where
  apart : ∃ stop, a.stop = some stop ∧ a.start ≤ stop ∧ stop ≤ b.start
  spaced : a.start + period ≤ b.start + Ticker.tolerance

end Bout

namespace PlanTask

variable {t : PlanTask}

def isActing (t : PlanTask) : Bool :=
  match t.stage with
  | .looking | .ticking _ => false
  | .locking | .pausing _ => true

def fires (w : World) (t : PlanTask) (signalFirst : Bool) : Bool :=
  let s := w.signal t.signal
  decide (t.ticker.due ≤ w.now) &&
    match t.stage with
    | .looking => !s.raised && (s.isAlive || !signalFirst)
    | .ticking seen => !(s.hasNews seen && signalFirst)
    | .locking | .pausing _ => false

theorem isActing_of_fires (h : t.fires w signalFirst = true) :
    t.isActing = false ∧ t.ticker.due ≤ w.now := by
  unfold fires at h
  unfold isActing
  cases hs : t.stage <;> simp_all

theorem isReady_of_due (h : t.isActing = false) (hd : t.ticker.due ≤ w.now) :
    t.isReady w id = true := by
  unfold isActing at h
  unfold isReady
  cases hs : t.stage <;> simp_all

theorem turn_of_fires (h : t.fires w signalFirst = true) :
    t.turn w id signalFirst = t.act w id := by
  unfold fires at h
  unfold turn look
  cases hs : t.stage with
  | looking => grind
  | ticking seen => grind
  | locking => simp [hs] at h
  | pausing due => simp [hs] at h

end PlanTask

def World.Bears (w : World) (id : TaskId) (t : PlanTask) : Prop :=
  ∀ j ∈ w.jobs, j.id = id → j.task = .plan t

namespace PlanTask

variable {t u : PlanTask}

theorem bears_finish (r : TaskResult) : (w.finish id r).Bears id t :=
  own_removeJob (P := (· = .plan t))

theorem bears_keepFirst : (w.keepFirst id (.plan t)).Bears id t :=
  own_keepFirst (P := (· = .plan t)) rfl

theorem bears_keepLast : (w.keepLast id (.plan t)).Bears id t :=
  own_keepLast (P := (· = .plan t)) rfl

theorem act_bears (w : World) (id : TaskId) (t : PlanTask) :
    ∃ u : PlanTask, u.ticker = t.ticker.tick w.now ∧ (t.act w id).Bears id u := by
  unfold act
  simp only
  split
  · split
    · exact ⟨_, rfl, bears_keepFirst (w := World.leaveLock (World.addWorkload _) id)⟩
    · exact ⟨_, rfl, bears_keepLast⟩
  · split
    · exact ⟨_, rfl, bears_keepFirst⟩
    · exact ⟨_, rfl, bears_keepLast⟩

theorem turn_of_not_fires (h : t.fires w signalFirst = false) :
    t.turn w id signalFirst = w ∨ t.turn w id signalFirst = w.finish id .nothing ∨
    t.turn w id signalFirst = t.proceed w id ∨
    (∃ seen, t.turn w id signalFirst = w.keepLast id (.plan { t with stage := .ticking seen })) ∨
    t.isActing = true ∧ t.turn w id signalFirst = t.refillNow w id := by
  unfold fires at h
  unfold turn
  split
  · rename_i hs
    unfold look
    simp only
    split
    · exact .inr (.inl rfl)
    split
    · rename_i hn hd
      grind
    · exact .inr (.inr (.inr (.inl ⟨_, rfl⟩)))
  · rename_i seen hs
    simp only
    split
    · split
      · exact .inr (.inr (.inl rfl))
      · exact .inr (.inl rfl)
    split
    · rename_i hn hd
      grind
    · exact .inl rfl
  · rename_i hs
    split
    · exact .inr (.inr (.inr (.inr ⟨by rw [isActing, hs], rfl⟩)))
    · exact .inl rfl
  · split
    · exact .inr (.inr (.inl rfl))
    · exact .inl rfl

theorem turn_bears (h : t.fires w signalFirst = false) (hw : w.Bears id t) :
    ∃ u : PlanTask, u.ticker = t.ticker ∧ (u.isActing = true → t.isActing = true) ∧
      (t.turn w id signalFirst).Bears id u := by
  have goes (v : World) : ∃ u : PlanTask, u.ticker = t.ticker ∧
      (u.isActing = true → t.isActing = true) ∧ (t.proceed v id).Bears id u :=
    ⟨{ t with stage := .looking }, rfl, fun ha => absurd ha Bool.false_ne_true, bears_keepFirst⟩
  rcases turn_of_not_fires h with he | he | he | ⟨seen, he⟩ | ⟨-, he⟩ <;> rw [he]
  · exact ⟨t, rfl, fun ha => ha, hw⟩
  · exact ⟨t, rfl, fun ha => ha, bears_finish _⟩
  · exact goes w
  · exact ⟨{ t with stage := .ticking seen }, rfl, fun ha => absurd ha Bool.false_ne_true,
      bears_keepLast⟩
  · exact goes _

theorem turn_starts_nothing (h : t.fires w signalFirst = false) :
    (t.turn w id signalFirst).pauses = w.pauses ∧
      (w.queue.refills < (t.turn w id signalFirst).queue.refills → t.isActing = true) := by
  have idle {v : World} (hp : v.pauses = w.pauses) (hq : v.queue = w.queue) : v.pauses = w.pauses ∧
      (w.queue.refills < v.queue.refills → t.isActing = true) :=
    ⟨hp, fun hlt => absurd (hq ▸ hlt) (Nat.lt_irrefl _)⟩
  rcases turn_of_not_fires h with he | he | he | ⟨seen, he⟩ | ⟨ha, he⟩ <;> rw [he]
  · exact idle rfl rfl
  · exact idle rfl rfl
  · exact idle rfl rfl
  · exact idle rfl rfl
  · exact ⟨rfl, fun _ => ha⟩

end PlanTask

namespace World

def isActing (w : World) (id : TaskId) : Bool :=
  w.jobs.any fun j => j.id == id &&
    match j.task with
    | .plan t => t.isActing
    | _ => false

def fires (id : TaskId) (w : World) : Event → Bool
  | .step (.turn i signalFirst) => i == id &&
    match w.acting? i with
    | some ⟨_, .plan t⟩ => t.fires w signalFirst
    | _ => false
  | _ => false

/-- When a plan that may be acting is not acting any more. -/
def restsAt (id : TaskId) (w : World) : List Event → Option Nat
  | [] => if w.isActing id then none else some w.now
  | e :: rest => if w.isActing id then (w.react e).restsAt id rest else some w.now

def bouts (id : TaskId) (w : World) : List Event → List Bout
  | [] => []
  | e :: rest =>
    if w.fires id e then ⟨w.now, (w.react e).restsAt id rest⟩ :: (w.react e).bouts id rest
    else (w.react e).bouts id rest

variable {t u : PlanTask}

theorem isActing_iff : w.isActing id = true ↔
    ∃ t : PlanTask, ⟨id, .plan t⟩ ∈ w.jobs ∧ t.isActing = true := by
  rw [isActing, List.any_eq_true]
  constructor
  · rintro ⟨⟨i, task⟩, hj, h⟩
    rw [Bool.and_eq_true, beq_iff_eq] at h
    obtain ⟨rfl, h⟩ := h
    cases task with
    | plan t => exact ⟨t, hj, h⟩
    | _ => cases h
  · rintro ⟨t, hj, h⟩
    exact ⟨_, hj, by simpa using h⟩

theorem fires_iff : w.fires id e = true ↔ ∃ signalFirst t, e = .step (.turn id signalFirst) ∧
    w.acting? id = some ⟨id, .plan t⟩ ∧ t.fires w signalFirst = true := by
  constructor
  · intro h
    unfold fires at h
    split at h
    · rename_i i signalFirst
      rw [Bool.and_eq_true, beq_iff_eq] at h
      obtain ⟨rfl, h⟩ := h
      split at h
      · rename_i k t hk
        obtain ⟨-, -, rfl⟩ := mem_of_acting? hk
        exact ⟨signalFirst, t, rfl, hk, h⟩
      · cases h
    · cases h
  · rintro ⟨signalFirst, t, rfl, hk, h⟩
    simp [fires, hk, h]

structure Carries (w : World) (id : TaskId) (t : PlanTask) : Prop where
  issued : id < w.nextId
  bears : w.Bears id t

theorem Carries.of_fires (h : w.Carries id t) (hf : w.fires id e = true) : t.isActing = false ∧
    t.ticker.due ≤ w.now ∧ (w.react e).now = w.now ∧
      ∃ u : PlanTask, u.ticker = t.ticker.tick w.now ∧ (w.react e).Carries id u := by
  obtain ⟨signalFirst, k, rfl, hk, hf⟩ := fires_iff.1 hf
  have hm : ⟨id, .plan k⟩ ∈ w.jobs := (mem_of_acting? hk).2.1
  cases h.bears _ hm rfl
  obtain ⟨ha, hd⟩ := PlanTask.isActing_of_fires hf
  obtain ⟨u, hu, hb⟩ := t.act_bears w id
  refine ⟨ha, hd, (time_react w _).1, u, hu, Nat.lt_of_lt_of_le h.issued (w.nextId_react _), ?_⟩
  rw [react_of_acts hk]
  rw [← PlanTask.turn_of_fires hf] at hb
  exact hb

theorem Carries.turn (h : w.Carries id t) (hf : w.fires id e = false) (ha : w.acts id e = true) :
    ∃ signalFirst : Bool, ⟨id, .plan t⟩ ∈ w.jobs ∧ t.fires w signalFirst = false ∧
      w.react e = t.turn w id signalFirst := by
  obtain ⟨signalFirst, j, rfl, hj⟩ := acts_iff.1 ha
  obtain ⟨-, hm, hid⟩ := mem_of_acting? hj
  obtain ⟨i, task⟩ := j
  cases hid
  cases h.bears _ hm rfl
  refine ⟨signalFirst, hm, ?_, react_of_acts hj⟩
  rw [← Bool.not_eq_true] at hf ⊢
  exact fun ht => hf (fires_iff.2 ⟨signalFirst, t, rfl, hj, ht⟩)

theorem Carries.of_not_fires (h : w.Carries id t) (hf : w.fires id e = false) :
    ((w.react e).isActing id = true → w.isActing id = true) ∧
      ∃ u : PlanTask, u.ticker = t.ticker ∧ (w.react e).Carries id u := by
  have hissued : id < (w.react e).nextId := Nat.lt_of_lt_of_le h.issued (w.nextId_react e)
  cases ha : w.acts id e with
  | true =>
    obtain ⟨signalFirst, hm, hturn, he⟩ := h.turn hf ha
    obtain ⟨u, hu, hacting, hb⟩ := PlanTask.turn_bears hturn h.bears
    rw [he] at hissued ⊢
    refine ⟨fun hv => ?_, u, hu, hissued, hb⟩
    obtain ⟨k, hk, hkacting⟩ := isActing_iff.1 hv
    cases hb _ hk rfl
    exact isActing_iff.2 ⟨t, hm, hacting hkacting⟩
  | false =>
    have stays : ∀ j ∈ (w.react e).jobs, j.id = id → j ∈ w.jobs := by
      intro j hj hid
      rcases bystander ha h.issued j hj hid with hm | ⟨s, hm, -⟩
      · exact hm
      · cases h.bears _ hm rfl
    refine ⟨fun hv => ?_, t, rfl, hissued, fun j hj hid => h.bears j (stays j hj hid) hid⟩
    obtain ⟨k, hk, hkacting⟩ := isActing_iff.1 hv
    exact isActing_iff.2 ⟨k, stays _ hk rfl, hkacting⟩

theorem Carries.isActing (h : w.Carries id t) (ht : t.isActing = false) : w.isActing id = false := by
  rw [← Bool.not_eq_true, isActing_iff]
  rintro ⟨k, hk, hacting⟩
  cases h.bears _ hk rfl
  rw [ht] at hacting
  cases hacting

theorem Carries.not_acting (h : w.Carries id t) {j : Job} (hj : j ∈ w.jobs) (hid : j.id = id)
    (ha : w.isActing id = false) : t.isActing = false := by
  rw [← Bool.not_eq_true] at ha ⊢
  refine fun hacting => ha (isActing_iff.2 ⟨t, ?_, hacting⟩)
  rw [← h.bears j hj hid, ← hid]
  exact hj

section Spacing

variable {events : List Event}

theorem restsAt_of_not_acting (h : w.isActing id = false) (events : List Event) :
    w.restsAt id events = some w.now := by
  cases events with
  | nil => rw [restsAt, if_neg (Bool.eq_false_iff.1 h)]
  | cons e rest => rw [restsAt, if_neg (Bool.eq_false_iff.1 h)]

theorem restsAt_le_start (h : w.Carries id t) {b : Bout} {later : List Bout}
    (hb : w.bouts id events = b :: later) :
    ∃ stop, w.restsAt id events = some stop ∧ w.now ≤ stop ∧ stop ≤ b.start := by
  induction events generalizing w t with
  | nil => cases hb
  | cons e rest ih =>
    have hnow := w.le_now_react e
    rw [bouts] at hb
    split at hb
    · rename_i hf
      cases hb
      exact ⟨w.now, restsAt_of_not_acting (h.isActing (h.of_fires hf).1) _, Nat.le_refl _,
        Nat.le_refl _⟩
    · rename_i hf
      obtain ⟨-, u, -, hu⟩ := h.of_not_fires (Bool.eq_false_iff.2 hf)
      obtain ⟨stop, hstop, hl, hr⟩ := ih hu hb
      cases ha : w.isActing id with
      | true =>
        refine ⟨stop, ?_, Nat.le_trans hnow hl, hr⟩
        rw [restsAt, if_pos ha, hstop]
      | false =>
        exact ⟨w.now, restsAt_of_not_acting ha _, Nat.le_refl _,
          Nat.le_trans hnow (Nat.le_trans hl hr)⟩

theorem due_le_start (h : w.Carries id t) : ∀ b ∈ w.bouts id events, t.ticker.due ≤ b.start := by
  induction events generalizing w t with
  | nil => exact fun b hb => nomatch hb
  | cons e rest ih =>
    rw [bouts]
    split
    · rename_i hf
      obtain ⟨-, hdue, -, u, hticker, hu⟩ := h.of_fires hf
      refine List.forall_mem_cons.2 ⟨hdue, fun b hb => ?_⟩
      have hle := ih hu b hb
      rw [hticker] at hle
      exact Nat.le_trans (t.ticker.due_le_due_tick w.now) hle
    · rename_i hf
      obtain ⟨-, u, hticker, hu⟩ := h.of_not_fires (Bool.eq_false_iff.2 hf)
      rw [← hticker]
      exact ih hu

theorem bouts_chain (h : w.Carries id t) :
    (w.bouts id events).IsChain (Bout.Precedes t.ticker.period) := by
  induction events generalizing w t with
  | nil => exact .nil
  | cons e rest ih =>
    rw [bouts]
    split
    · rename_i hf
      obtain ⟨-, -, hnow, u, hticker, hu⟩ := h.of_fires hf
      have hchain := ih hu
      rw [hticker] at hchain
      cases hb : (w.react e).bouts id rest with
      | nil => exact .singleton _
      | cons b later =>
        rw [hb] at hchain
        refine .cons_cons ⟨?_, ?_⟩ hchain
        · rw [← hnow]
          exact restsAt_le_start hu hb
        · have hle := due_le_start hu b (hb ▸ List.mem_cons_self)
          rw [hticker] at hle
          exact Nat.le_trans (t.ticker.le_due_tick w.now) (Nat.add_le_add_right hle _)
    · rename_i hf
      obtain ⟨-, u, hticker, hu⟩ := h.of_not_fires (Bool.eq_false_iff.2 hf)
      rw [← hticker]
      exact ih hu

end Spacing

section Grid

variable {events : List Event} {due period : Nat}

theorem Carries.gone (h : w.Carries id t) (hn : ∀ j ∈ w.jobs, j.id ≠ id) :
    w.bouts id events = [] ∧ ∀ j ∈ (w.play events).jobs, j.id ≠ id := by
  induction events generalizing w t with
  | nil => exact ⟨rfl, hn⟩
  | cons e rest ih =>
    have idle : w.acts id e = false := by
      rw [← Bool.not_eq_true, acts_iff]
      rintro ⟨_, j, -, hj⟩
      obtain ⟨-, hm, hid⟩ := mem_of_acting? hj
      exact hn j hm hid
    have hf : w.fires id e = false := by
      rw [← Bool.not_eq_true, fires_iff]
      rintro ⟨_, k, -, hk, -⟩
      exact hn _ (mem_of_acting? hk).2.1 rfl
    obtain ⟨-, u, -, hu⟩ := h.of_not_fires hf
    have hr : ∀ j ∈ (w.react e).jobs, j.id ≠ id := by
      intro j hj hid
      rcases bystander idle h.issued j hj hid with hm | ⟨s, hm, -⟩
      · exact hn j hm hid
      · exact hn _ hm rfl
    rw [bouts, hf]
    exact ih hu hr

theorem react_of_fires (h : w.fires id e = true) : ∃ (t : PlanTask) (signalFirst : Bool),
    e = .step (.turn id signalFirst) ∧ w.acting? id = some ⟨id, .plan t⟩ ∧
      w.react e = t.act w id := by
  obtain ⟨signalFirst, t, rfl, hk, hf⟩ := fires_iff.1 h
  exact ⟨t, signalFirst, rfl, hk, (react_of_acts hk).trans (PlanTask.turn_of_fires hf)⟩

theorem Carries.react_of_not_fires (h : w.Carries id t) (hf : w.fires id e = false)
    (ha : w.acts id e = true) : (w.react e).pauses = w.pauses ∧
      (w.queue.refills < (w.react e).queue.refills → w.isActing id = true) := by
  obtain ⟨signalFirst, hm, hturn, he⟩ := h.turn hf ha
  obtain ⟨hp, hq⟩ := PlanTask.turn_starts_nothing hturn
  rw [he]
  exact ⟨hp, fun hlt => isActing_iff.2 ⟨t, hm, hq hlt⟩⟩

theorem Carries.play (h : w.Carries id t) (events : List Event) :
    ∃ u : PlanTask, (w.play events).Carries id u := by
  refine play_induction (I := fun v => ∃ u : PlanTask, v.Carries id u) (fun v e _ hv => ?_) ⟨t, h⟩
  obtain ⟨u, hu⟩ := hv
  cases hf : v.fires id e with
  | true =>
    obtain ⟨-, -, -, x, -, hx⟩ := hu.of_fires hf
    exact ⟨x, hx⟩
  | false =>
    obtain ⟨-, x, -, hx⟩ := hu.of_not_fires hf
    exact ⟨x, hx⟩

theorem Carries.now_le (h : w.Carries id t) {nanos : Nat} {j : Job} (hj : j ∈ w.jobs)
    (hid : j.id = id) (ha : w.isActing id = false) (hw : w.now ≤ t.ticker.due)
    (hd : Span.nanosInMilli ∣ t.ticker.due)
    (he : w.Elapses (Span.nanosInMilli ∣ ·) none nanos) : w.now + nanos ≤ t.ticker.due := by
  refine Nat.not_lt.1 fun hlt => ?_
  have hquiet := he.quiet t.ticker.due (.inr hd) hw hlt j hj
  have ht := h.bears j hj hid
  have hacting := h.not_acting hj hid ha
  rw [ht] at hquiet
  have hready : t.isReady { w with now := t.ticker.due } j.id = true :=
    PlanTask.isReady_of_due hacting (Nat.le_refl _)
  exact Bool.false_ne_true (hquiet.symm.trans hready)

section OnTime

variable {rest : List Event}

theorem Carries.now_eq (h : w.Carries id t) (hf : w.fires id e = true)
    (hrest : ∀ stop, w.restsAt id (e :: rest) = some stop → stop ≤ t.ticker.due) :
    w.now = t.ticker.due := by
  obtain ⟨hacting, hdue, -⟩ := h.of_fires hf
  exact Nat.le_antisymm (hrest _ (restsAt_of_not_acting (h.isActing hacting) _)) hdue

theorem Carries.of_fires_on_time (h : w.Carries id t) (hf : w.fires id e = true)
    (hrest : ∀ stop, w.restsAt id (e :: rest) = some stop → stop ≤ t.ticker.due) :
    w.now = t.ticker.due ∧ ∃ u : PlanTask, u.ticker = t.ticker.tick t.ticker.due ∧
      (w.react e).Carries id u := by
  have hnow := h.now_eq hf hrest
  obtain ⟨-, -, -, u, hticker, hu⟩ := h.of_fires hf
  exact ⟨hnow, u, hnow ▸ hticker, hu⟩

theorem Carries.restsAt_eq_none (h : w.Carries id t) (hf : w.fires id e = false)
    (hnone : (w.react e).restsAt id rest = none) : w.restsAt id (e :: rest) = none := by
  rw [restsAt]
  split
  · exact hnone
  · rename_i ha
    have hstill : (w.react e).isActing id = false :=
      Bool.eq_false_iff.2 fun hv => ha ((h.of_not_fires hf).1 hv)
    rw [restsAt_of_not_acting hstill] at hnone
    cases hnone

theorem Carries.restsAt_le (h : w.Carries id t) (hf : w.fires id e = false)
    (hj : ∃ j ∈ w.jobs, j.id = id) (hd : Span.nanosInMilli ∣ t.ticker.due)
    (hv : ∀ nanos, e = .step (.pass nanos) → w.Elapses (Span.nanosInMilli ∣ ·) none nanos)
    (hrest : ∀ stop, w.restsAt id (e :: rest) = some stop → stop ≤ t.ticker.due) :
    ∀ stop, (w.react e).restsAt id rest = some stop → stop ≤ t.ticker.due := by
  intro stop hstop
  cases ha : w.isActing id with
  | true =>
    refine hrest stop ?_
    rw [restsAt, if_pos ha, hstop]
  | false =>
    have hw : w.now ≤ t.ticker.due := hrest _ (restsAt_of_not_acting ha _)
    have hstill : (w.react e).isActing id = false := by
      rw [← Bool.not_eq_true] at ha ⊢
      exact fun hv => ha ((h.of_not_fires hf).1 hv)
    rw [restsAt_of_not_acting hstill] at hstop
    cases hstop
    by_cases hpass : ∃ nanos, e = .step (.pass nanos)
    · obtain ⟨nanos, rfl⟩ := hpass
      obtain ⟨j, hj, hid⟩ := hj
      exact h.now_le hj hid ha hw hd (hv nanos rfl)
    · have hnow : elapsed e = 0 := by
        unfold elapsed
        split
        · exact absurd ⟨_, rfl⟩ hpass
        · rfl
      rw [(time_react w e).1, hnow]
      exact hw

end OnTime

theorem start_eq (h : w.Carries id t) (hv : w.IsVirtual events)
    (hd : Span.nanosInMilli ∣ t.ticker.due) (hp : Span.nanosInMilli ∣ t.ticker.period)
    (hrest : ∀ stop, w.restsAt id events = some stop → stop ≤ t.ticker.due) {k : Nat} {b : Bout}
    (hb : (w.bouts id events)[k]? = some b)
    (hover : ∀ j a, j < k → (w.bouts id events)[j]? = some a → a.IsOver (t.ticker.nth (j + 1))) :
    b.start = t.ticker.nth k := by
  induction events generalizing w t k with
  | nil => cases hb
  | cons e rest ih =>
    cases hf : w.fires id e with
    | true =>
      obtain ⟨hnow, u, hticker, hu⟩ := h.of_fires_on_time hf hrest
      rw [bouts, if_pos hf] at hb hover
      cases k with
      | zero =>
        cases hb
        rw [hnow, Ticker.nth, Nat.zero_mul, Nat.add_zero]
      | succ k =>
        have hdue : u.ticker.due = t.ticker.due + t.ticker.period := by
          rw [hticker, Ticker.due_tick]
        have hperiod : u.ticker.period = t.ticker.period := by
          rw [hticker, Ticker.period_tick]
        rw [← Ticker.nth_tick, ← hticker]
        refine ih hu hv.2 (hdue ▸ Nat.dvd_add hd hp) (hperiod ▸ hp) (fun stop hstop => ?_) hb
          fun j a hj ha => ?_
        · obtain ⟨stop', hstop', hle⟩ := hover 0 _ (Nat.succ_pos k) rfl
          cases hstop.symm.trans hstop'
          rwa [← Ticker.nth_tick, ← hticker, Ticker.nth, Nat.zero_mul] at hle
        · have hover := hover (j + 1) a (Nat.succ_lt_succ hj) ha
          rwa [← Ticker.nth_tick, ← hticker] at hover
    | false =>
      obtain ⟨-, u, hticker, hu⟩ := h.of_not_fires hf
      by_cases hj : ∃ j ∈ w.jobs, j.id = id
      · have hrest := h.restsAt_le hf hj hd hv.1 hrest
        rw [bouts, hf] at hb hover
        rw [← hticker] at hd hp hrest hover ⊢
        exact ih hu hv.2 hd hp hrest hb hover
      · rw [(h.gone fun j hm hid => hj ⟨j, hm, hid⟩).1] at hb
        cases hb

theorem restsAt_le_now {stop : Nat} (h : w.restsAt id events = some stop) :
    stop ≤ (w.play events).now := by
  induction events generalizing w with
  | nil =>
    rw [restsAt] at h
    split at h
    · cases h
    · exact Nat.le_of_eq (Option.some.inj h).symm
  | cons e rest ih =>
    rw [restsAt] at h
    split at h
    · exact ih h
    · cases h
      exact w.le_now_play (e :: rest)

theorem length_bouts (h : w.Carries id t) (hv : w.IsVirtual events)
    (hd : Span.nanosInMilli ∣ t.ticker.due) (hp : Span.nanosInMilli ∣ t.ticker.period)
    (hpos : 0 < t.ticker.period)
    (hrest : ∀ stop, w.restsAt id events = some stop → stop ≤ t.ticker.due)
    (hopen : w.restsAt id events = none → (w.play events).now < t.ticker.due)
    {j : Job} (hj : j ∈ (w.play events).jobs) (hid : j.id = id)
    (hn : j.task.isReady (w.play events) id = false)
    (hover : ∀ k a, (w.bouts id events)[k]? = some a →
      t.ticker.nth (k + 1) ≤ (w.play events).now → a.IsOver (t.ticker.nth (k + 1))) :
    (w.bouts id events).length = t.ticker.ticksBy (w.play events).now := by
  induction events generalizing w t with
  | nil =>
    have hlt : w.now < t.ticker.due := by
      cases ha : w.isActing id with
      | true => exact hopen (if_pos ha)
      | false =>
        refine Nat.not_le.1 fun hle => ?_
        have ht := h.bears j hj hid
        have hacting := h.not_acting hj hid ha
        rw [ht] at hn
        exact Bool.false_ne_true (hn.symm.trans (PlanTask.isReady_of_due hacting hle))
    exact (if_pos hlt).symm
  | cons e rest ih =>
    cases hf : w.fires id e with
    | true =>
      obtain ⟨hnow, u, hticker, hu⟩ := h.of_fires_on_time hf hrest
      have hdue : u.ticker.due = t.ticker.nth 1 := by
        rw [hticker, Ticker.due_tick, Ticker.nth, Nat.one_mul]
      have hperiod : u.ticker.period = t.ticker.period := by
        rw [hticker, Ticker.period_tick]
      have hlater : t.ticker.due ≤ (w.play (e :: rest)).now := hnow ▸ w.le_now_play (e :: rest)
      rw [bouts, if_pos hf] at hover ⊢
      have hdone : t.ticker.nth 1 ≤ (w.play (e :: rest)).now →
          Bout.IsOver ⟨w.now, (w.react e).restsAt id rest⟩ (t.ticker.nth 1) := hover 0 _ rfl
      have hrest' : ∀ stop, (w.react e).restsAt id rest = some stop → stop ≤ u.ticker.due :=
        hdue ▸ Bout.stop_le_of_isOver hdone fun stop => restsAt_le_now
      have hopen' : (w.react e).restsAt id rest = none →
          ((w.react e).play rest).now < u.ticker.due :=
        hdue ▸ Bout.lt_of_not_stop hdone
      have hlength := ih hu hv.2 ?_ (hperiod ▸ hp) (hperiod ▸ hpos) hrest' hopen' hj hn ?_
      · rw [List.length_cons, hlength, hticker]
        exact Ticker.ticksBy_tick hlater hpos
      · rw [hticker, Ticker.due_tick]
        exact Nat.dvd_add hd hp
      · rw [hticker]
        intro k a ha hle
        rw [Ticker.nth_tick] at hle ⊢
        exact hover (k + 1) a ha hle
    | false =>
      obtain ⟨-, u, hticker, hu⟩ := h.of_not_fires hf
      have hthere : ∃ j ∈ w.jobs, j.id = id := by
        by_contra hgone
        exact (h.gone fun j hm hid => hgone ⟨j, hm, hid⟩).2 j hj hid
      have hrest' := h.restsAt_le hf hthere hd hv.1 hrest
      have hopen' : (w.react e).restsAt id rest = none →
          ((w.react e).play rest).now < t.ticker.due :=
        fun hnone => hopen (h.restsAt_eq_none hf hnone)
      rw [bouts, hf] at hover ⊢
      rw [← hticker] at hd hp hpos hrest' hopen' hover ⊢
      exact ih hu hv.2 hd hp hpos hrest' hopen' hj hn hover

end Grid

end World

def Plan.begun (p : Plan) (now signal : Nat) (action : PlanAction) : PlanTask :=
  ⟨.start p.period.nanos (now + p.delay.nanos), signal, action, .looking⟩

namespace World

def begin (w : World) (p : Plan) (signal : Nat) (action : PlanAction) : World :=
  (w.spawn (.plan (p.begun w.now signal action))).2

/-- Worlds that come about when plans with actions of their own may begin as well. -/
inductive Reached : World → Prop
  | start (s : Setup) : Reached s.world
  | react {w : World} (e : Event) (h : w.Reached) : Reached (w.react e)
  | begin {w : World} (p : Plan) (signal : Nat) (action : PlanAction) (h : w.Reached) :
    Reached (w.begin p signal action)

def Begins (w : World) (p : Plan) (id : TaskId) : Prop :=
  ∃ signal action, ⟨id, .plan (p.begun w.now signal action)⟩ ∈ w.jobs

theorem begins_begin (w : World) (p : Plan) (signal : Nat) (action : PlanAction) :
    (w.begin p signal action).Begins p w.nextId :=
  ⟨signal, action, List.mem_append_right _ (List.mem_singleton.2 rfl)⟩

theorem begins_follow (w : World) (p : Plan) : (w.follow p).Begins p w.nextId := by
  obtain ⟨signals, hfollow, -⟩ := w.follow_cases p
  rw [hfollow]
  exact ⟨w.signals.length, .refill, List.mem_append_right _ (List.mem_singleton.2 rfl)⟩

theorem Reached.sound (h : w.Reached) : ∃ n, w.Sound none 0 (some n) := by
  induction h with
  | start s => exact ⟨0, setup_sound s rfl⟩
  | react e _ ih =>
    obtain ⟨n, hn⟩ := ih
    exact react_sound hn e
  | @begin w p signal action _ ih =>
    obtain ⟨n, hn⟩ := ih
    have hspawn := hn.poise_none.spawn (t := .plan (p.begun w.now signal action)) rfl
      fun _ => trivial
    exact ⟨n, hspawn.poised.toSound⟩

theorem Reached.carries (h : w.Reached) {p : Plan} (hb : w.Begins p id) : ∃ t : PlanTask,
    t.ticker = ⟨p.period.nanos, w.now + p.delay.nanos⟩ ∧ t.isActing = false ∧ w.Carries id t := by
  obtain ⟨n, hs⟩ := h.sound
  obtain ⟨signal, action, hm⟩ := hb
  refine ⟨p.begun w.now signal action, rfl, rfl, hs.lt_nextId hm, fun j hj hid => ?_⟩
  rw [hs.eq_of_mem hm hj hid]

/-- A plan acts at its first tick or later, once at a time, and again after about a period or later.
If it is done before its next tick each time, it acts at each tick as it comes. A bout begins where the
plan starts its action; in any other turn it does at most what is left of the action that it is in. -/
theorem plan_acts_at_ticks (h : w.Reached) {p : Plan} (hb : w.Begins p id) (events : List Event) :
    let ticker : Ticker := .start p.period.nanos (w.now + p.delay.nanos)
    let bouts := w.bouts id events
    (∀ b ∈ bouts, ticker.due ≤ b.start) ∧
    bouts.IsChain (Bout.Precedes p.period.nanos) ∧
    (w.IsVirtual events → Span.nanosInMilli ∣ w.now → Span.nanosInMilli ∣ p.delay.nanos →
      Span.nanosInMilli ∣ p.period.nanos →
      (∀ k b, bouts[k]? = some b →
        (∀ j a, j < k → bouts[j]? = some a → a.IsOver (ticker.nth (j + 1))) →
          b.start = ticker.nth k) ∧
      (0 < p.period.nanos → ∀ j ∈ (w.play events).jobs, j.id = id →
        j.task.isReady (w.play events) id = false →
          (∀ k a, bouts[k]? = some a → ticker.nth (k + 1) ≤ (w.play events).now →
            a.IsOver (ticker.nth (k + 1))) →
              bouts.length = ticker.ticksBy (w.play events).now)) ∧
    ∀ before e after, events = before ++ e :: after →
      let v := w.play before
      (v.fires id e = true → ∃ (t : PlanTask) (signalFirst : Bool),
        e = .step (.turn id signalFirst) ∧ v.acting? id = some ⟨id, .plan t⟩ ∧
          v.react e = t.act v id) ∧
      (v.fires id e = false → v.acts id e = true → (v.react e).pauses = v.pauses ∧
        (v.queue.refills < (v.react e).queue.refills → v.isActing id = true)) := by
  obtain ⟨t, hticker, hacting, ht⟩ := h.carries hb
  have hstart : Ticker.start p.period.nanos (w.now + p.delay.nanos) = t.ticker := hticker.symm
  have hperiod : p.period.nanos = t.ticker.period := by rw [hticker]
  have hrest := restsAt_of_not_acting (ht.isActing hacting) events
  simp only [hstart]
  refine ⟨due_le_start ht, hperiod ▸ bouts_chain ht, fun hv hnow hdelay hp => ?_,
    fun before e after _ => ?_⟩
  · have hdue : Span.nanosInMilli ∣ t.ticker.due := by
      rw [hticker]
      exact Nat.dvd_add hnow hdelay
    have hle : ∀ stop, w.restsAt id events = some stop → stop ≤ t.ticker.due := by
      intro stop hstop
      cases hrest.symm.trans hstop
      rw [hticker]
      exact Nat.le_add_right _ _
    rw [hperiod] at hp ⊢
    refine ⟨fun k b hb hover => start_eq ht hv hdue hp hle hb hover, ?_⟩
    intro hpos j hj hid hn hover
    have hopen : w.restsAt id events = none → (w.play events).now < t.ticker.due := by
      intro hnone
      cases hrest.symm.trans hnone
    exact length_bouts ht hv hdue hp hpos hle hopen hj hid hn hover
  · obtain ⟨u, hu⟩ := ht.play before
    exact ⟨react_of_fires, hu.react_of_not_fires⟩

section Example

def quiet : Setup :=
  { queue := ⟨0⟩
    monitor := .memory
    partition := .standard
    crawler := .standard
    numbered := false
    workload := []
    adapters := []
    results := .empty 1 1 }

def everyOther : Plan := ⟨.ofMillis 2, .ofMillis 1, 1⟩

def brisk : World := quiet.world.begin everyOther 0 (.pause [.ofMillis 1])

def twoTicks : List Event :=
  [.step (.turn 0 true),
    .step (.pass 1000000), .step (.turn 0 true), .step (.pass 1000000), .step (.turn 0 true),
    .step (.turn 0 true),
    .step (.pass 1000000), .step (.turn 0 true), .step (.pass 1000000), .step (.turn 0 true),
    .step (.turn 0 true)]

theorem isVirtual_twoTicks : brisk.IsVirtual twoTicks := by
  refine .turn (.jump (d := 1000000) (by decide) (by decide) (by decide) ?_)
  refine .turn (.jump (d := 2000000) (by decide) (by decide) (by decide) (.turn ?_))
  refine .turn (.jump (d := 3000000) (by decide) (by decide) (by decide) ?_)
  refine .turn (.jump (d := 4000000) (by decide) (by decide) (by decide) (.turn (.turn ?_)))
  trivial

theorem plan_acts_at_two_ticks :
    brisk.Reached ∧ brisk.Begins everyOther 0 ∧ brisk.IsVirtual twoTicks ∧
    brisk.bouts 0 twoTicks = [⟨1000000, some 2000000⟩, ⟨3000000, some 4000000⟩] ∧
    (brisk.play twoTicks).pauses = [3000000, 1000000] ∧
    (brisk.bouts 0 twoTicks).IsChain (Bout.Precedes 2000000) ∧
    (brisk.bouts 0 twoTicks).length = (Ticker.start 2000000 1000000).ticksBy 4000000 := by
  have hreached : brisk.Reached := .begin _ _ _ (.start quiet)
  have hbegins : brisk.Begins everyOther 0 := begins_begin _ _ _ _
  have hbouts : brisk.bouts 0 twoTicks = [⟨1000000, some 2000000⟩, ⟨3000000, some 4000000⟩] := by
    decide
  obtain ⟨-, hchain, hgrid, -⟩ := plan_acts_at_ticks hreached hbegins twoTicks
  obtain ⟨-, hcount⟩ := hgrid isVirtual_twoTicks (by decide) (by decide) (by decide)
  have hjobs : (brisk.play twoTicks).jobs =
      [⟨0, .plan ⟨⟨2000000, 5000000⟩, 0, .pause [.ofMillis 1], .ticking 0⟩⟩] := rfl
  have hnow : (brisk.play twoTicks).now = 4000000 := by decide
  have hticker : Ticker.start everyOther.period.nanos (brisk.now + everyOther.delay.nanos) =
      .start 2000000 1000000 := by decide
  have hlength := hcount (by decide) _ (hjobs ▸ List.mem_singleton.2 rfl) rfl (by decide)
  have hperiod : everyOther.period.nanos = 2000000 := by decide
  rw [hbouts, hperiod] at hchain
  rw [hbouts, hnow, hticker] at hlength
  rw [hbouts]
  refine ⟨hreached, hbegins, isVirtual_twoTicks, rfl, by decide, hchain, hlength ?_⟩
  intro k a ha hle
  rcases k with _ | _ | k
  · cases ha
    exact ⟨2000000, rfl, by decide⟩
  · exact absurd hle (by decide)
  · cases ha

end Example

end World

end CatalogCrawl

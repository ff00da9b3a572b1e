import CatalogCrawl.Proofs.World.Agreement
import CatalogCrawl.Proofs.World.Effects
import Mathlib.Data.List.MinMax

namespace CatalogCrawl

theorem Plan.collate?_eq_argmax (pending : List Plan) :
    collate? pending = pending.argmax number := by
  induction pending using List.reverseRecOn with
  | nil => rfl
  | append_singleton pending p ih =>
    rw [List.argmax_concat, ← ih]
    cases hx : collate? pending with
    | none =>
      cases pending with
      | nil => rfl
      | cons q rest => cases hx
    | some x =>
      rw [collate?_concat hx, merge]
      exact apply_ite some _ _ _

namespace PlanStep

def submitted (steps : List PlanStep) : List Plan :=
  (steps.filterMap submission?).map Prod.snd

def await (calls : List TaskId) : PlanStep → List TaskId
  | .submit call _ => calls ++ [call]
  | .collate call _ => calls.erase call
  | .forget => calls

def awaiting (steps : List PlanStep) : List TaskId := steps.foldl await []

variable (steps : List PlanStep) (call : TaskId) (p : Plan)

theorem submitted_concat_submit :
    submitted (steps ++ [.submit call p]) = submitted steps ++ [p] := by
  simp [submitted, submission?]

theorem submitted_concat_collate : submitted (steps ++ [.collate call p]) = submitted steps := by
  simp [submitted, submission?]

theorem awaiting_concat_submit :
    awaiting (steps ++ [.submit call p]) = awaiting steps ++ [call] := by
  simp [awaiting, await]

end PlanStep

namespace Accord

open PlanStep

variable {a : Accord} {steps : List PlanStep} {x : Plan}

def initial : Accord := ⟨[], []⟩

/-- What is pending, and was returned, after some steps. -/
structure Latest (a : Accord) (steps : List PlanStep) : Prop where
  current : a.current? = (submitted steps).argmax Plan.number
  size : a.pending.length ≤ 1 + (awaiting steps).length
  descending : (a.returned.map fun r => r.2.number).Pairwise (· ≥ ·)
  passed : ∀ r ∈ a.returned, ∃ p ∈ a.pending, r.2.number ≤ p.number

theorem latest_initial : initial.Latest [] :=
  ⟨rfl, Nat.zero_le _, .nil, fun r hm => by cases hm⟩

theorem exists_current (h : a.pending ≠ []) : ∃ x, a.current? = some x := by
  cases hp : a.pending with
  | nil => exact absurd hp h
  | cons p rest => exact ⟨_, by rw [current?, hp]; rfl⟩

theorem Latest.submit (h : a.Latest steps) (call : TaskId) (p : Plan) :
    (a.step (.submit call p)).Latest (steps ++ [.submit call p]) := by
  refine ⟨?_, ?_, h.descending, fun r hm => ?_⟩
  · have hc : a.pending.argmax Plan.number = _ :=
      (Plan.collate?_eq_argmax _).symm.trans h.current
    rw [submitted_concat_submit, List.argmax_concat, ← hc, ← List.argmax_concat,
      ← Plan.collate?_eq_argmax]
    rfl
  · have hn := h.size
    have hl : (a.step (.submit call p)).pending.length = a.pending.length + 1 :=
      List.length_append
    rw [awaiting_concat_submit, List.length_append, List.length_singleton]
    omega
  · obtain ⟨q, hq, hn⟩ := h.passed r hm
    exact ⟨q, List.mem_append_left _ hq, hn⟩

theorem Latest.collate (h : a.Latest steps) (hp : a.pending ≠ []) (call : TaskId) (own : Plan) :
    (a.step (.collate call own)).Latest (steps ++ [.collate call own]) := by
  obtain ⟨x, hx⟩ := exists_current hp
  -- No plan that was returned counts more than one that is pending, hence none more than this.
  have hle : ∀ r ∈ a.returned, r.2.number ≤ x.number := by
    intro r hm
    obtain ⟨q, hq, hn⟩ := h.passed r hm
    rw [current?, Plan.collate?_eq_argmax] at hx
    exact Nat.le_trans hn (List.le_of_mem_argmax hq hx)
  rw [current?_collate hx]
  refine ⟨?_, Nat.le_add_right _ _, ?_, fun r hm => ⟨x, List.mem_singleton.2 rfl, ?_⟩⟩
  · rw [submitted_concat_collate, ← h.current, hx]
    rfl
  · refine List.pairwise_cons.2 ⟨fun n hn => ?_, h.descending⟩
    obtain ⟨r, hr, rfl⟩ := List.mem_map.1 hn
    exact hle r hr
  · rcases List.mem_cons.1 hm with rfl | hm
    · exact Nat.le_refl _
    · exact hle r hm

theorem pending_run_ne_nil (h : a.pending ≠ []) (hf : .forget ∉ steps) :
    (a.run steps).pending ≠ [] := by
  obtain ⟨x, hx⟩ := exists_current h
  intro hn
  have hc := current?_run hx hf
  rw [current?, hn] at hc
  cases hc

end Accord

def Task.isUnderway : Task → Bool
  | .manage ⟨.update _, .entering⟩ => false
  | .manage ⟨.update _, _⟩ => true
  | _ => false

theorem Task.exists_plan {t : Task} (h : t.isUnderway = true) : ∃ p, t.plan? = some p := by
  unfold isUnderway at h
  split at h
  · cases h
  · exact ⟨_, rfl⟩
  · cases h

theorem Task.GoesOn.plan? {t u : Task} (h : t.GoesOn u) : u.plan? = t.plan? := by
  unfold GoesOn at h
  split at h
  · rfl
  · rfl
  · rfl
  · rfl
  · rename_i t u
    rcases t with ⟨c, s⟩
    rcases u with ⟨d, r⟩
    cases h
    cases c <;> rfl
  all_goals first | rfl | exact h.elim

theorem Task.not_underway_of_isEntry {t : Task} (h : t.isEntry = true) : t.isUnderway = false := by
  cases t with
  | manage t =>
    rcases t with ⟨c, stage⟩
    cases stage with
    | entering => cases c <;> rfl
    | _ => cases h
  | _ => rfl

theorem Actor.Starts.not_underway {a : Actor} {config : CrawlerConfig} {t : Task}
    (h : a.Starts config t) : t.isUnderway = false := by
  unfold Starts at h
  split at h
  · rfl
  · rfl
  · rfl
  · obtain ⟨rfl, he⟩ := h
    exact Task.not_underway_of_isEntry he
  · exact h.elim

namespace World

variable {w : World} {e : Event} {call : TaskId} {x : Plan}

def closing (w : World) : Event → List PlanStep
  | .step (.turn id signalFirst) =>
    if (w.step (.turn id signalFirst)).accord.returned.length = w.accord.returned.length then []
    else ((w.job? id).bind fun j => j.task.plan?).toList.map (.collate id)
  | _ => []

theorem closing_cases (w : World) (e : Event) : w.closing e = [] ∨
    ∃ id signalFirst j p, e = .step (.turn id signalFirst) ∧ w.job? id = some j ∧
      j.task.plan? = some p ∧ w.closing e = [.collate id p] := by
  cases e with
  | step s =>
    cases s with
    | turn id signalFirst =>
      simp only [closing]
      split
      · exact .inl rfl
      · cases hj : w.job? id with
        | none => exact .inl rfl
        | some j =>
          cases hp : j.task.plan? with
          | none => exact .inl (by simp [hp])
          | some p => exact .inr ⟨id, signalFirst, j, p, rfl, hj, hp, by simp [hp]⟩
    | pass nanos => exact .inl rfl
  | _ => exact .inl rfl

def transcript (w : World) : List Event → List PlanStep
  | [] => []
  | e :: rest => w.opening e ++ w.closing e ++ (w.react e).transcript rest

theorem length_returned_run_opening (w : World) (e : Event) :
    (w.accord.run (w.opening e)).returned.length = w.accord.returned.length := by
  rw [returned_run_opening]

theorem react_accord_eq {n : Nat} (h : w.Sound none 0 (some n)) (e : Event) :
    (w.react e).accord = w.accord.run (w.opening e ++ w.closing e) := by
  obtain ⟨steps, hk, ha⟩ := react_accord h e
  -- Whether the event ends with a collation shows in the number of plans that were returned.
  suffices hs : w.closing e = steps by rw [hs, ha]
  have hl := congrArg (fun a => a.returned.length) ha
  rw [Accord.run_append] at hl
  rcases hk with rfl | ⟨id, signalFirst, j, rfl, hj, rfl | ⟨p, hp, rfl⟩⟩
  · cases e with
    | step s =>
      cases s with
      | turn id signalFirst => exact if_pos (hl.trans (length_returned_run_opening w _))
      | pass nanos => rfl
    | _ => rfl
  · exact if_pos (hl.trans (length_returned_run_opening w _))
  · have hn : (w.step (.turn id signalFirst)).accord.returned.length ≠
        w.accord.returned.length := by
      intro he
      have hg : (w.step (.turn id signalFirst)).accord.returned.length =
          w.accord.returned.length + 1 :=
        hl.trans (congrArg (· + 1) (length_returned_run_opening w _))
      omega
    simp only [closing, if_neg hn, hj, Option.bind_some, hp]
    rfl

structure Abreast (w : World) (steps : List PlanStep) : Prop where
  sound : ∃ n, w.Sound none 0 (some n)
  run : w.accord = Accord.initial.run steps
  latest : w.accord.Latest steps
  underway : ∀ j ∈ w.jobs, j.task.isUnderway = true → w.manager.pending ≠ []

variable {steps : List PlanStep}

theorem abreast_setup (s : Setup) : s.world.Abreast [] := by
  have hw : s.world.accord = .initial ∧ s.world.jobs = [] := by
    simp only [Setup.world, withManager]
    split <;> exact ⟨rfl, rfl⟩
  refine ⟨⟨0, setup_sound s rfl⟩, hw.1, hw.1 ▸ Accord.latest_initial, fun j hm => ?_⟩
  rw [hw.2] at hm
  cases hm

theorem Abreast.submits (h : w.Abreast steps) {id : TaskId} {j : Job} {p : Plan}
    (hj : w.job? id = some j) (hp : j.task.plan? = some p) (signalFirst : Bool) :
    (w.accord.run (w.opening (.step (.turn id signalFirst)))).pending ≠ [] := by
  simp only [opening, hj, Option.elim_some]
  rcases hs : j.task.opening id with _ | ⟨s, rest⟩
  · refine h.underway j (mem_of_job? hj).1 ?_
    rcases j with ⟨i, task⟩
    cases task with
    | manage t =>
      rcases t with ⟨c, stage⟩
      cases c with
      | update q => cases stage <;> first | rfl | cases hs
      | _ => cases hp
    | _ => cases hp
  · unfold Task.opening at hs
    split at hs
    · cases hs
      simp [Accord.run, Accord.step]
    · cases hs

theorem Abreast.meets (h : w.Abreast steps) (he : e ≠ .dropManager) :
    (w.accord.run (w.opening e ++ w.closing e)).Latest (steps ++ (w.opening e ++ w.closing e)) ∧
      (w.closing e ≠ [] → (w.accord.run (w.opening e)).pending ≠ []) := by
  have ho : (w.accord.run (w.opening e)).Latest (steps ++ w.opening e) := by
    rcases w.opening_cases e with ho | ⟨call, p, ho⟩ | ⟨hd, -⟩
    · rw [ho, List.append_nil]
      exact h.latest
    · rw [ho]
      exact h.latest.submit call p
    · exact absurd hd he
  rcases w.closing_cases e with hc | ⟨id, signalFirst, j, p, rfl, hj, hp, hc⟩
  · rw [hc, List.append_nil]
    exact ⟨ho, fun hn => absurd rfl hn⟩
  · have hn := h.submits hj hp signalFirst
    rw [hc, Accord.run_append, ← List.append_assoc]
    exact ⟨ho.collate hn id p, fun _ => hn⟩

theorem forget_not_mem_steps (w : World) (he : e ≠ .dropManager) :
    .forget ∉ w.opening e ++ w.closing e := by
  rw [List.mem_append, not_or]
  refine ⟨forget_not_mem_opening he, ?_⟩
  rcases w.closing_cases e with hc | ⟨id, signalFirst, j, p, -, -, -, hc⟩ <;> simp [hc]

theorem Abreast.react (h : w.Abreast steps) (he : e ≠ .dropManager) :
    (w.react e).Abreast (steps ++ (w.opening e ++ w.closing e)) := by
  obtain ⟨n, hn⟩ := h.sound
  have ha := react_accord_eq hn e
  refine ⟨react_sound hn e, ?_, ha ▸ (h.meets he).1, fun j hm hu => ?_⟩
  · rw [Accord.run_append, ← h.run, ha]
  have hp (hp : w.manager.pending ≠ []) : (w.react e).manager.pending ≠ [] := by
    have hq := Accord.pending_run_ne_nil (a := w.accord) hp (w.forget_not_mem_steps he)
    rwa [← ha] at hq
  -- A call is under way because it was before, or because it submits its plan in this turn.
  rcases (w.tends_react e).jobs j hm with hm | ⟨k, hk, hi, hg⟩ | ⟨t, hm, ht⟩ | ⟨hi, hs⟩
  · exact hp (h.underway j hm hu)
  · obtain ⟨id, signalFirst, rfl, hj⟩ := of_actor_eq_job hk
    have hj := (mem_of_acting? hj).1
    obtain ⟨p, hp⟩ := Task.exists_plan hu
    rw [hg.plan?] at hp
    have hf := w.forget_not_mem_steps he
    rw [List.mem_append, not_or] at hf
    have hq := Accord.pending_run_ne_nil (h.submits hj hp signalFirst) hf.2
    rwa [← Accord.run_append, ← ha] at hq
  · rw [ht] at hu
    cases hu
  · exact absurd hu (by simp [hs.not_underway])

theorem Returns.closing_ne_nil {n : Nat} (hr : w.Returns e call x)
    (h : w.Sound none 0 (some n)) : w.closing e ≠ [] := by
  intro hc
  obtain ⟨time, hr⟩ := hr
  have ha := react_accord_eq h e
  rw [hc, List.append_nil] at ha
  have hl : (w.react e).accord.returned = (call, x) :: w.accord.returned := by
    rw [accord, hr]
    rfl
  rw [ha, returned_run_opening] at hl
  exact List.cons_ne_self _ _ hl.symm

theorem transcript_append (w : World) (events later : List Event) :
    w.transcript (events ++ later) = w.transcript events ++ (w.play events).transcript later := by
  induction events generalizing w with
  | nil => rfl
  | cons e rest ih =>
    rw [List.cons_append, transcript, ih, transcript]
    exact (List.append_assoc _ _ _).symm

theorem transcript_singleton (w : World) (e : Event) :
    w.transcript [e] = w.opening e ++ w.closing e := List.append_nil _

theorem Abreast.play (h : w.Abreast steps) (events : List Event) (hd : .dropManager ∉ events) :
    (w.play events).Abreast (steps ++ w.transcript events) := by
  induction events generalizing w steps with
  | nil => rwa [transcript, List.append_nil]
  | cons e rest ih =>
    have he : e ≠ .dropManager := fun he => hd (he ▸ List.mem_cons_self)
    rw [transcript, ← List.append_assoc]
    exact ih (h.react he) fun hm => hd (List.mem_cons_of_mem e hm)

end World

section Calls

open World PlanStep

/-- However calls to update the plan of a manager go on side by side, the pending plan is the latest
that any of them has submitted; no more plans are pending than calls are on their way, but one; the
numbers of the plans that are returned never decrease; and a call that returns finds a plan that is
pending, and returns the latest that was submitted until then. -/
theorem no_update_lost (s : Setup) (events : List Event) (hd : .dropManager ∉ events) :
    let w := s.world.play events
    let steps := s.world.transcript events
    w.accord = Accord.initial.run steps ∧
    w.pendingPlan? = (submitted steps).argmax Plan.number ∧
    w.manager.pending.length ≤ 1 + (awaiting steps).length ∧
    (w.accord.returned.map fun r => r.2.number).Pairwise (· ≥ ·) ∧
    ∀ e call x, w.Returns e call x →
      (w.accord.run (w.opening e)).pending ≠ [] ∧
      (submitted (s.world.transcript (events ++ [e]))).argmax Plan.number = some x := by
  intro w steps
  have h : w.Abreast steps := (abreast_setup s).play events hd
  refine ⟨h.run, h.latest.current, h.latest.size, h.latest.descending, fun e call x hr => ?_⟩
  obtain ⟨n, hn⟩ := h.sound
  obtain ⟨he, hx⟩ := hr.current hn
  refine ⟨(h.meets he).2 (hr.closing_ne_nil hn), ?_⟩
  rw [transcript_append, transcript_singleton, ← (h.react he).latest.current, hx]

def outdated : List Event :=
  [.launch (.manage ⟨.update ⟨.zero, .zero, 2⟩, .entering⟩), .step (.turn 0 true),
    .launch (.manage ⟨.update ⟨.zero, .zero, 1⟩, .entering⟩)]

theorem no_update_lost_outdated :
    .dropManager ∉ outdated ∧
    (stalling.world.play outdated).Returns (.step (.turn 1 true)) 1 ⟨.zero, .zero, 2⟩ ∧
    (submitted (stalling.world.transcript (outdated ++ [.step (.turn 1 true)]))).argmax
      Plan.number = some ⟨.zero, .zero, 2⟩ := by
  have hd : .dropManager ∉ outdated := by simp [outdated]
  have hr : (stalling.world.play outdated).Returns (.step (.turn 1 true)) 1
      ⟨.zero, .zero, 2⟩ := ⟨0, rfl⟩
  exact ⟨hd, hr, ((no_update_lost stalling outdated hd).2.2.2.2 _ _ _ hr).2⟩

end Calls

end CatalogCrawl

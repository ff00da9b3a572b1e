import CatalogCrawl.Proofs.World.Runs

namespace CatalogCrawl

namespace World

variable {w : World} {id : TaskId} {e : Event} {x : Plan} {call : TaskId}

theorem accord_followPoll (w : World) (id : TaskId) (deadline : Nat)
    (r : WorkQueue.Attempt × WorkQueue) : (w.followPoll id deadline r).accord = w.accord := by
  rcases r with ⟨a, q⟩
  rcases a with item | _ | ticket
  · rfl
  · rfl
  · rfl

theorem accord_pollTurn (w : World) (id : TaskId) (ticket : Option Nat) (deadline : Nat) :
    (w.pollTurn id ticket deadline).accord = w.accord := by
  cases ticket with
  | none =>
    rw [pollTurn_none]
    exact w.accord_followPoll id deadline _
  | some ticket =>
    rw [pollTurn_some]
    split
    · exact w.accord_followPoll id deadline _
    · split
      · rfl
      · rfl

theorem opening_of_isPolling (h : w.isPolling e = true) :
    w.opening e = [] ∧ (w.react e).accord = w.accord := by
  obtain ⟨id, signalFirst, ticket, deadline, rfl, hj⟩ := of_isPolling h
  simp only [opening, react, step, hj, Option.elim_some]
  refine ⟨rfl, ?_⟩
  split
  · exact w.accord_pollTurn id ticket deadline
  · rfl

theorem opening_of_isCrawling (h : w.isCrawling e = true) : w.opening e = [] := by
  obtain ⟨id, signalFirst, t, rfl, hj⟩ := of_isCrawling h
  simp only [opening, hj, Option.elim_some]
  rfl

theorem react_accord {n : Nat} (h : w.Sound none 0 (some n)) (e : Event) :
    ∃ steps, w.Closes e steps ∧ (w.react e).accord = w.accord.run (w.opening e ++ steps) := by
  by_cases hp : w.isPolling e = true
  · obtain ⟨ho, ha⟩ := opening_of_isPolling hp
    exact ⟨[], .inl rfl, by rw [ho, ha]; rfl⟩
  · by_cases hc : w.isCrawling e = true
    · refine ⟨[], .inl rfl, ?_⟩
      rw [opening_of_isCrawling hc]
      exact (react_crawled h hc).accord
    · rw [Bool.not_eq_true] at hp hc
      obtain ⟨steps, hk, he⟩ := react_ended h hc hp (.inl rfl)
      exact ⟨steps, hk, he.accord⟩

def submissions (w : World) : List Event → List (TaskId × Plan)
  | [] => []
  | e :: rest => (w.opening e).filterMap PlanStep.submission? ++ (w.react e).submissions rest

def Returns (w : World) (e : Event) (call : TaskId) (x : Plan) : Prop :=
  ∃ time, (w.react e).ended = ⟨call, time, .plan x⟩ :: w.ended

theorem opening_cases (w : World) (e : Event) : w.opening e = [] ∨
    (∃ call p, w.opening e = [.submit call p]) ∨ e = .dropManager ∧ w.opening e = [.forget] := by
  cases e with
  | step s =>
    cases s with
    | turn id signalFirst =>
      cases hj : w.job? id with
      | none => simp [opening, hj]
      | some j =>
        simp only [opening, hj, Option.elim_some]
        unfold Task.opening
        split
        · exact .inr (.inl ⟨_, _, rfl⟩)
        · exact .inl rfl
    | pass nanos => exact .inl rfl
  | dropManager => exact .inr (.inr ⟨rfl, rfl⟩)
  | _ => exact .inl rfl

theorem returned_run_opening (w : World) (e : Event) (a : Accord) :
    (a.run (w.opening e)).returned = a.returned := by
  rcases w.opening_cases e with ho | ⟨call, p, ho⟩ | ⟨-, ho⟩ <;> rw [ho] <;> rfl

theorem forget_not_mem_opening (h : e ≠ .dropManager) : .forget ∉ w.opening e := by
  rcases w.opening_cases e with ho | ⟨call, p, ho⟩ | ⟨he, -⟩
  · simp [ho]
  · simp [ho]
  · exact absurd he h

theorem Closes.submissions_eq_nil {steps : List PlanStep} (h : w.Closes e steps) :
    steps.filterMap PlanStep.submission? = [] := by
  rcases h with rfl | ⟨id, signalFirst, j, -, -, rfl | ⟨p, -, rfl⟩⟩ <;> rfl

theorem Closes.forget_not_mem {steps : List PlanStep} (h : w.Closes e steps) : .forget ∉ steps := by
  rcases h with rfl | ⟨id, signalFirst, j, -, -, rfl | ⟨p, -, rfl⟩⟩ <;> simp

theorem Returns.current {n : Nat} (h : w.Sound none 0 (some n)) (hr : w.Returns e call x) :
    e ≠ .dropManager ∧ (w.react e).accord.current? = some x := by
  obtain ⟨time, hr⟩ := hr
  obtain ⟨steps, hk, ha⟩ := react_accord h e
  have hl : (w.react e).accord.returned = (call, x) :: w.accord.returned := by
    rw [accord, hr]
    rfl
  rw [ha, Accord.run_append] at hl ⊢
  have idle (hs : steps = []) : False := by
    rw [hs, Accord.run_nil, returned_run_opening] at hl
    exact List.cons_ne_self _ _ hl.symm
  rcases hk with hs | ⟨id, signalFirst, j, rfl, -, hs | ⟨p, -, hs⟩⟩
  · exact (idle hs).elim
  · exact (idle hs).elim
  · refine ⟨fun he => (by cases he), ?_⟩
    rw [hs] at hl ⊢
    have hx := congrArg Prod.snd (List.cons.inj hl).1
    exact congrArg some hx

theorem current?_play {n : Nat} (h : w.Sound none 0 (some n)) (hx : w.accord.current? = some x)
    (events : List Event) (hd : .dropManager ∉ events) : (w.play events).accord.current? =
      some (((w.submissions events).map Prod.snd).foldl Plan.merge x) := by
  induction events generalizing w x n with
  | nil => exact hx
  | cons e rest ih =>
    have he : e ≠ .dropManager := fun he => hd (he ▸ List.mem_cons_self)
    obtain ⟨m, hm⟩ := react_sound h e
    obtain ⟨steps, hk, ha⟩ := react_accord h e
    have hf : .forget ∉ w.opening e ++ steps := by
      rw [List.mem_append, not_or]
      exact ⟨forget_not_mem_opening he, hk.forget_not_mem⟩
    have hc := Accord.current?_run hx hf
    rw [← ha, List.filterMap_append, hk.submissions_eq_nil, List.append_nil] at hc
    rw [submissions, List.map_append, List.foldl_append]
    exact ih hm hc fun hm => hd (List.mem_cons_of_mem e hm)

end World

/-- Two calls to update the plan of a manager return, and the one that returns later had submitted
its plan before the other one collated. -/
structure Overlap (s : Setup) (before : List Event) (e : Event) (between : List Event) (f : Event)
    (a b : TaskId) (x y : Plan) : Prop where
  submitted : ∃ p, (b, p) ∈ s.world.submissions before
  first : (s.world.play before).Returns e a x
  second : (s.world.play (before ++ e :: between)).Returns f b y
  kept : .dropManager ∉ between

section Calls

open World

variable {s : Setup} {before between : List Event} {e f : Event} {a b : TaskId} {x y : Plan}

/-- Two calls whose waits overlap return the same plan if and only if no higher plan than the one
returned first is submitted between their collations. -/
theorem overlapping_agree_iff (h : Overlap s before e between f a b x y) :
    y = x ↔ ∀ p ∈ (s.world.play (before ++ [e])).submissions (between ++ [f]),
      p.2.number ≤ x.number := by
  obtain ⟨n, hn⟩ := play_sound s before
  obtain ⟨m, hm⟩ := react_sound hn e
  obtain ⟨k, hk⟩ := play_sound s (before ++ e :: between)
  obtain ⟨-, hx⟩ := h.first.current hn
  obtain ⟨hf, hy⟩ := h.second.current hk
  have hd : .dropManager ∉ between ++ [f] := by
    intro hm
    rcases List.mem_append.1 hm with hm | hm
    · exact h.kept hm
    · exact hf (List.mem_singleton.1 hm).symm
  have hp : (s.world.play (before ++ e :: between)).react f =
      ((s.world.play before).react e).play (between ++ [f]) := by
    rw [play_append, ← play_concat]
    rfl
  rw [hp, current?_play hm hx _ hd, Option.some.injEq] at hy
  rw [← hy, Plan.foldl_merge_eq_self_iff, play_concat]
  exact List.forall_mem_map

end Calls

section Latecomer

def gated : Adapter := ⟨"gated", fun _ => true, fun _ _ _ => ⟨.zero, .error .decode⟩, true⟩

def stalling : Setup :=
  { queue := ⟨0⟩
    monitor := .memory
    partition := { PartitionConfig.standard with crawlerCount := 1 }
    crawler := .standard
    numbered := false
    workload := []
    adapters := [gated]
    results := .empty 1 1 }

def planNumbered (number : Nat) : Plan := ⟨⟨1000000000⟩, .zero, number⟩

def updating (number : Nat) : Event := .launch (.manage ⟨.update (planNumbered number), .entering⟩)

def beforeTimeout : List Event :=
  [.launch (.manage ⟨.start, .entering⟩), .step (.turn 0 true), .gate false,
    .offer (.fresh ⟨"http", none, "", none, none⟩ "dsp"), .step (.turn 1 true),
    updating 1, .step (.turn 2 true), .step (.pass 1000000000), updating 2, .step (.turn 3 true),
    .step (.pass (stalling.partition.joinTimeout.nanos - 1000000000))]

def beforeSecondTimeout : List Event :=
  [updating 3, .step (.turn 4 true), .step (.pass 1000000000)]

theorem overlap_latecomer : Overlap stalling beforeTimeout (.step (.turn 2 true))
    beforeSecondTimeout (.step (.turn 3 true)) 2 3 (planNumbered 2) (planNumbered 3) := by
  refine ⟨⟨planNumbered 2, ?_⟩, ⟨stalling.partition.joinTimeout.nanos, ?_⟩,
    ⟨stalling.partition.joinTimeout.nanos + 1000000000, ?_⟩, ?_⟩
  · decide
  · rfl
  · rfl
  · simp [beforeSecondTimeout, updating]

theorem overlapping_disagree : ¬ ∀ (s : Setup) (before : List Event) (e : Event)
    (between : List Event) (f : Event) (a b : TaskId) (x y : Plan),
    Overlap s before e between f a b x y → y = x := by
  intro h
  have he := h _ _ _ _ _ _ _ _ _ overlap_latecomer
  exact absurd he (by decide)

end Latecomer

end CatalogCrawl

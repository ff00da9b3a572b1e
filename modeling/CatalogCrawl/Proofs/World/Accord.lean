import CatalogCrawl.Proofs.World.Event

namespace CatalogCrawl

namespace Plan

theorem merge_eq_left_iff {p q : Plan} : p.merge q = p ↔ q.number ≤ p.number := by
  unfold merge
  split
  · rename_i h
    refine ⟨fun he => ?_, fun hn => absurd h (Nat.not_lt.2 hn)⟩
    exact Nat.le_of_eq (by rw [he])
  · rename_i h
    exact ⟨fun _ => Nat.not_lt.1 h, fun _ => rfl⟩

theorem number_merge (p q : Plan) : (p.merge q).number = max p.number q.number := by
  unfold merge
  split <;> omega

theorem number_le_foldl_merge (p : Plan) (rest : List Plan) :
    p.number ≤ (rest.foldl merge p).number := by
  induction rest generalizing p with
  | nil => exact Nat.le_refl _
  | cons q rest ih =>
    have hm : p.number ≤ (p.merge q).number := by
      rw [number_merge]
      exact Nat.le_max_left _ _
    exact Nat.le_trans hm (ih (p.merge q))

theorem number_le_foldl_merge_of_mem {q : Plan} (p : Plan) {rest : List Plan} (h : q ∈ rest) :
    q.number ≤ (rest.foldl merge p).number := by
  induction rest generalizing p with
  | nil => cases h
  | cons r rest ih =>
    rcases List.mem_cons.1 h with rfl | h
    · have hm : q.number ≤ (p.merge q).number := by
        rw [number_merge]
        exact Nat.le_max_right _ _
      exact Nat.le_trans hm (number_le_foldl_merge _ rest)
    · exact ih (p.merge r) h

theorem foldl_merge_eq_self_iff {p : Plan} {rest : List Plan} :
    rest.foldl merge p = p ↔ ∀ q ∈ rest, q.number ≤ p.number := by
  constructor
  · intro h q hq
    have hn := number_le_foldl_merge_of_mem p hq
    rwa [h] at hn
  · intro h
    induction rest with
    | nil => rfl
    | cons q rest ih =>
      rw [List.foldl_cons, merge_eq_left_iff.2 (h q List.mem_cons_self)]
      exact ih fun r hr => h r (List.mem_cons_of_mem q hr)

theorem collate?_concat {pending : List Plan} {x : Plan} (h : collate? pending = some x)
    (p : Plan) : collate? (pending ++ [p]) = some (x.merge p) := by
  cases pending with
  | nil => cases h
  | cons q rest =>
    cases h
    simp [collate?]

@[simp] theorem merge_self (p : Plan) : p.merge p = p := merge_eq_left_iff.2 (Nat.le_refl _)

theorem merge_assoc (p q r : Plan) : (p.merge q).merge r = p.merge (q.merge r) := by
  grind [merge]

theorem merge_comm_iff {p q : Plan} : p.merge q = q.merge p ↔ (p.number = q.number → p = q) := by
  constructor
  · intro h hn
    have hp : p.merge q = p := merge_eq_left_iff.2 (Nat.le_of_eq hn.symm)
    have hq : q.merge p = q := merge_eq_left_iff.2 (Nat.le_of_eq hn)
    rw [← hp, h, hq]
  · intro h
    rcases Nat.lt_trichotomy p.number q.number with hn | hn | hn
    · rw [merge, if_pos hn, merge_eq_left_iff.2 (Nat.le_of_lt hn)]
    · rw [h hn]
    · rw [merge_eq_left_iff.2 (Nat.le_of_lt hn), merge, if_pos hn]

theorem collate?_eq_none_iff {plans : List Plan} : collate? plans = none ↔ plans = [] := by
  cases plans <;> simp [collate?]

theorem foldl_merge_merge (p q : Plan) (rest : List Plan) :
    rest.foldl merge (p.merge q) = p.merge (rest.foldl merge q) := by
  induction rest generalizing q with
  | nil => rfl
  | cons r rest ih => rw [List.foldl_cons, List.foldl_cons, merge_assoc, ih]

theorem collate?_append (plans others : List Plan) :
    collate? (plans ++ others) = Option.merge merge (collate? plans) (collate? others) := by
  cases plans with
  | nil => cases others <;> rfl
  | cons p rest =>
    cases others with
    | nil => simp [collate?]
    | cons q others =>
      simp only [collate?, List.cons_append, List.foldl_append, List.foldl_cons, Option.merge,
        foldl_merge_merge]

theorem collate?_perm {plans others : List Plan} (hp : plans.Perm others)
    (hd : ∀ p ∈ plans, ∀ q ∈ plans, p.number = q.number → p = q) :
    collate? plans = collate? others := by
  induction hp with
  | nil => rfl
  | @cons p rest others _ ih =>
    have ht := ih fun q hq r hr => hd q (List.mem_cons_of_mem p hq) r (List.mem_cons_of_mem p hr)
    have hc (plans : List Plan) :
        collate? (p :: plans) = Option.merge merge (some p) (collate? plans) :=
      collate?_append [p] plans
    rw [hc rest, hc others, ht]
  | swap p q rest =>
    have hc : q.merge p = p.merge q := merge_comm_iff.2 (hd q (by simp) p (by simp))
    simp only [collate?, List.foldl_cons, hc]
  | trans hr _ ih ih' =>
    exact (ih hd).trans (ih' fun p hp q hq => hd p (hr.mem_iff.2 hp) q (hr.mem_iff.2 hq))

end Plan

inductive PlanStep
  | submit (call : TaskId) (p : Plan)
  | collate (call : TaskId) (own : Plan)
  | forget
  deriving DecidableEq

def PlanStep.submission? : PlanStep → Option (TaskId × Plan)
  | .submit call p => some (call, p)
  | _ => none

structure Accord where
  pending : List Plan
  returned : List (TaskId × Plan)

namespace Accord

def step (a : Accord) : PlanStep → Accord
  | .submit _ p => { a with pending := a.pending ++ [p] }
  | .collate call own =>
    { pending := [Plan.agree a.pending own]
      returned := (call, Plan.agree a.pending own) :: a.returned }
  | .forget => { a with pending := [] }

def run (a : Accord) (steps : List PlanStep) : Accord := steps.foldl step a

@[simp] theorem run_nil (a : Accord) : a.run [] = a := rfl

theorem run_append (a : Accord) (steps later : List PlanStep) :
    a.run (steps ++ later) = (a.run steps).run later :=
  List.foldl_append

def current? (a : Accord) : Option Plan := Plan.collate? a.pending

variable {a : Accord} {x : Plan}

theorem current?_collate (h : a.current? = some x) (call : TaskId) (own : Plan) :
    a.step (.collate call own) = ⟨[x], (call, x) :: a.returned⟩ := by
  have hx : Plan.agree a.pending own = x := by
    rw [Plan.agree, show Plan.collate? a.pending = some x from h, Option.getD_some]
  rw [step, hx]

theorem current?_run (h : a.current? = some x) {steps : List PlanStep}
    (hf : .forget ∉ steps) :
    (a.run steps).current? =
      some (((steps.filterMap PlanStep.submission?).map Prod.snd).foldl Plan.merge x) := by
  induction steps generalizing a x with
  | nil => exact h
  | cons s rest ih =>
    have hr : .forget ∉ rest := fun hm => hf (List.mem_cons_of_mem s hm)
    cases s with
    | submit call p =>
      exact ih (a := a.step (.submit call p)) (Plan.collate?_concat h p) hr
    | collate call own =>
      have hc : (a.step (.collate call own)).current? = some x := by
        rw [current?_collate h]
        rfl
      exact ih hc hr
    | forget => exact absurd List.mem_cons_self hf

end Accord

namespace Task

def plan? : Task → Option Plan
  | .manage ⟨.update p, _⟩ => some p
  | _ => none

def opening (id : TaskId) : Task → List PlanStep
  | .manage ⟨.update p, .entering⟩ => [.submit id p]
  | _ => []

def Closes (t : Task) (id : TaskId) (steps : List PlanStep) : Prop :=
  steps = [] ∨ ∃ p, t.plan? = some p ∧ steps = [.collate id p]

end Task

def EndedJob.plan? (e : EndedJob) : Option (TaskId × Plan) :=
  match e.result with
  | .plan p => some (e.id, p)
  | _ => none

def World.accord (w : World) : Accord := ⟨w.manager.pending, w.ended.filterMap EndedJob.plan?⟩

end CatalogCrawl

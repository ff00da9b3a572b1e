import CatalogCrawl.Cache.Query
import CatalogCrawl.Proofs.Cache.Queries
import Mathlib.Data.List.Nodup
import Mathlib.Data.List.Perm.Basic

namespace CatalogCrawl

variable {store : Store} {convert : Converter} {q : Query}

namespace QueryAdapter

def found (a : QueryAdapter) (store : Store) (convert : Converter) (q : Query) : List Offer :=
  match a.answer store convert q with
  | .ok offers => offers
  | .error _ => []

def complaints (a : QueryAdapter) (store : Store) (convert : Converter) (q : Query) : List String :=
  match a.answer store convert q with
  | .ok _ => []
  | .error fault => [fault.message]

/-- An adapter that does the same with a query, at whatever time and under whatever name. -/
def AnswersLike (store : Store) (convert : Converter) (q : Query) (a b : QueryAdapter) : Prop :=
  a.takes q = b.takes q ∧ a.answer store convert q = b.answer store convert q

theorem length_complaints (a : QueryAdapter) (store : Store) (convert : Converter) (q : Query) :
    (if (a.answer store convert q).isOk then 1 else 0) + (a.complaints store convert q).length =
      1 := by
  unfold complaints
  cases a.answer store convert q <;> rfl

structure Gives (a : QueryAdapter) (store : Store) (convert : Converter) (q : Query)
    (answer : QueryAnswer) : Prop where
  offers : ∀ offers, answer = .ok offers →
    a.found store convert q = offers ∧ a.complaints store convert q = []
  fault : ∀ fault, answer = .error fault →
    a.found store convert q = [] ∧ a.complaints store convert q = [fault.message]
  succeeds : (a.answer store convert q).isOk = answer.isOk

theorem gives_answer (a : QueryAdapter) (store : Store) (convert : Converter) (q : Query) :
    a.Gives store convert q (a.answer store convert q) := by
  refine ⟨fun offers h => ?_, fun fault h => ?_, rfl⟩
  · rw [found, complaints, h]
    exact ⟨rfl, rfl⟩
  · rw [found, complaints, h]
    exact ⟨rfl, rfl⟩

theorem gives_elsewhere {a : QueryAdapter} {answer : Query → QueryAnswer} {delay : Span}
    (h : a.source = .elsewhere answer delay) : a.Gives store convert q (answer q) := by
  have ha : a.answer store convert q = answer q := by rw [QueryAdapter.answer, h]
  exact ha ▸ a.gives_answer store convert q

theorem gives_cache {a : QueryAdapter} (h : a.source = .cache) :
    a.Gives store convert q ((store.query convert q.criteria).mapError .cache) := by
  have ha : a.answer store convert q = (store.query convert q.criteria).mapError .cache := by
    rw [QueryAdapter.answer, h]
  exact ha ▸ a.gives_answer store convert q

end QueryAdapter

namespace FanOut

variable {f : FanOut} {adapters : List QueryAdapter} {order : List (Nat × QueryAnswer)} {i : Nat}
  {answer : QueryAnswer}

theorem eq_of_asked {g : FanOut} (h : f.asked = g.asked) : f = g := congrArg mk h

theorem arrive_getElem? (f : FanOut) (i k : Nat) (answer : QueryAnswer) :
    (f.arrive k answer).asked[i]? =
      f.asked[i]?.map fun (a, b) => (a, if k = i then some answer else b) := by
  rw [arrive, List.getElem?_modify]
  by_cases hk : k = i
  · simp [hk]
  · simp [hk]

theorem receive_cons (f : FanOut) (k : Nat) (answer : QueryAnswer)
    (order : List (Nat × QueryAnswer)) :
    f.receive ((k, answer) :: order) = (f.arrive k answer).receive order := rfl

theorem receive_getElem?_of_not_mem (h : i ∉ order.map Prod.fst) :
    (f.receive order).asked[i]? = f.asked[i]? := by
  induction order generalizing f with
  | nil => rfl
  | cons x rest ih =>
    obtain ⟨k, answer⟩ := x
    rw [List.map_cons, List.mem_cons, not_or] at h
    rw [receive_cons, ih h.2, arrive_getElem?]
    simp [Ne.symm h.1]

theorem receive_getElem?_of_mem (hn : (order.map Prod.fst).Nodup) (hm : (i, answer) ∈ order) :
    (f.receive order).asked[i]? = f.asked[i]?.map fun (a, _) => (a, some answer) := by
  induction order generalizing f with
  | nil => cases hm
  | cons x rest ih =>
    obtain ⟨k, first⟩ := x
    rw [List.map_cons, List.nodup_cons] at hn
    rw [receive_cons]
    rcases List.mem_cons.1 hm with he | hm
    · cases he
      rw [receive_getElem?_of_not_mem hn.1, arrive_getElem?]
      simp
    · have hk : k ≠ i := fun he => hn.1 (List.mem_map.2 ⟨_, hm, he.symm⟩)
      rw [ih hn.2 hm, arrive_getElem?, Option.map_map]
      rfl

theorem perm_arrivals (f : FanOut) (store : Store) (convert : Converter) (q : Query) :
    (f.arrivals store convert q).Perm
      (f.asked.zipIdx.map fun x => (x.2, x.1.1.answer store convert q)) := by
  have hs := List.mergeSort_perm
    (f.asked.zipIdx.map fun x => (x.1.1.delay.nanos, x.2, x.1.1.answer store convert q))
    fun a b => decide (a.1 ≤ b.1)
  refine (hs.map fun x => (x.2.1, x.2.2)).trans (.of_eq ?_)
  rw [List.map_map]
  rfl

theorem positions_of_perm (h : order.Perm (f.arrivals store convert q)) :
    (order.map Prod.fst).Perm (List.range f.asked.length) := by
  refine ((h.trans (f.perm_arrivals store convert q)).map Prod.fst).trans (.of_eq ?_)
  rw [List.map_map, List.range_eq_range', ← List.zipIdx_map_snd 0 f.asked]
  rfl

theorem mem_of_perm (h : order.Perm (f.arrivals store convert q)) {a : QueryAdapter}
    {b : Option QueryAnswer} (ha : f.asked[i]? = some (a, b)) :
    (i, a.answer store convert q) ∈ order := by
  rw [(h.trans (f.perm_arrivals store convert q)).mem_iff, List.mem_map]
  exact ⟨((a, b), i), List.mem_zipIdx_iff_getElem?.2 ha, rfl⟩

theorem receive_of_perm (h : order.Perm (f.arrivals store convert q)) :
    (f.receive order).asked = f.asked.map fun (a, _) => (a, some (a.answer store convert q)) := by
  have hn : (order.map Prod.fst).Nodup := (positions_of_perm h).nodup_iff.2 List.nodup_range
  refine List.ext_getElem? fun i => ?_
  rw [List.getElem?_map]
  cases ha : f.asked[i]? with
  | none =>
    have hl := List.getElem?_eq_none_iff.1 ha
    have hi : i ∉ order.map Prod.fst := by
      rw [(positions_of_perm h).mem_iff, List.mem_range]
      exact Nat.not_lt.2 hl
    rw [receive_getElem?_of_not_mem hi, ha]
    rfl
  | some x =>
    rw [receive_getElem?_of_mem hn (mem_of_perm h ha), ha]
    rfl

theorem asked_start (adapters : List QueryAdapter) (q : Query) :
    (start adapters q).asked.map Prod.fst = adapters.filter (·.takes q) := by
  rw [start, List.map_map]
  exact List.map_id _

end FanOut

namespace Query

variable {adapters others before after : List QueryAdapter} {a b : QueryAdapter}

theorem asked_run (q : Query) (adapters : List QueryAdapter) (store : Store)
    (convert : Converter) : (q.run adapters store convert).asked =
      (adapters.filter (·.takes q)).map fun a => (a, some (a.answer store convert q)) := by
  have hr := FanOut.receive_of_perm (.refl ((FanOut.start adapters q).arrivals store convert q))
  rw [run, hr, FanOut.start, List.map_map]
  rfl

theorem response_run (q : Query) (adapters : List QueryAdapter) (store : Store)
    (convert : Converter) :
    let capable := adapters.filter (·.takes q)
    (q.run adapters store convert).response =
      ⟨if capable.isEmpty then .noAdapterFound else .accepted,
        capable.flatMap fun a => a.found store convert q,
        capable.flatMap fun a => a.complaints store convert q⟩ := by
  intro capable
  have ho : (q.run adapters store convert).offers =
      capable.flatMap fun a => a.found store convert q := by
    rw [FanOut.offers, asked_run, List.flatMap_map]
    refine List.flatMap_congr fun a _ => ?_
    unfold QueryAdapter.found
    cases a.answer store convert q <;> rfl
  have he : (q.run adapters store convert).faults.map (·.2.message) =
      capable.flatMap fun a => a.complaints store convert q := by
    rw [FanOut.faults, asked_run, List.flatMap_map, List.map_flatMap]
    refine List.flatMap_congr fun a _ => ?_
    unfold QueryAdapter.complaints
    cases a.answer store convert q <;> rfl
  rw [FanOut.response, ho, he, asked_run, List.isEmpty_map]
  change (if capable.isEmpty = true then _ else _) = _
  cases capable with
  | nil => rfl
  | cons a rest => rfl

theorem response_append (q : Query) (before after : List QueryAdapter) (store : Store)
    (convert : Converter) :
    (q.run (before ++ after) store convert).response.offers =
      (q.run before store convert).response.offers ++
        (q.run after store convert).response.offers ∧
    (q.run (before ++ after) store convert).response.errors =
      (q.run before store convert).response.errors ++
        (q.run after store convert).response.errors := by
  simp only [response_run, List.filter_append, List.flatMap_append, and_self]

theorem response_cons (h : a.takes q = true) (after : List QueryAdapter) :
    (q.run (a :: after) store convert).response.offers =
      a.found store convert q ++ (q.run after store convert).response.offers ∧
    (q.run (a :: after) store convert).response.errors =
      a.complaints store convert q ++ (q.run after store convert).response.errors := by
  have hf : (a :: after).filter (·.takes q) = a :: after.filter (·.takes q) :=
    List.filter_cons_of_pos h
  simp only [response_run, hf, List.flatMap_cons, and_self]

theorem successes_add_errors (adapters : List QueryAdapter) (store : Store) (convert : Converter)
    (q : Query) :
    (adapters.filter (·.takes q)).countP (fun a => (a.answer store convert q).isOk) +
        (q.run adapters store convert).response.errors.length =
      (adapters.filter (·.takes q)).length := by
  simp only [response_run]
  induction adapters.filter (·.takes q) with
  | nil => rfl
  | cons a rest ih =>
    have ha := a.length_complaints store convert q
    rw [List.countP_cons, List.flatMap_cons, List.length_append, List.length_cons]
    omega

theorem response_congr
    (h : List.Forall₂ (QueryAdapter.AnswersLike store convert q) adapters others) :
    (q.run adapters store convert).response = (q.run others store convert).response := by
  rw [response_run, response_run, QueryResponse.mk.injEq]
  induction h with
  | nil => exact ⟨rfl, rfl, rfl⟩
  | @cons a b rest others hab _ ih =>
    obtain ⟨ht, ha⟩ := hab
    have hfound : a.found store convert q = b.found store convert q := by
      rw [QueryAdapter.found, QueryAdapter.found, ha]
    have hcomplaints : a.complaints store convert q = b.complaints store convert q := by
      rw [QueryAdapter.complaints, QueryAdapter.complaints, ha]
    rw [List.filter_cons, List.filter_cons, ht]
    split
    · simp only [List.isEmpty_cons, List.flatMap_cons, hfound, hcomplaints, ih.2, and_self]
    · exact ih

/-- A query is put to the adapters that take it and to no other, and each of them answers once. In
whatever order and with whatever delays the answers arrive, the response is the same: the offers of
those that succeed and the messages of those that fail, both in the order of registration, one
message for each; and that there is no adapter is said if and only if none takes the query. An
adapter that says something else changes what stands in its own place and nothing before or after
it. What an adapter finds or complains of is what it answers elsewhere, or what the store answers. -/
theorem fans_out (q : Query) (adapters : List QueryAdapter) (store : Store)
    (convert : Converter) :
    let f := FanOut.start adapters q
    let capable := adapters.filter (·.takes q)
    let r := (q.run adapters store convert).response
    f.asked.map Prod.fst = capable ∧
    ((f.arrivals store convert q).map Prod.fst).Perm (List.range capable.length) ∧
    (∀ order, order.Perm (f.arrivals store convert q) → (f.receive order).response = r) ∧
    (∀ others, List.Forall₂ (QueryAdapter.AnswersLike store convert q) adapters others →
      (q.run others store convert).response = r) ∧
    r.offers = (capable.flatMap fun a => a.found store convert q) ∧
    r.errors = (capable.flatMap fun a => a.complaints store convert q) ∧
    capable.countP (fun a => (a.answer store convert q).isOk) + r.errors.length =
      capable.length ∧
    (r.status = .noAdapterFound ↔ capable = []) ∧
    (capable = [] → r.offers = [] ∧ r.errors = []) ∧
    (∀ before a b after, adapters = before ++ a :: after → a.takes q = true → b.takes q = true →
      ∃ offers later errors further,
        r.offers = offers ++ (a.found store convert q ++ later) ∧
        r.errors = errors ++ (a.complaints store convert q ++ further) ∧
        (q.run (before ++ b :: after) store convert).response.offers =
          offers ++ (b.found store convert q ++ later) ∧
        (q.run (before ++ b :: after) store convert).response.errors =
          errors ++ (b.complaints store convert q ++ further)) ∧
    (∀ a ∈ capable, ∀ answer delay, a.source = .elsewhere answer delay →
      a.Gives store convert q (answer q)) ∧
    ∀ a ∈ capable, a.source = .cache →
      a.Gives store convert q ((store.query convert q.criteria).mapError .cache) := by
  intro f capable r
  have hr : r = ⟨if capable.isEmpty then .noAdapterFound else .accepted,
      capable.flatMap fun a => a.found store convert q,
      capable.flatMap fun a => a.complaints store convert q⟩ :=
    q.response_run adapters store convert
  have hasked : f.asked.map Prod.fst = capable := FanOut.asked_start adapters q
  refine ⟨hasked, ?_, fun order ho => ?_, fun others ho => (response_congr ho).symm,
    congrArg QueryResponse.offers hr, congrArg QueryResponse.errors hr,
    q.successes_add_errors adapters store convert, ?_, fun hc => ?_, ?_,
    fun a _ answer delay => QueryAdapter.gives_elsewhere, fun a _ => QueryAdapter.gives_cache⟩
  · rw [← hasked, List.length_map]
    exact FanOut.positions_of_perm (.refl _)
  · have ha : (f.receive order).asked = (q.run adapters store convert).asked :=
      (FanOut.receive_of_perm ho).trans (FanOut.receive_of_perm (.refl _)).symm
    rw [FanOut.eq_of_asked ha]
  · rw [hr]
    cases capable with
    | nil => exact iff_of_true rfl rfl
    | cons a rest => exact iff_of_false nofun nofun
  · rw [hr, hc]
    exact ⟨rfl, rfl⟩
  · rintro before a b after rfl ha hb
    obtain ⟨hoffers, herrors⟩ := q.response_append before (a :: after) store convert
    obtain ⟨hoffers', herrors'⟩ := q.response_append before (b :: after) store convert
    rw [(response_cons ha after).1] at hoffers
    rw [(response_cons ha after).2] at herrors
    rw [(response_cons hb after).1] at hoffers'
    rw [(response_cons hb after).2] at herrors'
    exact ⟨_, _, _, _, hoffers, herrors, hoffers', herrors'⟩

section Example

open Store (painted repainted warm)

def panel : List QueryAdapter :=
  [.constant "slow" none (.ok [painted "o9" "a9" "red"]) (.ofSecs 2),
    .constant "broken" none (.error (.adapterFailed "broken" "offline")) .zero,
    .constant "simple" (some 0) (.ok []) .zero,
    .cache]

theorem fans_out_panel :
    let store := Store.empty.run repainted
    let q : Query := ⟨[warm]⟩
    let r := (q.run panel store Criterion.condition).response
    let f := FanOut.start panel q
    r.status = .accepted ∧ r.offers = [painted "o9" "a9" "red", painted "o3" "a1" "green"] ∧
    r.errors = [(QueryFault.adapterFailed "broken" "offline").message] ∧
    (f.receive [(2, .ok [painted "o3" "a1" "green"]), (0, .ok [painted "o9" "a9" "red"]),
      (1, .error (.adapterFailed "broken" "offline"))]).response = r := by
  intro store q r f
  obtain ⟨-, -, horder, -, hoffers, herrors, -, hstatus, -, -, helsewhere, hcache⟩ :=
    fans_out q panel store Criterion.condition
  have hcapable : panel.filter (·.takes q) = [.constant "slow" none
      (.ok [painted "o9" "a9" "red"]) (.ofSecs 2), .constant "broken" none
      (.error (.adapterFailed "broken" "offline")) .zero, .cache] := rfl
  simp only [hcapable, List.forall_mem_cons, List.flatMap_cons, List.flatMap_nil]
    at hstatus hoffers herrors helsewhere hcache
  obtain ⟨hslow, hbroken, -⟩ := helsewhere
  obtain ⟨hfound, hquiet⟩ := (hslow _ _ rfl).offers _ rfl
  obtain ⟨hnone, hcomplaint⟩ := (hbroken _ _ rfl).fault _ rfl
  obtain ⟨hgreen, hcalm⟩ := (hcache.2.2.1 rfl).offers [painted "o3" "a1" "green"] rfl
  rw [hfound, hnone, hgreen] at hoffers
  rw [hquiet, hcomplaint, hcalm] at herrors
  refine ⟨?_, hoffers, herrors, horder _ ?_⟩
  · cases hs : r.status with
    | accepted => rfl
    | noAdapterFound => cases hstatus.1 hs
  · have hp := f.perm_arrivals store Criterion.condition q
    exact (List.perm_append_comm : ([_] ++ [_, _] : List (Nat × QueryAnswer)).Perm _).trans hp.symm

end Example

end Query

end CatalogCrawl

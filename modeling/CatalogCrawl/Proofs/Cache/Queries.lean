import CatalogCrawl.Proofs.Cache.History

namespace CatalogCrawl

namespace Criterion

def IsSound (c : Criterion) : Prop :=
  c.operator = "=" ∨ c.operator = "in" ∧ ∃ items, c.right = .arr items

def fault (c : Criterion) : CacheFault :=
  if c.operator = "in" then .invalidCriterion c.render "right operand of 'in' must be a list"
  else .unsupportedOperator c.operator

def Meets (c : Criterion) (o : Offer) : Prop :=
  ∃ value, o.field? c.left = some value ∧
    (c.operator = "=" ∧ Json.same value c.right = true ∨
      c.operator = "in" ∧ ∃ items, c.right = .arr items ∧ ∃ x ∈ items, Json.same value x = true)

variable {c : Criterion} {criteria before after : List Criterion}

theorem equals_isSound (field : String) (value : Json) : (equals field value).IsSound := .inl rfl

theorem fieldPasses_iff {o : Offer} {field : String} {passes : Json → Bool} :
    o.fieldPasses field passes = true ↔
      ∃ value, o.field? field = some value ∧ passes value = true := by
  unfold Offer.fieldPasses
  cases o.field? field <;> simp

theorem meets_in_iff {o : Offer} {field : String} {values : List Json} :
    Meets ⟨field, "in", .arr values⟩ o ↔ ∃ v ∈ values, (equals field v).Meets o := by
  constructor
  · rintro ⟨value, hf, ⟨he, -⟩ | ⟨-, items, hi, v, hv, hs⟩⟩
    · exact absurd he (by decide : "in" ≠ "=")
    · cases hi
      exact ⟨v, hv, value, hf, .inl ⟨rfl, hs⟩⟩
  · rintro ⟨v, hv, value, hf, ⟨-, hs⟩ | ⟨he, -⟩⟩
    · exact ⟨value, hf, .inr ⟨rfl, values, rfl, v, hv, hs⟩⟩
    · exact absurd he (by decide : "=" ≠ "in")

theorem condition_of_isSound (h : c.IsSound) :
    ∃ p, condition c = .ok p ∧ ∀ o, p o = true ↔ c.Meets o := by
  obtain ⟨left, operator, right⟩ := c
  rcases h with rfl | ⟨rfl, items, rfl⟩
  · refine ⟨_, rfl, fun o => fieldPasses_iff.trans (exists_congr fun value => ?_)⟩
    simp
  · refine ⟨_, rfl, fun o => fieldPasses_iff.trans (exists_congr fun value => ?_)⟩
    simp

theorem condition_of_not_isSound (h : ¬ c.IsSound) : condition c = .error c.fault := by
  obtain ⟨left, operator, right⟩ := c
  rw [IsSound, not_or] at h
  obtain ⟨hequal, hin⟩ := h
  simp only at hequal hin
  by_cases hi : operator = "in"
  · subst hi
    cases right with
    | arr items => exact absurd ⟨rfl, items, rfl⟩ hin
    | _ => rfl
  · simp [condition, fault, hequal, hi]

theorem conditions_of_isSound (h : ∀ c ∈ criteria, c.IsSound) :
    ∃ ps, conditions condition criteria = .ok ps ∧
      ∀ o, ps.all (· o) = true ↔ ∀ c ∈ criteria, c.Meets o := by
  induction criteria with
  | nil => exact ⟨[], rfl, fun o => by simp⟩
  | cons c rest ih =>
    obtain ⟨p, hp, hpo⟩ := condition_of_isSound (h c List.mem_cons_self)
    obtain ⟨ps, hps, hpso⟩ := ih fun d hd => h d (List.mem_cons_of_mem _ hd)
    refine ⟨p :: ps, ?_, fun o => ?_⟩
    · rw [conditions, hp, hps]
      rfl
    · rw [List.all_cons, Bool.and_eq_true, hpo, hpso, List.forall_mem_cons]

theorem conditions_of_not_isSound (hb : ∀ b ∈ before, b.IsSound) (hc : ¬ c.IsSound) :
    conditions condition (before ++ c :: after) = .error c.fault := by
  induction before with
  | nil =>
    rw [List.nil_append, conditions, condition_of_not_isSound hc]
    rfl
  | cons b rest ih =>
    obtain ⟨p, hp, -⟩ := condition_of_isSound (hb b List.mem_cons_self)
    rw [List.cons_append, conditions, hp, ih fun d hd => hb d (List.mem_cons_of_mem _ hd)]
    rfl

theorem exists_first_not_isSound (h : ¬ ∀ c ∈ criteria, c.IsSound) :
    ∃ before c after, criteria = before ++ c :: after ∧ (∀ b ∈ before, b.IsSound) ∧
      ¬ c.IsSound := by
  induction criteria with
  | nil => exact absurd (fun c hc => (List.not_mem_nil hc).elim) h
  | cons c rest ih =>
    by_cases hc : c.IsSound
    · rw [List.forall_mem_cons] at h
      obtain ⟨before, d, after, rfl, hb, hd⟩ := ih fun hr => h ⟨hc, hr⟩
      exact ⟨c :: before, d, after, rfl, List.forall_mem_cons.2 ⟨hc, hb⟩, hd⟩
    · exact ⟨[], c, rest, rfl, fun b hb => (List.not_mem_nil hb).elim, hc⟩

end Criterion

namespace Store

variable {s : Store} {criteria a b : List Criterion} {found : List Offer}

theorem query_of_isSound (s : Store) (h : ∀ c ∈ criteria, c.IsSound) :
    ∃ p : Offer → Bool, (∀ o, p o = true ↔ ∀ c ∈ criteria, c.Meets o) ∧
      s.query Criterion.condition criteria = .ok (s.offers.filter p) := by
  obtain ⟨ps, hps, hall⟩ := Criterion.conditions_of_isSound h
  refine ⟨fun o => ps.all (· o), hall, ?_⟩
  rw [query, hps]
  rfl

theorem query_of_not_isSound (s : Store) {before after : List Criterion} {c : Criterion}
    (hb : ∀ b ∈ before, b.IsSound) (hc : ¬ c.IsSound) :
    s.query Criterion.condition (before ++ c :: after) = .error c.fault := by
  rw [query, Criterion.conditions_of_not_isSound hb hc]
  rfl

theorem query_eq_error_iff {f : CacheFault} :
    s.query Criterion.condition criteria = .error f ↔
      ∃ before c after, criteria = before ++ c :: after ∧ (∀ b ∈ before, b.IsSound) ∧
        ¬ c.IsSound ∧ f = c.fault := by
  constructor
  · intro hq
    have hn : ¬ ∀ c ∈ criteria, c.IsSound := by
      intro h
      obtain ⟨p, -, hp⟩ := s.query_of_isSound h
      cases hp.symm.trans hq
    obtain ⟨before, c, after, rfl, hb, hc⟩ := Criterion.exists_first_not_isSound hn
    cases (s.query_of_not_isSound hb hc).symm.trans hq
    exact ⟨before, c, after, rfl, hb, hc, rfl⟩
  · rintro ⟨before, c, after, rfl, hb, hc, rfl⟩
    exact s.query_of_not_isSound hb hc

theorem query_succeeds_iff :
    (∃ found, s.query Criterion.condition criteria = .ok found) ↔ ∀ c ∈ criteria, c.IsSound := by
  constructor
  · rintro ⟨found, hq⟩
    by_contra hn
    obtain ⟨before, c, after, rfl, hb, hc⟩ := Criterion.exists_first_not_isSound hn
    cases (s.query_of_not_isSound hb hc).symm.trans hq
  · intro h
    obtain ⟨p, -, hp⟩ := s.query_of_isSound h
    exact ⟨_, hp⟩

theorem mem_of_query (hq : s.query Criterion.condition criteria = .ok found) (o : Offer) :
    o ∈ found ↔ o ∈ s.offers ∧ ∀ c ∈ criteria, c.Meets o := by
  obtain ⟨p, hp, hf⟩ := s.query_of_isSound (query_succeeds_iff.1 ⟨found, hq⟩)
  cases hf.symm.trans hq
  rw [List.mem_filter, hp]

theorem query_congr (hab : ∀ c, c ∈ a ↔ c ∈ b)
    (ha : s.query Criterion.condition a = .ok found) :
    s.query Criterion.condition b = .ok found := by
  have hs := query_succeeds_iff.1 ⟨found, ha⟩
  obtain ⟨p, hp, hfa⟩ := s.query_of_isSound hs
  obtain ⟨q, hq, hfb⟩ := s.query_of_isSound fun c hc => hs c ((hab c).2 hc)
  have hpq : p = q := by
    funext o
    rw [Bool.eq_iff_iff, hp, hq]
    exact forall_congr' fun c => imp_congr_left (hab c)
  rw [hfb, ← hpq, ← hfa, ha]

theorem query_append_succeeds_iff :
    (∃ found, s.query Criterion.condition (a ++ b) = .ok found) ↔
      (∃ found, s.query Criterion.condition a = .ok found) ∧
        ∃ found, s.query Criterion.condition b = .ok found := by
  simp only [query_succeeds_iff, List.forall_mem_append]

theorem mem_of_query_append {x y : List Offer}
    (hq : s.query Criterion.condition (a ++ b) = .ok found)
    (ha : s.query Criterion.condition a = .ok x) (hb : s.query Criterion.condition b = .ok y)
    (o : Offer) : o ∈ found ↔ o ∈ x ∧ o ∈ y := by
  rw [mem_of_query hq, mem_of_query ha, mem_of_query hb, List.forall_mem_append]
  tauto

theorem query_nil (s : Store) : s.query Criterion.condition [] = .ok s.offers := by
  have hs : ∀ c ∈ ([] : List Criterion), c.IsSound := nofun
  obtain ⟨p, hp, hq⟩ := s.query_of_isSound hs
  have hall : ∀ o ∈ s.offers, p o = true := fun o _ => (hp o).2 nofun
  rw [hq, List.filter_eq_self.2 hall]

theorem mem_of_query_in {field : String} {values : List Json}
    (hq : s.query Criterion.condition (a ++ ⟨field, "in", .arr values⟩ :: b) = .ok found) :
    (∀ v, ∃ y, s.query Criterion.condition (a ++ .equals field v :: b) = .ok y) ∧
    ∀ o, o ∈ found ↔ ∃ v ∈ values, ∃ y,
      s.query Criterion.condition (a ++ .equals field v :: b) = .ok y ∧ o ∈ y := by
  have hs := query_succeeds_iff.1 ⟨found, hq⟩
  rw [List.forall_mem_append, List.forall_mem_cons] at hs
  have hone (v : Json) :
      ∃ y, s.query Criterion.condition (a ++ .equals field v :: b) = .ok y := by
    rw [query_succeeds_iff, List.forall_mem_append, List.forall_mem_cons]
    exact ⟨hs.1, Criterion.equals_isSound field v, hs.2.2⟩
  refine ⟨hone, fun o => ?_⟩
  rw [mem_of_query hq, List.forall_mem_append, List.forall_mem_cons, Criterion.meets_in_iff]
  constructor
  · rintro ⟨ho, ha, ⟨v, hv, hm⟩, hb⟩
    obtain ⟨y, hy⟩ := hone v
    refine ⟨v, hv, y, hy, (mem_of_query hy o).2 ⟨ho, ?_⟩⟩
    exact List.forall_mem_append.2 ⟨ha, List.forall_mem_cons.2 ⟨hm, hb⟩⟩
  · rintro ⟨v, hv, y, hy, hm⟩
    obtain ⟨ho, hall⟩ := (mem_of_query hy o).1 hm
    rw [List.forall_mem_append, List.forall_mem_cons] at hall
    exact ⟨ho, hall.1, ⟨v, hv, hall.2.1⟩, hall.2.2⟩

theorem Tidy.offers_nodup (h : s.Tidy) : (s.offers.map Offer.assetId).Nodup := by
  have he : s.offers.map Offer.assetId = s.entries.map Prod.fst := by
    rw [offers, List.map_map]
    exact List.map_congr_left fun f hm => h.filed f.1 f.2 hm
  rw [he]
  exact h.ascending.keys_nodup

theorem Tidy.query_nodup (h : s.Tidy) (hq : s.query Criterion.condition criteria = .ok found) :
    (found.map Offer.assetId).Nodup := by
  obtain ⟨p, -, hf⟩ := s.query_of_isSound (query_succeeds_iff.1 ⟨found, hq⟩)
  cases hf.symm.trans hq
  exact h.offers_nodup.sublist (List.filter_sublist.map _)

def Holds (s : Store) (o : Offer) : Prop := ∃ savedAt, s.find? o.assetId = some ⟨savedAt, o⟩

theorem Tidy.mem_offers_iff (h : s.Tidy) (o : Offer) : o ∈ s.offers ↔ s.Holds o := by
  rw [offers, List.mem_map]
  constructor
  · rintro ⟨⟨k, e⟩, hm, rfl⟩
    refine ⟨e.savedAt, h.ascending.field?_eq_some_iff.2 ?_⟩
    rw [h.filed k e hm]
    exact hm
  · rintro ⟨savedAt, hf⟩
    exact ⟨_, h.ascending.field?_eq_some_iff.1 hf, rfl⟩

/-- Whatever was saved, expired and asked for before: a query fails if and only if a criterion is
not sound, with the fault of the first of these; else it finds, each once, the stored offers that
meet all criteria. So more criteria find what is found by each part of them, neither their order nor
their number counts, without criteria everything is found, and a list of values finds what its
values find one by one. The store stays as it is. -/
theorem query_denotes (steps : List StoreStep) :
    let s := empty.run steps
    let find := s.query Criterion.condition
    (∀ o, s.Holds o ↔ ∃ savedAt, Leaves steps o.assetId ⟨savedAt, o⟩) ∧
    (∀ o, o ∈ s.offers ↔ s.Holds o) ∧
    (∀ criteria f, find criteria = .error f ↔
      ∃ before c after, criteria = before ++ c :: after ∧ (∀ b ∈ before, b.IsSound) ∧
        ¬ c.IsSound ∧ f = c.fault) ∧
    (∀ criteria, (∃ found, find criteria = .ok found) ↔ ∀ c ∈ criteria, c.IsSound) ∧
    (∀ criteria found, find criteria = .ok found → (found.map Offer.assetId).Nodup ∧
      ∀ o, o ∈ found ↔ s.Holds o ∧ ∀ c ∈ criteria, c.Meets o) ∧
    (∀ a b, ((∃ found, find (a ++ b) = .ok found) ↔
        (∃ found, find a = .ok found) ∧ ∃ found, find b = .ok found) ∧
      ∀ found x y, find (a ++ b) = .ok found → find a = .ok x → find b = .ok y →
        ∀ o, o ∈ found ↔ o ∈ x ∧ o ∈ y) ∧
    (∀ a b found, (∀ c, c ∈ a ↔ c ∈ b) → find a = .ok found → find b = .ok found) ∧
    find [] = .ok s.offers ∧
    (∀ a b field values found, find (a ++ ⟨field, "in", .arr values⟩ :: b) = .ok found →
      (∀ v, ∃ y, find (a ++ .equals field v :: b) = .ok y) ∧
      ∀ o, o ∈ found ↔ ∃ v ∈ values, ∃ y, find (a ++ .equals field v :: b) = .ok y ∧ o ∈ y) ∧
    ∀ criteria, empty.run (steps ++ [.query Criterion.condition criteria]) = s := by
  intro s find
  have h : s.Tidy := tidy_run steps
  refine ⟨fun o => exists_congr fun savedAt => find?_run_iff steps _ _, h.mem_offers_iff,
    fun criteria f => query_eq_error_iff, fun criteria => query_succeeds_iff,
    fun criteria found hq => ⟨h.query_nodup hq, fun o => ?_⟩, fun a b => ?_,
    fun a b found => query_congr, s.query_nil, fun a b field values found => mem_of_query_in,
    fun criteria => run_concat empty steps _⟩
  · rw [mem_of_query hq, h.mem_offers_iff]
  · exact ⟨query_append_succeeds_iff, fun found x y => mem_of_query_append⟩

section Example

def painted (offer asset color : String) : Offer :=
  .plain offer ((Asset.named asset).withProperty "color" (.str color))

def repainted : List StoreStep :=
  [.save epoch (painted "o1" "a1" "red"), .save epoch (painted "o2" "a2" "blue"),
    .save epoch (painted "o3" "a1" "green")]

def warm : Criterion := ⟨"color", "in", .arr [.str "red", .str "green"]⟩

theorem query_denotes_repainted :
    let s := empty.run repainted
    s.query Criterion.condition [warm] = .ok [painted "o3" "a1" "green"] ∧
    s.Holds (painted "o3" "a1" "green") ∧ warm.Meets (painted "o3" "a1" "green") ∧
    ¬ s.Holds (painted "o1" "a1" "red") ∧
    s.Holds (painted "o2" "a2" "blue") ∧ ¬ warm.Meets (painted "o2" "a2" "blue") ∧
    s.query Criterion.condition [warm, ⟨"color", "<", .null⟩, ⟨"color", "in", .null⟩] =
      .error (.unsupportedOperator "<") := by
  intro s
  obtain ⟨-, -, hfault, -, hfound, -⟩ := query_denotes repainted
  have hwarm : s.query Criterion.condition [warm] = .ok [painted "o3" "a1" "green"] := rfl
  have hblue : s.Holds (painted "o2" "a2" "blue") := ⟨0, rfl⟩
  have hmem := (hfound [warm] _ hwarm).2
  obtain ⟨hgreen, hmeets⟩ := (hmem (painted "o3" "a1" "green")).1 List.mem_cons_self
  refine ⟨hwarm, hgreen, hmeets warm List.mem_cons_self, ?_, hblue, fun hm => ?_, ?_⟩
  · rintro ⟨savedAt, hf⟩
    have hid : some "o3" = some "o1" :=
      congrArg (Option.map fun e : StoredOffer => e.offer.id) hf
    exact absurd hid (by decide)
  · have hin := (hmem (painted "o2" "a2" "blue")).2 ⟨hblue, List.forall_mem_singleton.2 hm⟩
    have hid : "o2" = "o3" := congrArg Offer.id (List.mem_singleton.1 hin)
    exact absurd hid (by decide)
  · refine (hfault _ _).2 ⟨[warm], ⟨"color", "<", .null⟩, _, rfl, ?_, ?_, rfl⟩
    · exact List.forall_mem_singleton.2 (.inr ⟨rfl, _, rfl⟩)
    · rintro (ho | ⟨ho, -⟩)
      · exact absurd ho (by decide)
      · exact absurd ho (by decide)

end Example

end Store

end CatalogCrawl

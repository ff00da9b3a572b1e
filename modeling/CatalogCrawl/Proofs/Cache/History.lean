import CatalogCrawl.Cache.Store
import CatalogCrawl.Proofs.Json.Fields
import Mathlib.Data.List.Induction

namespace CatalogCrawl

/-- The latest clock reading: the end of the year 262142, in nanoseconds. -/
def Store.maxReading : Int := 8210266876800 * Span.nanosInSec - 1

structure Reading where
  nanos : Int
  lower : Store.minReading ≤ nanos
  upper : nanos ≤ Store.maxReading

def Store.epoch : Reading := ⟨0, by decide, by decide⟩

inductive StoreStep
  | save (time : Reading) (o : Offer)
  | expire (time : Reading) (ttl : Span)
  | query (convert : Converter) (criteria : List Criterion)

structure LastSave (steps : List StoreStep) (assetId : String) (t : Reading) (o : Offer)
    (after : List StoreStep) : Prop where
  split : ∃ before, steps = before ++ .save t o :: after
  filed : o.assetId = assetId
  last : ∀ u p, .save u p ∈ after → p.assetId ≠ assetId

/-- No expiry among the steps has a cutoff that is later than a reading. -/
def Outlasts (t : Reading) (after : List StoreStep) : Prop :=
  ∀ u ttl, .expire u ttl ∈ after → u.nanos - ttl.nanos ≤ t.nanos

/-- What a history leaves under an asset id. -/
def Leaves (steps : List StoreStep) (assetId : String) (e : StoredOffer) : Prop :=
  ∃ t o after, LastSave steps assetId t o after ∧ Outlasts t after ∧ e = ⟨t.nanos, o⟩

section Histories

variable {steps after : List StoreStep} {x : StoreStep} {k : String} {t u : Reading} {o p : Offer}
  {ttl : Span} {e : StoredOffer}

theorem lastSave_concat : LastSave (steps ++ [x]) k t o after ↔
    (after = [] ∧ x = .save t o ∧ o.assetId = k) ∨
    ∃ rest, after = rest ++ [x] ∧ LastSave steps k t o rest ∧
      ∀ u p, x = .save u p → p.assetId ≠ k := by
  constructor
  · rintro ⟨⟨before, hs⟩, hk, hl⟩
    rcases List.eq_nil_or_concat' after with rfl | ⟨rest, y, rfl⟩
    · obtain ⟨-, hx⟩ := List.append_inj' hs rfl
      exact .inl ⟨rfl, List.singleton_inj.1 hx, hk⟩
    · rw [← List.cons_append, ← List.append_assoc] at hs
      obtain ⟨hb, hx⟩ := List.append_inj' hs rfl
      cases List.singleton_inj.1 hx
      refine .inr ⟨rest, rfl, ⟨⟨before, hb⟩, hk, fun u p hm => ?_⟩, ?_⟩
      · exact hl u p (List.mem_append_left _ hm)
      · rintro u p rfl
        exact hl u p (List.mem_append_right _ (List.mem_singleton.2 rfl))
  · rintro (⟨rfl, rfl, hk⟩ | ⟨rest, rfl, ⟨⟨before, rfl⟩, hk, hl⟩, hx⟩)
    · exact ⟨⟨steps, rfl⟩, hk, fun u p hm => by cases hm⟩
    · refine ⟨⟨before, by simp⟩, hk, fun u p hm => ?_⟩
      rcases List.mem_append.1 hm with hm | hm
      · exact hl u p hm
      · exact hx u p (List.mem_singleton.1 hm).symm

theorem outlasts_concat : Outlasts t (after ++ [x]) ↔
    Outlasts t after ∧ ∀ u ttl, x = .expire u ttl → u.nanos - ttl.nanos ≤ t.nanos := by
  constructor
  · refine fun h => ⟨fun u ttl hm => h u ttl (List.mem_append_left _ hm), ?_⟩
    rintro u ttl rfl
    exact h u ttl (List.mem_append_right _ (List.mem_singleton.2 rfl))
  · rintro ⟨h, hx⟩ u ttl hm
    rcases List.mem_append.1 hm with hm | hm
    · exact h u ttl hm
    · exact hx u ttl (List.mem_singleton.1 hm).symm

theorem leaves_nil : ¬ Leaves [] k e := by
  rintro ⟨t, o, after, ⟨⟨before, hs⟩, -, -⟩, -, -⟩
  simp at hs

theorem leaves_concat_of_ne (hx : ∀ u p, x = .save u p → p.assetId ≠ k) :
    Leaves (steps ++ [x]) k e ↔
      Leaves steps k e ∧ ∀ u ttl, x = .expire u ttl → u.nanos - ttl.nanos ≤ e.savedAt := by
  constructor
  · rintro ⟨t, o, after, hs, ho, rfl⟩
    rcases lastSave_concat.1 hs with ⟨-, hs, hk⟩ | ⟨rest, rfl, hs, -⟩
    · exact absurd hk (hx t o hs)
    · obtain ⟨ho, hu⟩ := outlasts_concat.1 ho
      exact ⟨⟨t, o, rest, hs, ho, rfl⟩, hu⟩
  · rintro ⟨⟨t, o, rest, hs, ho, rfl⟩, hu⟩
    exact ⟨t, o, rest ++ [x], lastSave_concat.2 (.inr ⟨rest, rfl, hs, hx⟩),
      outlasts_concat.2 ⟨ho, hu⟩, rfl⟩

theorem leaves_concat_save_self : Leaves (steps ++ [.save u p]) p.assetId e ↔ e = ⟨u.nanos, p⟩ := by
  constructor
  · rintro ⟨t, o, after, hs, -, rfl⟩
    rcases lastSave_concat.1 hs with ⟨-, hs, -⟩ | ⟨rest, -, -, hn⟩
    · cases hs
      rfl
    · exact absurd rfl (hn u p rfl)
  · rintro rfl
    exact ⟨u, p, [], lastSave_concat.2 (.inl ⟨rfl, rfl, rfl⟩), fun v ttl hm => (by cases hm), rfl⟩

theorem leaves_concat_save_of_ne (h : k ≠ p.assetId) :
    Leaves (steps ++ [.save u p]) k e ↔ Leaves steps k e := by
  rw [leaves_concat_of_ne (by rintro v q ⟨⟩; exact h.symm)]
  exact and_iff_left (by rintro v ttl ⟨⟩)

theorem leaves_concat_expire : Leaves (steps ++ [.expire u ttl]) k e ↔
    Leaves steps k e ∧ u.nanos - ttl.nanos ≤ e.savedAt := by
  rw [leaves_concat_of_ne (by rintro v q ⟨⟩)]
  exact and_congr_right fun _ => ⟨fun h => h u ttl rfl, by rintro h v l ⟨⟩; exact h⟩

theorem leaves_concat_query {convert : Converter} {criteria : List Criterion} :
    Leaves (steps ++ [.query convert criteria]) k e ↔ Leaves steps k e := by
  rw [leaves_concat_of_ne (by rintro v q ⟨⟩)]
  exact and_iff_left (by rintro v ttl ⟨⟩)

end Histories

namespace Store

def step (s : Store) : StoreStep → Store
  | .save t o => s.save t.nanos o
  | .expire t ttl => s.expire t.nanos ttl
  | .query _ _ => s

def run (s : Store) (steps : List StoreStep) : Store := steps.foldl step s

theorem run_concat (s : Store) (steps : List StoreStep) (x : StoreStep) :
    s.run (steps ++ [x]) = (s.run steps).step x :=
  List.foldl_append

theorem cutoff_eq_of_some {now cutoff : Int} {ttl : Span} (h : cutoff? now ttl = some cutoff) :
    cutoff = now - ttl.nanos := by
  unfold cutoff? at h
  split at h
  · cases h
  · simp only [Option.ite_none_left_eq_some, Option.some.injEq] at h
    exact h.2.symm

theorem cutoff_lt_of_none {t : Reading} {ttl : Span} (h : cutoff? t.nanos ttl = none) :
    t.nanos - ttl.nanos < minReading := by
  unfold cutoff? at h
  split at h
  · -- So long ago is before the earliest reading, even as seen from the latest.
    rename_i ha
    have hu : t.nanos ≤ maxReading := t.upper
    simp only [maxReading, minReading, maxAge, Number.half64, Span.nanosInMilli,
      Span.nanosInSec] at ha hu ⊢
    omega
  · simpa using h

def Dated (s : Store) : Prop := ∀ k e, (k, e) ∈ s.entries → minReading ≤ e.savedAt

structure Tidy (s : Store) : Prop where
  ascending : Json.Ascending s.entries
  filed : ∀ k e, (k, e) ∈ s.entries → e.offer.assetId = k
  savedAt : ∀ k e, (k, e) ∈ s.entries → minReading ≤ e.savedAt

variable {s : Store} {k : String} {e : StoredOffer}

theorem tidy_empty : empty.Tidy :=
  ⟨List.Pairwise.nil, fun k e hm => (by cases hm), fun k e hm => (by cases hm)⟩

theorem Tidy.save (h : s.Tidy) (t : Reading) (o : Offer) : (s.save t.nanos o).Tidy := by
  refine ⟨h.ascending.setField _ _, fun k e hm => ?_, fun k e hm => ?_⟩
  · rcases Json.mem_setField hm with he | hm
    · cases he
      rfl
    · exact h.filed k e hm
  · rcases Json.mem_setField hm with he | hm
    · cases he
      exact t.lower
    · exact h.savedAt k e hm

theorem Dated.expire_eq (h : s.Dated) (t : Reading) (ttl : Span) : s.expire t.nanos ttl =
    ⟨s.entries.filter fun f => decide (t.nanos - ttl.nanos ≤ f.2.savedAt)⟩ := by
  have early (hc : t.nanos - ttl.nanos < minReading) :
      s = ⟨s.entries.filter fun f => decide (t.nanos - ttl.nanos ≤ f.2.savedAt)⟩ := by
    have hf : s.entries.filter (fun f => decide (t.nanos - ttl.nanos ≤ f.2.savedAt)) =
        s.entries := by
      rw [List.filter_eq_self]
      rintro ⟨k, e⟩ hm
      have hs : minReading ≤ e.savedAt := h k e hm
      exact decide_eq_true (hc.le.trans hs)
    rw [hf]
  unfold expire
  rcases hc : cutoff? t.nanos ttl with _ | cutoff
  · exact early (cutoff_lt_of_none hc)
  · rw [cutoff_eq_of_some hc]

theorem Dated.expiredCount_eq (h : s.Dated) (t : Reading) (ttl : Span) :
    s.expiredCount t.nanos ttl =
      s.entries.countP fun f => decide (f.2.savedAt < t.nanos - ttl.nanos) := by
  have hc := s.entries.length_eq_countP_add_countP
    fun f => decide (t.nanos - ttl.nanos ≤ f.2.savedAt)
  rw [expiredCount, h.expire_eq]
  simp only [size, ← List.countP_eq_length_filter, hc, Nat.add_sub_cancel_left]
  exact List.countP_congr fun f hf => by simp only [decide_eq_true_eq, Int.not_le]

theorem Dated.size_expire (h : s.Dated) (t : Reading) (ttl : Span) :
    (s.expire t.nanos ttl).size + s.expiredCount t.nanos ttl = s.size := by
  have hl : (s.expire t.nanos ttl).size ≤ s.size := by
    rw [h.expire_eq]
    exact List.length_filter_le _ _
  rw [expiredCount]
  omega

theorem Tidy.dated (h : s.Tidy) : s.Dated := h.savedAt

theorem Tidy.expire (h : s.Tidy) (t : Reading) (ttl : Span) : (s.expire t.nanos ttl).Tidy := by
  rw [h.dated.expire_eq]
  exact ⟨h.ascending.filter _, fun k e hm => h.filed k e (List.mem_of_mem_filter hm),
    fun k e hm => h.savedAt k e (List.mem_of_mem_filter hm)⟩

theorem Tidy.step (h : s.Tidy) (x : StoreStep) : (s.step x).Tidy := by
  cases x with
  | save t o => exact h.save t o
  | expire t ttl => exact h.expire t ttl
  | query convert criteria => exact h

theorem tidy_run (steps : List StoreStep) : (empty.run steps).Tidy := by
  induction steps using List.reverseRecOn with
  | nil => exact tidy_empty
  | append_singleton steps x ih =>
    rw [run_concat]
    exact ih.step x

theorem find?_save_of_ne {t : Int} {o : Offer} (h : k ≠ o.assetId) :
    (s.save t o).find? k = s.find? k :=
  Json.field?_setField_of_ne h _ _

theorem Tidy.find?_expire (h : s.Tidy) {t : Reading} {ttl : Span} :
    (s.expire t.nanos ttl).find? k = some e ↔
      s.find? k = some e ∧ t.nanos - ttl.nanos ≤ e.savedAt := by
  rw [h.dated.expire_eq, find?, h.ascending.field?_filter, decide_eq_true_eq, find?]

theorem Tidy.query_assetId (h : s.Tidy) (k : String) :
    s.query Criterion.condition [.equals "asset:id" (.str k)] =
      .ok ((s.find? k).map StoredOffer.offer).toList := by
  have hf : s.offers.filter (fun o => o.assetId == k) =
      (s.entries.filter fun f => f.1 == k).map fun f => f.2.offer := by
    rw [offers, List.filter_map]
    refine congrArg (List.map _) (List.filter_congr fun f hm => ?_)
    rw [Function.comp_apply, h.filed f.1 f.2 hm]
  have hq : s.query Criterion.condition [.equals "asset:id" (.str k)] =
      .ok (s.offers.filter fun o => o.assetId == k && true) := rfl
  rw [hq]
  simp only [Bool.and_true]
  rw [hf, h.ascending.filter_key, find?]
  cases Json.field? k s.entries <;> rfl

theorem find?_run_iff (steps : List StoreStep) (k : String) (e : StoredOffer) :
    (empty.run steps).find? k = some e ↔ Leaves steps k e := by
  -- The last step settles it: the store and the history change in the same way.
  induction steps using List.reverseRecOn with
  | nil => exact iff_of_false (fun h => by cases h) leaves_nil
  | append_singleton steps x ih =>
    rw [run_concat]
    cases x with
    | save t o =>
      by_cases hk : k = o.assetId
      · rw [hk, leaves_concat_save_self, step, find?_save, Option.some.injEq, eq_comm]
      · rw [leaves_concat_save_of_ne hk, step, find?_save_of_ne hk, ih]
    | expire t ttl => rw [leaves_concat_expire, step, (tidy_run steps).find?_expire, ih]
    | query convert criteria => rw [leaves_concat_query, step, ih]

/-- After any saves, expiries and queries at any clock readings, an offer is there if and only if it
was the last one saved for its asset and no expiry since had a cutoff later than that; each asset
has one entry, under its own id, which is all that a query for the id finds; and an expiry counts
what it removes, all that is older than its cutoff. -/
theorem refines_history (steps : List StoreStep) :
    let s := empty.run steps
    (∀ k e, s.find? k = some e ↔ Leaves steps k e) ∧
    (s.entries.map Prod.fst).Nodup ∧
    (∀ k e, (k, e) ∈ s.entries → e.offer.assetId = k) ∧
    (∀ k, s.query Criterion.condition [.equals "asset:id" (.str k)] =
      .ok ((s.find? k).map StoredOffer.offer).toList) ∧
    ∀ (t : Reading) (ttl : Span),
      (s.expire t.nanos ttl).size + s.expiredCount t.nanos ttl = s.size ∧
      s.expiredCount t.nanos ttl =
        s.entries.countP fun f => decide (f.2.savedAt < t.nanos - ttl.nanos) := by
  intro s
  have h := tidy_run steps
  exact ⟨find?_run_iff steps, h.ascending.keys_nodup, h.filed, h.query_assetId,
    fun t ttl => ⟨h.dated.size_expire t ttl, h.dated.expiredCount_eq t ttl⟩⟩

end Store

end CatalogCrawl

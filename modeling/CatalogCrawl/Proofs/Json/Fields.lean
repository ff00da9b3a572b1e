import CatalogCrawl.Json.Basic
import Mathlib.Data.String.Basic

namespace CatalogCrawl.Json

variable {α : Type} {fields : List (String × α)} {key : String} {value : α}

def Ascending (fields : List (String × α)) : Prop := fields.Pairwise fun a b => a.1 < b.1

theorem Ascending.keys_nodup (h : Ascending fields) : (fields.map Prod.fst).Nodup := by
  rw [List.Nodup, List.pairwise_map]
  exact h.imp ne_of_lt

theorem Ascending.filter (h : Ascending fields) (p : String × α → Bool) :
    Ascending (fields.filter p) :=
  h.sublist List.filter_sublist

theorem mem_setField {f : String × α} (h : f ∈ setField key value fields) :
    f = (key, value) ∨ f ∈ fields := by
  induction fields with
  | nil => exact .inl (List.mem_singleton.1 h)
  | cons g rest ih =>
    obtain ⟨k, v⟩ := g
    unfold setField at h
    split at h
    · exact List.mem_cons.1 h
    split at h
    · exact (List.mem_cons.1 h).imp_right (List.mem_cons_of_mem _)
    · rcases List.mem_cons.1 h with rfl | h
      · exact .inr List.mem_cons_self
      · exact (ih h).imp_right (List.mem_cons_of_mem _)

theorem Ascending.setField (h : Ascending fields) (key : String) (value : α) :
    Ascending (setField key value fields) := by
  induction fields with
  | nil => exact List.pairwise_singleton _ _
  | cons g rest ih =>
    obtain ⟨k, v⟩ := g
    have hr : Ascending rest := h.of_cons
    have hk : ∀ f ∈ rest, k < f.1 := fun f hf => List.rel_of_pairwise_cons h hf
    unfold Json.setField
    split
    · rename_i hlt
      refine h.cons fun f hf => ?_
      rcases List.mem_cons.1 hf with rfl | hf
      · exact hlt
      · exact hlt.trans (hk f hf)
    split
    · rename_i he
      exact hr.cons fun f hf => he ▸ hk f hf
    · rename_i hlt hne
      refine (ih hr).cons fun f hf => ?_
      rcases mem_setField hf with rfl | hf
      · exact lt_of_le_of_ne (not_lt.1 hlt) (Ne.symm hne)
      · exact hk f hf

theorem setField_setField (key : String) (v w : α) (fields : List (String × α)) :
    Json.setField key v (Json.setField key w fields) = Json.setField key v fields := by
  induction fields with
  | nil => simp [Json.setField]
  | cons f rest ih =>
    obtain ⟨k, x⟩ := f
    by_cases hlt : key < k
    · simp [Json.setField, hlt]
    · by_cases he : key = k
      · simp [Json.setField, he]
      · simp [Json.setField, hlt, he, ih]

theorem field?_setField_of_ne {k : String} (h : k ≠ key) (value : α)
    (fields : List (String × α)) : field? k (setField key value fields) = field? k fields := by
  induction fields with
  | nil => simp [setField, field?, h.symm]
  | cons g rest ih =>
    obtain ⟨l, v⟩ := g
    unfold setField
    split
    · simp [field?, h.symm]
    split
    · rename_i he
      simp [field?, ← he, h.symm]
    · simp [field?, ih]

theorem mem_of_field? (h : field? key fields = some value) : (key, value) ∈ fields := by
  induction fields with
  | nil => cases h
  | cons g rest ih =>
    obtain ⟨k, v⟩ := g
    unfold field? at h
    split at h
    · rename_i he
      cases h
      rw [he]
      exact List.mem_cons_self
    · exact List.mem_cons_of_mem _ (ih h)

theorem field?_eq_none (h : key ∉ fields.map Prod.fst) : field? key fields = none := by
  cases hf : field? key fields with
  | none => rfl
  | some value => exact absurd (List.mem_map_of_mem (mem_of_field? hf)) h

theorem Ascending.field?_eq_some_iff (h : Ascending fields) :
    field? key fields = some value ↔ (key, value) ∈ fields := by
  refine ⟨mem_of_field?, fun hm => ?_⟩
  induction fields with
  | nil => cases hm
  | cons g rest ih =>
    obtain ⟨k, v⟩ := g
    rcases List.mem_cons.1 hm with he | hm
    · cases he
      simp [field?]
    · have hlt : k < key := List.rel_of_pairwise_cons h hm
      simp only [field?, hlt.ne, if_false]
      exact ih h.of_cons hm

theorem Ascending.field?_filter (h : Ascending fields) (p : String × α → Bool) :
    field? key (fields.filter p) = some value ↔
      field? key fields = some value ∧ p (key, value) = true := by
  rw [(h.filter p).field?_eq_some_iff, h.field?_eq_some_iff, List.mem_filter]

theorem Ascending.filter_key (h : Ascending fields) (key : String) :
    fields.filter (fun f => f.1 == key) = ((field? key fields).map fun v => (key, v)).toList := by
  induction fields with
  | nil => rfl
  | cons g rest ih =>
    obtain ⟨k, v⟩ := g
    by_cases he : k = key
    · subst he
      have hn : rest.filter (fun f => f.1 == k) = [] := by
        rw [List.filter_eq_nil_iff]
        intro f hf
        have hlt : k < f.1 := List.rel_of_pairwise_cons h hf
        simpa using hlt.ne'
      simp [field?, hn]
    · simp [field?, he, ih h.of_cons]

theorem exists_field? (h : key ∈ fields.map Prod.fst) :
    ∃ value, field? key fields = some value := by
  induction fields with
  | nil => cases h
  | cons f rest ih =>
    obtain ⟨k, v⟩ := f
    rw [List.map_cons, List.mem_cons] at h
    by_cases hk : k = key
    · exact ⟨v, if_pos hk⟩
    · obtain ⟨value, hvalue⟩ := ih (h.resolve_left (Ne.symm hk))
      exact ⟨value, (if_neg hk).trans hvalue⟩

theorem setField_perm (h : key ∉ fields.map Prod.fst) (value : α) :
    (setField key value fields).Perm ((key, value) :: fields) := by
  induction fields with
  | nil => exact List.Perm.refl _
  | cons f rest ih =>
    obtain ⟨k, v⟩ := f
    rw [List.map_cons, List.mem_cons, not_or] at h
    rw [setField]
    split
    · exact List.Perm.refl _
    · rw [if_neg h.1]
      exact ((ih h.2).cons _).trans (List.Perm.swap _ _ _)

theorem foldl_setField {sorted : List (String × α)} (hs : Ascending sorted)
    (h : ((sorted ++ fields).map Prod.fst).Nodup) :
    (fields.foldl (fun sorted (k, v) => setField k v sorted) sorted).Perm (sorted ++ fields) ∧
      Ascending (fields.foldl (fun sorted (k, v) => setField k v sorted) sorted) := by
  induction fields generalizing sorted with
  | nil => simp [hs]
  | cons f rest ih =>
    obtain ⟨k, v⟩ := f
    have hswap : (sorted ++ (k, v) :: rest).Perm ((k, v) :: sorted ++ rest) := List.perm_middle
    have hk : k ∉ sorted.map Prod.fst := fun hm =>
      List.nodup_cons.1 ((hswap.map Prod.fst).nodup_iff.1 h) |>.1
        (List.map_append ▸ List.mem_append_left _ hm)
    have hstep : (setField k v sorted ++ rest).Perm (sorted ++ (k, v) :: rest) :=
      ((setField_perm hk v).append_right rest).trans hswap.symm
    have hrest := ih (hs.setField k v) ((hstep.map Prod.fst).nodup_iff.2 h)
    exact ⟨hrest.1.trans hstep, hrest.2⟩

theorem sortFields_of_perm {xs : List (String × α)} (hx : Ascending xs) (h : xs.Perm fields) :
    sortFields fields = xs := by
  have hdistinct : (fields.map Prod.fst).Nodup := (h.map Prod.fst).nodup_iff.1 hx.keys_nodup
  have hstart : Ascending ([] : List (String × α)) := List.Pairwise.nil
  obtain ⟨hperm, hsorted⟩ := foldl_setField hstart hdistinct
  refine (hperm.trans h.symm).eq_of_pairwise (fun a b _ _ hab hba => ?_) hsorted hx
  exact absurd (hab.trans hba) (lt_irrefl _)

end CatalogCrawl.Json

import CatalogCrawl.Datum
import CatalogCrawl.Proofs.Json.Fields
import Mathlib.Data.List.Nodup

namespace CatalogCrawl

namespace Json

mutual

inductive Shuffled : Json → Json → Prop
  | null : Shuffled .null .null
  | bool (b : Bool) : Shuffled (.bool b) (.bool b)
  | int (n : Int) : Shuffled (.int n) (.int n)
  | num (x : Float) : Shuffled (.num x) (.num x)
  | str (s : String) : Shuffled (.str s) (.str s)
  | arr {xs ys : List Json} (h : ShuffledItems xs ys) : Shuffled (.arr xs) (.arr ys)
  | obj {xs ys zs : List (String × Json)} (h : ShuffledFields xs ys) (hp : ys.Perm zs) :
      Shuffled (.obj xs) (.obj zs)

inductive ShuffledItems : List Json → List Json → Prop
  | nil : ShuffledItems [] []
  | cons {x y : Json} {xs ys : List Json} (h : Shuffled x y) (hs : ShuffledItems xs ys) :
      ShuffledItems (x :: xs) (y :: ys)

inductive ShuffledFields : List (String × Json) → List (String × Json) → Prop
  | nil : ShuffledFields [] []
  | cons {x y : Json} {xs ys : List (String × Json)} (k : String) (h : Shuffled x y)
      (hs : ShuffledFields xs ys) : ShuffledFields ((k, x) :: xs) ((k, y) :: ys)

end

mutual

theorem Shuffled.refl : ∀ x : Json, Shuffled x x
  | .null => .null
  | .bool b => .bool b
  | .int n => .int n
  | .num x => .num x
  | .str s => .str s
  | .arr items => .arr (ShuffledItems.refl items)
  | .obj fields => .obj (ShuffledFields.refl fields) (List.Perm.refl _)

theorem ShuffledItems.refl : ∀ xs : List Json, ShuffledItems xs xs
  | [] => .nil
  | x :: xs => .cons (Shuffled.refl x) (ShuffledItems.refl xs)

theorem ShuffledFields.refl : ∀ xs : List (String × Json), ShuffledFields xs xs
  | [] => .nil
  | (k, x) :: xs => .cons k (Shuffled.refl x) (ShuffledFields.refl xs)

end

end Json

namespace Datum

open Json

theorem entries?_of_perm {ys zs : List (String × Json)} {xs : List (String × Json)}
    (hp : ys.Perm zs) (h : entries? (ofFields ys) = some xs) :
    ∃ xs', entries? (ofFields zs) = some xs' ∧ xs.Perm xs' := by
  induction hp generalizing xs with
  | nil => exact ⟨xs, h, List.Perm.refl _⟩
  | cons f _ ih =>
    obtain ⟨k, y⟩ := f
    simp only [ofFields, entries?, Option.bind_eq_bind, Option.bind_some,
      Option.bind_eq_some_iff, Option.some.injEq] at h ⊢
    obtain ⟨x, hx, xs, hxs, rfl⟩ := h
    obtain ⟨xs', hxs', hperm⟩ := ih hxs
    exact ⟨_, ⟨x, hx, xs', hxs', rfl⟩, hperm.cons _⟩
  | swap f g rest =>
    obtain ⟨k, y⟩ := f
    obtain ⟨l, z⟩ := g
    simp only [ofFields, entries?, Option.bind_eq_bind, Option.bind_some,
      Option.bind_eq_some_iff, Option.some.injEq] at h ⊢
    obtain ⟨w, hw, _, ⟨x, hx, xs, hxs, rfl⟩, rfl⟩ := h
    exact ⟨_, ⟨x, hx, _, ⟨w, hw, xs, hxs, rfl⟩, rfl⟩, List.Perm.swap _ _ _⟩
  | trans _ _ ihl ihr =>
    obtain ⟨xs', hxs', hl⟩ := ihl h
    obtain ⟨xs'', hxs'', hr⟩ := ihr hxs'
    exact ⟨xs'', hxs'', hl.trans hr⟩

theorem sorted_entries? {xs ys zs : List (String × Json)} (hx : (obj xs).Normal)
    (hp : ys.Perm zs) (h : entries? (ofFields ys) = some xs) :
    (entries? (ofFields zs)).map sortFields = some xs := by
  have hk : (keys xs).Pairwise (· < ·) := hx.1
  obtain ⟨xs', hxs', hperm⟩ := entries?_of_perm hp h
  rw [hxs', Option.map_some, sortFields_of_perm (List.pairwise_map.1 hk) hperm]

mutual

theorem value?_of_shuffled : ∀ {x y : Json}, x.Normal → Shuffled x y → (ofJson y).value? = some x
  | .null, _, _, .null | .bool _, _, _, .bool _ | .int _, _, _, .int _ => rfl
  | .num _, _, _, .num _ | .str _, _, _, .str _ => rfl
  | .arr _, .arr _, hx, .arr h => by
    rw [ofJson, value?, values?_of_shuffled hx h]
    rfl
  | .obj xs, .obj _, hx, .obj h hp => by
    have hread := congrArg (Option.map obj) (sorted_entries? hx hp (entries?_of_shuffled hx.2 h))
    rwa [Option.map_map] at hread

theorem values?_of_shuffled : ∀ {xs ys : List Json}, NormalItems xs → ShuffledItems xs ys →
    values? (ofItems ys) = some xs
  | [], _, _, .nil => rfl
  | _ :: _, _, hx, .cons h hs => by
    rw [ofItems, values?, value?_of_shuffled hx.1 h, values?_of_shuffled hx.2 hs]
    rfl

theorem entries?_of_shuffled : ∀ {xs ys : List (String × Json)}, NormalFields xs →
    ShuffledFields xs ys → entries? (ofFields ys) = some xs
  | [], _, _, .nil => rfl
  | _ :: _, _, hx, .cons _ h hs => by
    rw [ofFields, entries?, value?_of_shuffled hx.1 h, entries?_of_shuffled hx.2 hs]
    rfl

end

theorem free?_of_shuffled {fields : List (String × Json)} {y : Json} (hx : (obj fields).Normal)
    (h : Shuffled (.obj fields) y) : (ofJson y).free? = some fields := by
  cases h with
  | obj h hp => exact sorted_entries? hx hp (entries?_of_shuffled hx.2 h)

theorem ofItems_eq (items : List Json) : ofItems items = items.map ofJson := by
  induction items with
  | nil => rfl
  | cons x items ih => rw [ofItems, ih, List.map_cons]

end Datum

/-- Which values may stand for a value. -/
abbrev Variation := Json → Json → Prop

structure KnownField where
  name : String
  varies : Variation
  fallback : Option Json

namespace KnownField

variable {f : KnownField}

inductive Stands (f : KnownField) (xs ys : List (String × Json)) : Prop
  | there (x y : Json) (hx : Json.field? f.name xs = some x) (hy : Json.field? f.name ys = some y)
    (h : f.varies x y)
  | leftOut (x : Json) (hx : Json.field? f.name xs = some x) (hf : f.fallback = some x)
    (hy : f.name ∉ ys.map Prod.fst)

end KnownField

namespace Variation

def same : Variation := fun x y => y = x

def shuffled : Variation := Json.Shuffled

@[simp] theorem same_refl (x : Json) : same x x := rfl

@[simp] theorem shuffled_refl (x : Json) : shuffled x x := Json.Shuffled.refl x

def items (v : Variation) : Variation
  | .arr xs, .arr ys => List.Forall₂ v xs ys
  | _, _ => False

def record (known : List KnownField) : Variation
  | .obj xs, .obj ys => ∀ f ∈ known, (ys.map Prod.fst).count f.name ≤ 1 ∧ f.Stands xs ys
  | _, _ => False

theorem record_of_perm {known : List KnownField} {xs ys added omitted : List (String × Json)}
    (hx : (xs.map Prod.fst).Nodup)
    (hknown : ∀ f ∈ known, ∃ x, Json.field? f.name xs = some x ∧ f.varies x x)
    (hadded : ∀ f ∈ known, f.name ∉ added.map Prod.fst)
    (homitted : ∀ f ∈ known, ∀ x, (f.name, x) ∈ omitted → f.fallback = some x)
    (h : (ys ++ omitted).Perm (xs ++ added)) : record known (.obj xs) (.obj ys) := by
  intro f hf
  obtain ⟨x, hfield, hv⟩ := hknown f hf
  have hcount : (ys.map Prod.fst).count f.name + (omitted.map Prod.fst).count f.name =
      (xs.map Prod.fst).count f.name := by
    have hperm := (h.map Prod.fst).count_eq f.name
    rwa [List.map_append, List.count_append, List.map_append, List.count_append,
      List.count_eq_zero.2 (hadded f hf), Nat.add_zero] at hperm
  have hone := List.nodup_iff_count.1 hx f.name
  refine ⟨by omega, ?_⟩
  by_cases hy : f.name ∈ ys.map Prod.fst
  · obtain ⟨y, hy⟩ := Json.exists_field? hy
    have hm : (f.name, y) ∈ xs ++ added :=
      h.mem_iff.1 (List.mem_append_left _ (Json.mem_of_field? hy))
    have hyx : (f.name, y) = (f.name, x) :=
      List.inj_on_of_nodup_map hx ((List.mem_append.1 hm).resolve_right fun ha =>
        hadded f hf (List.mem_map_of_mem ha)) (Json.mem_of_field? hfield) rfl
    cases hyx
    exact .there x x hfield hy hv
  · have hm : (f.name, x) ∈ ys ++ omitted :=
      h.mem_iff.2 (List.mem_append_left _ (Json.mem_of_field? hfield))
    rcases List.mem_append.1 hm with hm | hm
    · exact absurd (List.mem_map_of_mem hm) hy
    · exact .leftOut x hfield (homitted f hf x hm) hy

theorem record_refl {known : List KnownField} {xs : List (String × Json)}
    (hx : (xs.map Prod.fst).Nodup)
    (hknown : ∀ f ∈ known, ∃ x, Json.field? f.name xs = some x ∧ f.varies x x) :
    record known (.obj xs) (.obj xs) := by
  have hperm : (xs ++ []).Perm (xs ++ []) := List.Perm.refl _
  exact record_of_perm hx hknown (by simp) (by simp) hperm

theorem items_refl {α : Type} {v : Variation} {write : α → Json} {as : List α}
    (h : ∀ a ∈ as, v (write a) (write a)) :
    v.items (.arr (as.map write)) (.arr (as.map write)) := by
  induction as with
  | nil => exact .nil
  | cons a as ih =>
    rw [List.forall_mem_cons] at h
    exact .cons h.1 (ih h.2)

end Variation

namespace Datum

variable {names : List String} {xs ys : List (String × Json)}

theorem knownFields_ofFields (h : ∀ name ∈ names, (ys.map Prod.fst).count name ≤ 1) : ∃ known,
    knownFields names (ofFields ys) = some known ∧ ∀ key, Json.field? key known =
      if key ∈ names then (Json.field? key ys).map ofJson else none := by
  induction ys with
  | nil => exact ⟨[], rfl, fun key => by simp [Json.field?]⟩
  | cons f ys ih =>
    obtain ⟨k, y⟩ := f
    simp only [List.map_cons] at h
    obtain ⟨known, hknown, hfield⟩ := ih fun name hm =>
      Nat.le_trans List.count_le_count_cons (h name hm)
    by_cases hk : k ∈ names
    · have hone := h k hk
      have hnone : k ∉ ys.map Prod.fst := by
        rw [List.count_cons_self] at hone
        exact List.count_eq_zero.1 (by omega)
      refine ⟨(k, ofJson y) :: known, ?_, fun key => ?_⟩
      · simp [ofFields, knownFields, hknown, hfield, hk, Json.field?_eq_none hnone]
      · simp only [Json.field?, hfield]
        by_cases he : k = key
        · subst he
          simp [hk]
        · simp [he]
    · refine ⟨known, ?_, fun key => ?_⟩
      · simp [ofFields, knownFields, hknown, hk]
      · rw [hfield, Json.field?]
        by_cases he : k = key
        · subst he
          simp [hk]
        · simp [he]

inductive Finds (f : KnownField) (xs : List (String × Json)) (known : Fields) : Prop
  | there (x y : Json) (hx : Json.field? f.name xs = some x)
    (hy : Json.field? f.name known = some (ofJson y)) (h : f.varies x y)
  | leftOut (x : Json) (hx : Json.field? f.name xs = some x) (hf : f.fallback = some x)
    (hy : Json.field? f.name known = none)

theorem record?_of_varies {fields : List KnownField} {j : Json}
    (h : Variation.record fields (.obj xs) j) (rules : Rules) : ∃ known,
    (ofJson j).record? rules (fields.map KnownField.name) = some known ∧
      ∀ f ∈ fields, Finds f xs known := by
  cases j with
  | obj ys =>
    have hcount : ∀ name ∈ fields.map KnownField.name, (ys.map Prod.fst).count name ≤ 1 :=
      List.forall_mem_map.2 fun f hf => (h f hf).1
    obtain ⟨known, hknown, hfield⟩ := knownFields_ofFields hcount
    refine ⟨known, hknown, fun f hf => ?_⟩
    have hname : f.name ∈ fields.map KnownField.name := List.mem_map_of_mem hf
    cases (h f hf).2 with
    | there x y hx hy hv =>
      refine .there x y hx ?_ hv
      rw [hfield, if_pos hname, hy, Option.map_some]
    | leftOut x hx hd hy =>
      refine .leftOut x hx hd ?_
      rw [hfield, if_pos hname, Json.field?_eq_none hy, Option.map_none]
  | _ => exact h.elim

theorem each?_of_varies {α : Type} {v : Variation} {write : α → Json} {read : Datum → Option α}
    {as : List α} (h : ∀ a ∈ as, ∀ y, v (write a) y → read (ofJson y) = some a) {j : Json}
    (hj : v.items (.arr (as.map write)) j) : (ofJson j).each? read = some as := by
  cases j with
  | arr ys =>
    rw [ofJson, each?, ofItems_eq]
    change List.Forall₂ v (as.map write) ys at hj
    induction as generalizing ys with
    | nil =>
      cases hj
      rfl
    | cons a as ih =>
      cases hj with
      | cons hy hys =>
        rw [List.forall_mem_cons] at h
        rw [List.map_cons, List.mapM_cons, h.1 _ hy, ih h.2 _ hys]
        rfl
  | _ => exact hj.elim

namespace Finds

variable {α : Type} {f : KnownField} {known : Fields} {x : Json} {read : Datum → Option α} {a d : α}

theorem required (h : Finds f xs known) (hx : Json.field? f.name xs = some x)
    (hf : f.fallback = none) (hr : ∀ y, f.varies x y → read (ofJson y) = some a) :
    known.required f.name read = some a := by
  cases h with
  | there x' y hx' hy hv =>
    cases hx.symm.trans hx'
    rw [Fields.required, hy]
    exact hr y hv
  | leftOut x' hx' hd => cases hf.symm.trans hd

theorem orElse (h : Finds f xs known) (hx : Json.field? f.name xs = some x)
    (hd : f.fallback = some x → d = a) (hr : ∀ y, f.varies x y → read (ofJson y) = some a) :
    known.orElse f.name d read = some a := by
  cases h with
  | there x' y hx' hy hv =>
    cases hx.symm.trans hx'
    rw [Fields.orElse, hy]
    exact hr y hv
  | leftOut x' hx' hf hy =>
    cases hx.symm.trans hx'
    rw [Fields.orElse, hy, hd hf]

theorem nullable {write : α → Json} {part : Option α} {name : String}
    (h : Finds ⟨name, .same, some .null⟩ xs known)
    (hx : Json.field? name xs = some ((part.map write).getD .null))
    (hr : ∀ a ∈ part, nullable? read (ofJson (write a)) = some (some a)) :
    known.orElse name none (nullable? read) = some part := by
  cases part with
  | none =>
    refine h.orElse hx (fun _ => rfl) ?_
    rintro y rfl
    rfl
  | some a =>
    have ha := hr a rfl
    refine h.orElse hx (fun hd => ?_) ?_
    · rw [Option.map_some, Option.getD_some, Option.some.injEq] at hd
      rw [← hd] at ha
      cases ha
    · rintro y rfl
      exact ha

theorem each {v : Variation} {write : α → Json} {as : List α} {name : String}
    (h : Finds ⟨name, v.items, some (.arr [])⟩ xs known)
    (hx : Json.field? name xs = some (.arr (as.map write)))
    (hr : ∀ a ∈ as, ∀ y, v (write a) y → read (ofJson y) = some a) :
    known.orElse name [] (each? read) = some as := by
  refine h.orElse hx (fun hd => ?_) fun _ hy => each?_of_varies hr hy
  rw [Option.some.injEq, Json.arr.injEq] at hd
  exact (List.map_eq_nil_iff.1 hd.symm).symm

end Finds

end Datum

end CatalogCrawl

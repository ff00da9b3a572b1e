namespace CatalogCrawl

inductive Json
  | null
  | bool (b : Bool)
  | int (n : Int)
  | num (x : Float)
  | str (s : String)
  | arr (items : List Json)
  | obj (fields : List (String × Json))

namespace Json

instance : Inhabited Json := ⟨null⟩

mutual

def same : Json → Json → Bool
  | null, null => true
  | bool a, bool b => a == b
  | int a, int b => a == b
  | num a, num b => a == b
  | str a, str b => a == b
  | arr xs, arr ys => sameItems xs ys
  | obj xs, obj ys => sameFields xs ys
  | _, _ => false

def sameItems : List Json → List Json → Bool
  | [], [] => true
  | x :: xs, y :: ys => same x y && sameItems xs ys
  | _, _ => false

def sameFields : List (String × Json) → List (String × Json) → Bool
  | [], [] => true
  | (k, x) :: xs, (l, y) :: ys => k == l && same x y && sameFields xs ys
  | _, _ => false

end

def setField {α : Type} (key : String) (value : α) : List (String × α) → List (String × α)
  | [] => [(key, value)]
  | (k, v) :: rest =>
    if key < k then (key, value) :: (k, v) :: rest
    else if key = k then (key, value) :: rest
    else (k, v) :: setField key value rest

def sortFields {α : Type} (fields : List (String × α)) : List (String × α) :=
  fields.foldl (fun sorted (k, v) => setField k v sorted) []

def field? {α : Type} (key : String) : List (String × α) → Option α
  | [] => none
  | (k, v) :: rest => if k = key then some v else field? key rest

theorem field?_setField {α : Type} (key : String) (value : α) (fields : List (String × α)) :
    field? key (setField key value fields) = some value := by
  induction fields with
  | nil => simp [setField, field?]
  | cons f rest ih =>
    obtain ⟨k, v⟩ := f
    simp only [setField]
    split
    · simp [field?]
    · split
      · simp [field?]
      · rename_i h
        simp [field?, Ne.symm h, ih]

def keys (fields : List (String × Json)) : List String :=
  fields.map Prod.fst

mutual

def Normal : Json → Prop
  | arr items => NormalItems items
  | obj fields => (keys fields).Pairwise (· < ·) ∧ NormalFields fields
  | _ => True

def NormalItems : List Json → Prop
  | [] => True
  | x :: xs => Normal x ∧ NormalItems xs

def NormalFields : List (String × Json) → Prop
  | [] => True
  | (_, x) :: xs => Normal x ∧ NormalFields xs

end

end Json

end CatalogCrawl

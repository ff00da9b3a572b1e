import CatalogCrawl.Json.Basic
import CatalogCrawl.Number.Word

namespace CatalogCrawl

inductive Datum
  | null
  | flag (b : Bool)
  | whole (n : Int)
  | real (x : Float)
  | text (s : String)
  | stamp
  | list (items : List Datum)
  | table (fields : List (Option String × Datum))
  | unreadable

namespace Datum

instance : Inhabited Datum := ⟨null⟩

/-- How a format gives records by position: whether it refuses items beyond the last field. -/
structure Rules where
  exactLength : Bool
  deriving DecidableEq, Repr

mutual

def value? : Datum → Option Json
  | null => some .null
  | flag b => some (.bool b)
  | whole n => some (.int n)
  | real x => some (.num x)
  | text s => some (.str s)
  | stamp => none
  | list items => (values? items).map .arr
  | table fields => (entries? fields).map fun entries => .obj (Json.sortFields entries)
  | unreadable => none

def values? : List Datum → Option (List Json)
  | [] => some []
  | d :: ds => do some ((← value? d) :: (← values? ds))

def entries? : List (Option String × Datum) → Option (List (String × Json))
  | [] => some []
  | (k, d) :: ds => do some ((← k, ← value? d) :: (← entries? ds))

end

mutual

def ofJson : Json → Datum
  | .null => null
  | .bool b => flag b
  | .int n => whole n
  | .num x => real x
  | .str s => text s
  | .arr items => list (ofItems items)
  | .obj fields => table (ofFields fields)

def ofItems : List Json → List Datum
  | [] => []
  | x :: xs => ofJson x :: ofItems xs

def ofFields : List (String × Json) → List (Option String × Datum)
  | [] => []
  | (k, x) :: xs => (some k, ofJson x) :: ofFields xs

end

def string? : Datum → Option String
  | text s => some s
  | _ => none

def bool? : Datum → Option Bool
  | flag b => some b
  | _ => none

def nat? (limit : Nat) : Datum → Option Nat
  | whole (.ofNat n) => if n < limit then some n else none
  | _ => none

def count? : Datum → Option Nat := nat? Number.word64

def smallCount? : Datum → Option Nat := nat? Number.word32

def float? : Datum → Option Float
  | real x => some x
  | whole n => some (if n < 0 then -n.natAbs.toUInt64.toFloat else n.natAbs.toUInt64.toFloat)
  | _ => none

def nullable? {α : Type} (read : Datum → Option α) : Datum → Option (Option α)
  | null => some none
  | d => (read d).map some

def each? {α : Type} (read : Datum → Option α) : Datum → Option (List α)
  | list items => items.mapM read
  | _ => none

def free? : Datum → Option (List (String × Json))
  | table fields => (entries? fields).map Json.sortFields
  | _ => none

abbrev Fields := List (String × Datum)

def knownFields (names : List String) : List (Option String × Datum) → Option Fields
  | [] => some []
  | (none, _) :: _ => none
  | (some key, d) :: rest => do
    let fields ← knownFields names rest
    if names.contains key then
      if (Json.field? key fields).isSome then none else some ((key, d) :: fields)
    else some fields

def record? (rules : Rules) (names : List String) : Datum → Option Fields
  | table fields => knownFields names fields
  | list items =>
    if rules.exactLength && names.length < items.length then none else some (names.zip items)
  | stamp => some []
  | _ => none

def Fields.required {α : Type} (fields : Fields) (name : String) (read : Datum → Option α) :
    Option α := do
  read (← Json.field? name fields)

def Fields.orElse {α : Type} (fields : Fields) (name : String) (fallback : α)
    (read : Datum → Option α) : Option α :=
  match Json.field? name fields with
  | none => some fallback
  | some d => read d

end Datum

class Written (α : Type) where
  ofDatum? : Datum.Rules → Datum → Option α
  toJson : α → Json

end CatalogCrawl

import CatalogCrawl.Catalog.Basic
import CatalogCrawl.Datum
import CatalogCrawl.Fault
import CatalogCrawl.Json.Printer

namespace CatalogCrawl

structure Criterion where
  left : String
  operator : String
  right : Json

namespace Criterion

def equals (left : String) (right : Json) : Criterion := ⟨left, "=", right⟩

def render (c : Criterion) : String :=
  c.left ++ " " ++ c.operator ++ " " ++ c.right.compact

def toJson (c : Criterion) : Json :=
  .obj [("operand_left", .str c.left), ("operator", .str c.operator), ("operand_right", c.right)]

def ofDatum? (rules : Datum.Rules) (d : Datum) : Option Criterion := do
  let fields ← d.record? rules ["operand_left", "operator", "operand_right"]
  some {
    left := ← fields.required "operand_left" Datum.string?
    operator := ← fields.required "operator" Datum.string?
    right := ← fields.required "operand_right" Datum.value? }

instance : Written Criterion := ⟨ofDatum?, toJson⟩

end Criterion

def Offer.field? (o : Offer) (name : String) : Option Json :=
  if name = "asset:id" then some (.str o.asset.id)
  else if name = "offer:id" then some (.str o.id)
  else Json.field? name o.asset.properties

def Offer.fieldPasses (o : Offer) (name : String) (passes : Json → Bool) : Bool :=
  match o.field? name with
  | some value => passes value
  | none => false

abbrev Condition := Offer → Bool

abbrev Converter := Criterion → Except CacheFault Condition

namespace Criterion

def condition : Converter := fun c =>
  if c.operator = "=" then .ok fun o => o.fieldPasses c.left (Json.same · c.right)
  else if c.operator = "in" then
    match c.right with
    | .arr items => .ok fun o => o.fieldPasses c.left fun value => items.any (Json.same value ·)
    | _ => .error (.invalidCriterion c.render "right operand of 'in' must be a list")
  else .error (.unsupportedOperator c.operator)

def never : Converter := fun _ => .ok fun _ => false

def conditions (convert : Converter) : List Criterion → Except CacheFault (List Condition)
  | [] => .ok []
  | c :: rest => do
    let first ← convert c
    let others ← conditions convert rest
    .ok (first :: others)

end Criterion

end CatalogCrawl

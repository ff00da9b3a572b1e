import CatalogCrawl.Datum

namespace CatalogCrawl.Json

def getOr (j : Json) (name : String) (fallback : Json) : Json :=
  match j with
  | .obj fields => (field? name fields).getD fallback
  | _ => fallback

def get (j : Json) (name : String) : Json := j.getOr name null

def get? {α : Type} (read : Datum → Option α) (j : Json) (name : String) : Option α :=
  read (.ofJson (j.get name))

def nat? (j : Json) (name : String) : Option Nat := j.get? Datum.count? name

def text? (j : Json) (name : String) : Option String := j.get? Datum.string? name

def nat (j : Json) (name : String) : Nat := (j.nat? name).getD 0

def text (j : Json) (name : String) : String := (j.text? name).getD ""

def flag (j : Json) (name : String) : Bool := (j.get? Datum.bool? name).getD false

def texts (j : Json) (name : String) : List String :=
  (j.get? (Datum.each? Datum.string?) name).getD []

def nats (j : Json) (name : String) : List Nat :=
  (j.get? (Datum.each? Datum.count?) name).getD []

def list (j : Json) (name : String) : List Json :=
  match j.get name with
  | .arr items => items
  | _ => []

end CatalogCrawl.Json

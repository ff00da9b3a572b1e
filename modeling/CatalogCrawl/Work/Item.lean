import CatalogCrawl.Catalog.Wire

namespace CatalogCrawl

structure WorkItem where
  url : Url
  protocol : String
  error : Option String
  attempts : Nat
  deriving DecidableEq, Repr

structure Request where
  url : Url
  protocol : String
  deriving DecidableEq, Repr

namespace WorkItem

def fresh (url : Url) (protocol : String) : WorkItem := ⟨url, protocol, none, 0⟩

def maxAttempts : Nat := Number.word32 - 1

def withError (item : WorkItem) (message : String) : WorkItem :=
  ⟨item.url, item.protocol, some message, min (item.attempts + 1) maxAttempts⟩

def render (item : WorkItem) : String :=
  item.url.render ++ " [" ++ item.protocol ++ "]"

def request (item : WorkItem) : Request := ⟨item.url, item.protocol⟩

def toJson (item : WorkItem) : Json :=
  .obj [("url", item.url.toJson), ("protocol", .str item.protocol),
    ("error", (item.error.map .str).getD .null), ("attempts", .int item.attempts)]

def ofDatum? (rules : Datum.Rules) (d : Datum) : Option WorkItem := do
  let fields ← d.record? rules ["url", "protocol", "error", "attempts"]
  some {
    url := ← fields.required "url" Url.ofDatum?
    protocol := ← fields.required "protocol" Datum.string?
    error := ← fields.orElse "error" none (Datum.nullable? Datum.string?)
    attempts := ← fields.required "attempts" Datum.smallCount? }

theorem attempts_withError_le (item : WorkItem) (message : String) :
    (item.withError message).attempts ≤ maxAttempts :=
  Nat.min_le_right _ _

@[simp] theorem url_withError (item : WorkItem) (message : String) :
    (item.withError message).url = item.url := rfl

@[simp] theorem protocol_withError (item : WorkItem) (message : String) :
    (item.withError message).protocol = item.protocol := rfl

instance : Written WorkItem := ⟨ofDatum?, toJson⟩

end WorkItem

end CatalogCrawl

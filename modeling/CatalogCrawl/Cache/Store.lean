import CatalogCrawl.Cache.Criterion
import CatalogCrawl.Span.Basic

namespace CatalogCrawl

structure StoredOffer where
  savedAt : Int
  offer : Offer

structure Store where
  entries : List (String × StoredOffer)

namespace Store

def empty : Store := ⟨[]⟩

def size (s : Store) : Nat := s.entries.length

def isEmpty (s : Store) : Bool := s.entries.isEmpty

def find? (s : Store) (assetId : String) : Option StoredOffer :=
  Json.field? assetId s.entries

def offers (s : Store) : List Offer :=
  s.entries.map fun (_, e) => e.offer

def save (s : Store) (now : Int) (o : Offer) : Store :=
  ⟨Json.setField o.assetId ⟨now, o⟩ s.entries⟩

theorem find?_save (s : Store) (now : Int) (o : Offer) :
    (s.save now o).find? o.assetId = some ⟨now, o⟩ :=
  Json.field?_setField _ _ _

def query (s : Store) (convert : Converter) (criteria : List Criterion) :
    Except CacheFault (List Offer) := do
  let conditions ← Criterion.conditions convert criteria
  .ok (s.offers.filter fun o => conditions.all (· o))

/-- The longest age that expiry can compute with, in nanoseconds. -/
def maxAge : Nat := (Number.half64 - 1) * Span.nanosInMilli

/-- The earliest clock reading: the start of the year -262143, in nanoseconds. -/
def minReading : Int := -8334601228800 * Span.nanosInSec

def cutoff? (now : Int) (ttl : Span) : Option Int :=
  if maxAge < ttl.nanos then none
  else
    let cutoff := now - ttl.nanos
    if cutoff < minReading then none else some cutoff

def expire (s : Store) (now : Int) (ttl : Span) : Store :=
  match cutoff? now ttl with
  | none => s
  | some cutoff => ⟨s.entries.filter fun (_, e) => cutoff ≤ e.savedAt⟩

def expiredCount (s : Store) (now : Int) (ttl : Span) : Nat :=
  s.size - (s.expire now ttl).size

end Store

structure LoadCount where
  responses : Nat
  offers : Nat
  deriving DecidableEq, Repr

namespace LoadCount

def zero : LoadCount := ⟨0, 0⟩

def add (n : LoadCount) (r : Response) : LoadCount :=
  ⟨n.responses + 1, n.offers + r.catalog.offers.length⟩

def toJson (n : LoadCount) : Json :=
  .obj [("responses", .int n.responses), ("offers_saved", .int n.offers)]

def ofDatum? (rules : Datum.Rules) (d : Datum) : Option LoadCount := do
  let fields ← d.record? rules ["responses", "offers_saved"]
  some {
    responses := ← fields.required "responses" Datum.count?
    offers := ← fields.required "offers_saved" Datum.count? }

instance : Written LoadCount := ⟨ofDatum?, toJson⟩

end LoadCount

def Store.load (s : Store) (readings : Nat → Int) (r : Response) : Store :=
  (r.catalog.offers.zipIdx).foldl (fun s (o, i) => s.save (readings i) o) s

end CatalogCrawl

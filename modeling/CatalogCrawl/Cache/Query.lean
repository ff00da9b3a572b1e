import CatalogCrawl.Cache.Store
import CatalogCrawl.Catalog.Wire

namespace CatalogCrawl

structure Query where
  criteria : List Criterion

namespace Query

def toJson (q : Query) : Json :=
  .obj [("criteria", .arr (q.criteria.map Criterion.toJson))]

def ofDatum? (rules : Datum.Rules) (d : Datum) : Option Query := do
  let fields ← d.record? rules ["criteria"]
  some { criteria := ← fields.required "criteria" (Datum.each? (Criterion.ofDatum? rules)) }

instance : Written Query := ⟨ofDatum?, toJson⟩

end Query

inductive QueryStatus
  | accepted | noAdapterFound
  deriving DecidableEq, Repr

namespace QueryStatus

def name : QueryStatus → String
  | accepted => "accepted"
  | noAdapterFound => "no_adapter_found"

def ofName? : String → Option QueryStatus
  | "accepted" => some accepted
  | "no_adapter_found" => some noAdapterFound
  | _ => none

def ofDatum? : Datum → Option QueryStatus
  | .text s => ofName? s
  | .table [(some key, .null)] => ofName? key
  | _ => none

instance : Written QueryStatus := ⟨fun _ => ofDatum?, fun s => .str s.name⟩

end QueryStatus

structure QueryResponse where
  status : QueryStatus
  offers : List Offer
  errors : List String

namespace QueryResponse

def toJson (r : QueryResponse) : Json :=
  .obj [("status", .str r.status.name), ("offers", .arr (r.offers.map Offer.toJson)),
    ("errors", .arr (r.errors.map .str))]

def ofDatum? (rules : Datum.Rules) (d : Datum) : Option QueryResponse := do
  let fields ← d.record? rules ["status", "offers", "errors"]
  some {
    status := ← fields.required "status" QueryStatus.ofDatum?
    offers := ← fields.required "offers" (Datum.each? (Offer.ofDatum? rules))
    errors := ← fields.required "errors" (Datum.each? Datum.string?) }

instance : Written QueryResponse := ⟨ofDatum?, toJson⟩

end QueryResponse

abbrev QueryAnswer := Except QueryFault (List Offer)

inductive QuerySource
  | cache
  | elsewhere (answer : Query → QueryAnswer) (delay : Span)

structure QueryAdapter where
  name : String
  takes : Query → Bool
  source : QuerySource

namespace QueryAdapter

def cache : QueryAdapter := ⟨"federated-cache", fun _ => true, .cache⟩

def constant (name : String) (most : Option Nat) (answer : QueryAnswer) (delay : Span) :
    QueryAdapter :=
  { name := name
    takes := fun q => most.all fun n => q.criteria.length ≤ n
    source := .elsewhere (fun _ => answer) delay }

def answer (a : QueryAdapter) (store : Store) (convert : Converter) (q : Query) : QueryAnswer :=
  match a.source with
  | .elsewhere answer _ => answer q
  | .cache => (store.query convert q.criteria).mapError .cache

def delay (a : QueryAdapter) : Span :=
  match a.source with
  | .elsewhere _ delay => delay
  | .cache => .zero

end QueryAdapter

structure FanOut where
  asked : List (QueryAdapter × Option QueryAnswer)

namespace FanOut

def start (adapters : List QueryAdapter) (q : Query) : FanOut :=
  ⟨(adapters.filter (·.takes q)).map fun a => (a, none)⟩

def arrive (f : FanOut) (position : Nat) (answer : QueryAnswer) : FanOut :=
  ⟨f.asked.modify position fun (a, _) => (a, some answer)⟩

def receive (f : FanOut) (arrivals : List (Nat × QueryAnswer)) : FanOut :=
  arrivals.foldl (fun f (i, answer) => f.arrive i answer) f

def offers (f : FanOut) : List Offer :=
  f.asked.flatMap fun
    | (_, some (.ok found)) => found
    | _ => []

def faults (f : FanOut) : List (String × QueryFault) :=
  f.asked.flatMap fun
    | (a, some (.error fault)) => [(a.name, fault)]
    | _ => []

def response (f : FanOut) : QueryResponse :=
  if f.asked.isEmpty then ⟨.noAdapterFound, [], []⟩
  else ⟨.accepted, f.offers, f.faults.map (·.2.message)⟩

def arrivals (f : FanOut) (store : Store) (convert : Converter) (q : Query) :
    List (Nat × QueryAnswer) :=
  let positions := f.asked.zipIdx.map fun ((a, _), i) => (a.delay.nanos, i, a.answer store convert q)
  (positions.mergeSort fun (d, _, _) (e, _, _) => d ≤ e).map fun (_, i, answer) => (i, answer)

def duration (f : FanOut) : Span :=
  ⟨f.asked.foldl (fun longest (a, _) => max longest a.delay.nanos) 0⟩

end FanOut

def Query.run (q : Query) (adapters : List QueryAdapter) (store : Store) (convert : Converter) :
    FanOut :=
  let f := FanOut.start adapters q
  f.receive (f.arrivals store convert q)

end CatalogCrawl

import CatalogCrawl.Fault
import CatalogCrawl.Files
import CatalogCrawl.Work.Item
import CatalogCrawl.Json.Reader
import CatalogCrawl.Span.Basic

namespace CatalogCrawl

structure Reply where
  delay : Span
  outcome : Except AdapterFault Response

structure Adapter where
  name : String
  serves : String → Bool
  reply : Files → Nat → Request → Reply
  /-- Whether the question what it serves goes unanswered until a gate opens. -/
  gated : Bool

namespace Adapter

def readCatalog (files : Files) (r : Request) : Except AdapterFault Response :=
  if r.url.scheme ≠ "file" then .error (.unsupportedUrl r.url.render)
  else match r.url.filePath? with
    | none => .error (.unsupportedUrl r.url.render)
    | some path =>
      match files.readAt path with
      | .error fault => .error (.io fault.text)
      | .ok bytes =>
        match Json.readBytes bytes >>= Catalog.ofDatum? Json.rules with
        | some catalog => .ok ⟨r.url, catalog⟩
        | none => .error .decode

def ofFiles : Adapter :=
  { name := "file-catalog"
    serves := (· == "file")
    reply := fun files _ r => ⟨.zero, readCatalog files r⟩
    gated := false }

def ofScript (name : String) (protocols : List String) (script : List (Request → Reply)) : Adapter :=
  { name := name
    serves := protocols.contains
    reply := fun _ earlier r =>
      match script[earlier]? <|> script.getLast? with
      | some reply => reply r
      | none => ⟨.zero, .error .decode⟩
    gated := false }

def behindGate (a : Adapter) : Adapter := { a with gated := true }

end Adapter

structure Registry where
  adapters : List (Adapter × Nat)

namespace Registry

def empty : Registry := ⟨[]⟩

def ofList (adapters : List Adapter) : Registry := ⟨adapters.map fun a => (a, 0)⟩

def toList (r : Registry) : List Adapter := r.adapters.map Prod.fst

def size (r : Registry) : Nat := r.adapters.length

def register (r : Registry) (a : Adapter) : Registry := ⟨r.adapters ++ [(a, 0)]⟩

def extend (r : Registry) (adapters : List Adapter) : Registry := adapters.foldl register r

def matching (r : Registry) (protocol : String) : List (Nat × Adapter) :=
  r.toList.zipIdx.filterMap fun (a, i) => if a.serves protocol then some (i, a) else none

def get? (r : Registry) (position : Nat) : Option (Adapter × Nat) := r.adapters[position]?

def count (r : Registry) (position : Nat) : Registry :=
  ⟨r.adapters.modify position fun (a, n) => (a, n + 1)⟩

@[simp] theorem toList_register (r : Registry) (a : Adapter) :
    (r.register a).toList = r.toList ++ [a] := by
  simp [toList, register]

@[simp] theorem toList_extend (r : Registry) (adapters : List Adapter) :
    (r.extend adapters).toList = r.toList ++ adapters := by
  induction adapters generalizing r with
  | nil => simp [extend]
  | cons a rest ih =>
    rw [extend, List.foldl_cons]
    exact (ih (r.register a)).trans (by simp)

end Registry

end CatalogCrawl

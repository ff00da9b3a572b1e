import CatalogCrawl.Datum

namespace CatalogCrawl.Toml

inductive Origin
  | headed | passed | dotted
  deriving DecidableEq, Repr

inductive Node
  | value (d : Datum)
  | table (origin : Origin) (entries : List (String × Node))
  | series (tables : List (List (String × Node)))

structure Table where
  origin : Origin
  entries : List (String × Node)

namespace Table

def empty (origin : Origin) : Table := ⟨origin, []⟩

def node (t : Table) : Node := .table t.origin t.entries

def put (t : Table) (key : String) (n : Node) : Table :=
  ⟨t.origin, Json.setField key n t.entries⟩

def change (dotted : Bool) (f : Table → Option Table) : List String → Table → Option Table
  | [], t => f t
  | key :: path, t =>
    match Json.field? key t.entries with
    | none => do
      let child ← change dotted f path (empty (if dotted then .dotted else .passed))
      some (t.put key child.node)
    | some (.table origin entries) =>
      if dotted && origin == .headed then none
      else do
        let child ← change dotted f path ⟨origin, entries⟩
        some (t.put key child.node)
    | some (.series (last :: earlier)) => do
      let child ← change dotted f path ⟨.headed, last⟩
      some (t.put key (.series (child.entries :: earlier)))
    | some _ => none

def enter (path : List String) (key : String) (d : Datum) (t : Table) : Option Table :=
  t.change true (fun target =>
    if (target.origin == .dotted) == path.isEmpty then none
    else if (Json.field? key target.entries).isSome then none
    else some (target.put key (.value d))) path

def openTable (path : List String) (key : String) (t : Table) : Option Table :=
  t.change false (fun parent =>
    match Json.field? key parent.entries with
    | none => some (parent.put key (empty .headed).node)
    | some (.table .passed entries) => some (parent.put key (.table .headed entries))
    | some _ => none) path

def openItem (path : List String) (key : String) (t : Table) : Option Table :=
  t.change false (fun parent =>
    match Json.field? key parent.entries with
    | none => some (parent.put key (.series [[]]))
    | some (.series tables) => some (parent.put key (.series ([] :: tables)))
    | some _ => none) path

end Table

structure Key where
  path : List String
  name : String
  deriving DecidableEq, Repr

inductive Line
  | header (key : Key)
  | item (key : Key)
  | entry (key : Key) (d : Datum)

structure Draft where
  root : Table
  current : List String

namespace Draft

def empty : Draft := ⟨Table.empty .headed, []⟩

def add (draft : Draft) : Line → Option Draft
  | .header key => do
    some ⟨← draft.root.openTable key.path key.name, key.path ++ [key.name]⟩
  | .item key => do
    some ⟨← draft.root.openItem key.path key.name, key.path ++ [key.name]⟩
  | .entry key d => do
    some ⟨← draft.root.change false (Table.enter key.path key.name d) draft.current, draft.current⟩

end Draft

mutual

def Node.datum : Node → Datum
  | .value d => d
  | .table _ entries => .table (entryData entries)
  | .series tables => .list (tableData tables).reverse

def entryData : List (String × Node) → List (Option String × Datum)
  | [] => []
  | (k, n) :: rest => (some k, n.datum) :: entryData rest

def tableData : List (List (String × Node)) → List Datum
  | [] => []
  | t :: rest => .table (entryData t) :: tableData rest

end

def Table.datum (t : Table) : Datum := .table (entryData t.entries)

def Table.ofEntries? (entries : List (Key × Datum)) : Option Table :=
  entries.foldlM (fun t (key, d) => t.enter key.path key.name d) (empty .headed)

end CatalogCrawl.Toml

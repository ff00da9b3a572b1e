import CatalogCrawl.Work.Item

namespace CatalogCrawl

structure Node where
  name : String
  url : Url
  protocols : List String
  deriving DecidableEq, Repr

namespace Node

def workItems (node : Node) : List WorkItem :=
  node.protocols.map (WorkItem.fresh node.url)

def toJson (node : Node) : Json :=
  .obj [("name", .str node.name), ("target_url", node.url.toJson),
    ("supported_protocols", .arr (node.protocols.map .str))]

def ofDatum? (rules : Datum.Rules) (d : Datum) : Option Node := do
  let fields ← d.record? rules ["name", "target_url", "supported_protocols"]
  some {
    name := ← fields.required "name" Datum.string?
    url := ← fields.required "target_url" Url.ofDatum?
    protocols := ← fields.orElse "supported_protocols" [] (Datum.each? Datum.string?) }

instance : Written Node := ⟨ofDatum?, toJson⟩

end Node

def workload (nodes : List Node) : List WorkItem :=
  nodes.flatMap Node.workItems

theorem mem_workload {nodes : List Node} {item : WorkItem} :
    item ∈ workload nodes ↔
      ∃ node ∈ nodes, ∃ protocol ∈ node.protocols, WorkItem.fresh node.url protocol = item := by
  simp [workload, Node.workItems]

end CatalogCrawl

import CatalogCrawl.Config.Check
import CatalogCrawl.Config.Wire
import CatalogCrawl.Proofs.Span.Units
import CatalogCrawl.Proofs.Toml.Tables

namespace CatalogCrawl

def Json.fields : Json → List (String × Json)
  | .obj fields => fields
  | _ => []

namespace Config

open Toml (Section)

variable {c : Config}

def sections (c : Config) : List Section :=
  [⟨false, [], "queue", c.queue.toJson.fields⟩, ⟨false, [], "crawler", c.crawler.toJson.fields⟩,
    ⟨false, ["crawler"], "retry", c.crawler.retry.toJson.fields⟩,
    ⟨false, ["crawler"], "requeue", c.crawler.requeue.toJson.fields⟩,
    ⟨false, [], "partition", c.partition.toJson.fields⟩,
    ⟨false, [], "cache", c.cache.toJson.fields⟩,
    ⟨false, [], "logging", c.logging.toJson.fields⟩] ++
  (c.nodes.map fun node => node.toJson.fields).map fun fields => ⟨true, [], "nodes", fields⟩

section Writing

theorem hasHeader_texts (texts : List String) : Toml.hasHeader (.arr (texts.map .str)) = false := by
  cases texts <;> rfl

theorem flat_queue (c : QueueConfig) : Toml.Flat c.toJson.fields := rfl

theorem flat_retry (p : RetryPolicy) : Toml.Flat p.toJson.fields := rfl

theorem flat_requeue (p : RequeuePolicy) : Toml.Flat p.toJson.fields := by
  obtain ⟨maxAttempts⟩ := p
  cases maxAttempts <;> rfl

theorem flat_partition (c : PartitionConfig) : Toml.Flat c.toJson.fields := rfl

theorem flat_cache (c : CacheConfig) : Toml.Flat c.toJson.fields := rfl

theorem flat_logging (c : LoggingConfig) : Toml.Flat c.toJson.fields := rfl

theorem flat_node (node : Node) : Toml.Flat node.toJson.fields := by
  change (!Toml.hasHeader (.arr (node.protocols.map .str)) && true) = true
  rw [hasHeader_texts]
  rfl

def nodeFields (nodes : List Node) : List (String × Json) :=
  if nodes.isEmpty then [] else [("nodes", .arr (nodes.map Node.toJson))]

theorem hasHeader_nodes {nodes : List Node} (h : nodes ≠ []) :
    Toml.hasHeader (.arr (nodes.map Node.toJson)) = true := by
  have hall : (nodes.map Node.toJson).all (fun | .obj _ => true | _ => false) = true := by
    rw [List.all_map, List.all_eq_true]
    exact fun _ _ => rfl
  have hne : (nodes.map Node.toJson).isEmpty = false := by
    rw [List.isEmpty_map]
    exact List.isEmpty_eq_false_iff.2 h
  rw [Toml.hasHeader, hne]
  exact hall

theorem fieldBlocks_nodes (nodes : List Node) :
    Toml.fieldBlocks [] (nodeFields nodes) =
      ((nodes.map fun node => node.toJson.fields).map fun fields =>
        (⟨true, [], "nodes", fields⟩ : Section)).mapM Section.text? := by
  unfold nodeFields
  cases nodes with
  | nil => rfl
  | cons node nodes =>
    have hitems : (node :: nodes).map Node.toJson =
        ((node :: nodes).map fun node => node.toJson.fields).map .obj := by
      rw [List.map_map]
      rfl
    have hflat : ∀ fields ∈ (node :: nodes).map fun node => node.toJson.fields,
        Toml.Flat fields := by
      intro fields hf
      obtain ⟨node, -, rfl⟩ := List.mem_map.1 hf
      exact flat_node node
    rw [if_neg (by simp), ← Toml.itemBlocks_eq _ hflat, ← hitems]
    simp only [Toml.fieldBlocks, if_pos (hasHeader_nodes (List.cons_ne_nil node nodes)),
      Option.bind_eq_bind, Option.bind_some, List.append_nil, List.nil_append, Option.bind_fun_some]

theorem hasHeader_of_mem_fields {f : String × Json} (h : f ∈ c.fields) :
    Toml.hasHeader f.2 = true := by
  rcases List.mem_append.1 h with h | h
  · simp only [List.mem_cons, List.not_mem_nil, or_false] at h
    rcases h with rfl | rfl | rfl | rfl | rfl <;> rfl
  · by_cases hn : c.nodes = []
    · simp [hn] at h
    · rw [if_neg (by simpa using hn), List.mem_singleton] at h
      subst h
      exact hasHeader_nodes hn

theorem fieldBlocks_crawler (c : CrawlerConfig) :
    Toml.fieldBlocks ["crawler"] c.toJson.fields =
      [(⟨false, ["crawler"], "retry", c.retry.toJson.fields⟩ : Section),
        ⟨false, ["crawler"], "requeue", c.requeue.toJson.fields⟩].mapM Section.text? := by
  have hfields : c.toJson.fields = ("wait_for_work_item", c.waitForWorkItem.toJson) ::
      ("request_timeout", c.requestTimeout.toJson) ::
      ("result_queue_capacity", .int c.resultQueueCapacity) ::
      ("retry", .obj c.retry.toJson.fields) ::
      ("requeue", .obj c.requeue.toJson.fields) :: [] := rfl
  rw [hfields, Toml.fieldBlocks_value rfl, Toml.fieldBlocks_value rfl, Toml.fieldBlocks_value rfl]
  exact Toml.fieldBlocks_leaf (flat_retry c.retry)
    (Toml.fieldBlocks_leaf (flat_requeue c.requeue) rfl)

theorem fieldBlocks_fields (c : Config) :
    Toml.fieldBlocks [] c.fields = c.sections.mapM Section.text? := by
  have hfields : c.fields = ("queue", .obj c.queue.toJson.fields) ::
      ("crawler", .obj c.crawler.toJson.fields) ::
      ("partition", .obj c.partition.toJson.fields) :: ("cache", .obj c.cache.toJson.fields) ::
      ("logging", .obj c.logging.toJson.fields) :: nodeFields c.nodes := rfl
  have hcrawler : ∃ f ∈ c.crawler.toJson.fields, Toml.hasHeader f.2 = false :=
    ⟨_, List.mem_cons_self, rfl⟩
  have hafter : Toml.fieldBlocks [] (("partition", .obj c.partition.toJson.fields) ::
      ("cache", .obj c.cache.toJson.fields) :: ("logging", .obj c.logging.toJson.fields) ::
        nodeFields c.nodes) = _ :=
    Toml.fieldBlocks_leaf (flat_partition c.partition) (Toml.fieldBlocks_leaf (flat_cache c.cache)
      (Toml.fieldBlocks_leaf (flat_logging c.logging) (fieldBlocks_nodes c.nodes)))
  have hwithin := Toml.fieldBlocks_table hcrawler (List.nil_append _)
    (fieldBlocks_crawler c.crawler) hafter
  rw [hfields]
  exact Toml.fieldBlocks_leaf (flat_queue c.queue) hwithin

theorem print_fields (c : Config) : Toml.print c.fields =
    (c.sections.mapM Section.text?).bind fun texts => some (String.intercalate "\n" texts) := by
  rw [Toml.print_tables fun f hf => hasHeader_of_mem_fields hf, fieldBlocks_fields]

end Writing

end Config

end CatalogCrawl

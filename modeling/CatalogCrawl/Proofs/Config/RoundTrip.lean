import CatalogCrawl.Config.Check
import CatalogCrawl.Crawl.Plan
import CatalogCrawl.Proofs.Config.Sections
import CatalogCrawl.Proofs.Span.Units
import CatalogCrawl.Proofs.Toml.Reals
import CatalogCrawl.Proofs.Toml.Tables

namespace CatalogCrawl

open Toml (Section Table entryData record record?_entryData record?_record ascending_record
  field?_record)

section Ranges

structure RetryPolicy.InRange (p : RetryPolicy) : Prop where
  maxRetries : p.maxRetries < Number.word32
  initialInterval : p.initialInterval.InRange
  maxInterval : p.maxInterval.InRange

def RequeuePolicy.InRange (p : RequeuePolicy) : Prop := ∀ most ∈ p.maxAttempts, most < Number.word32

structure CrawlerConfig.InRange (c : CrawlerConfig) : Prop where
  waitForWorkItem : c.waitForWorkItem.InRange
  requestTimeout : c.requestTimeout.InRange
  resultQueueCapacity : c.resultQueueCapacity < Number.word64
  retry : c.retry.InRange
  requeue : c.requeue.InRange

structure PartitionConfig.InRange (c : PartitionConfig) : Prop where
  crawlerCount : c.crawlerCount < Number.word64
  executionPeriod : c.executionPeriod.InRange
  initialDelay : c.initialDelay.InRange
  joinTimeout : c.joinTimeout.InRange
  shutdownTimeout : c.shutdownTimeout.InRange

structure CacheConfig.InRange (c : CacheConfig) : Prop where
  ttl : c.ttl.InRange
  evictionPeriod : c.evictionPeriod.InRange

structure Config.InRange (c : Config) : Prop where
  capacity : c.queue.capacity < Number.word64
  crawler : c.crawler.InRange
  partition : c.partition.InRange
  cache : c.cache.InRange

end Ranges

section Records

theorem Span.ofDatum?_render {s : Span} (h : s.InRange) :
    Span.ofDatum? (.text s.render) = some s := Span.parse?_render h

theorem Datum.nat?_whole {n limit : Nat} (h : n < limit) :
    Datum.nat? limit (.whole n) = some n := if_pos h

theorem Datum.mapM_string? (items : List String) :
    items.mapM (Datum.string? ∘ Datum.text) = some items := by
  induction items with
  | nil => rfl
  | cons s items ih => simp [Datum.string?, ih]

variable {rules : Datum.Rules}

theorem QueueConfig.ofDatum?_record {c : QueueConfig} (h : c.capacity < Number.word64) :
    ofDatum? rules (.table (entryData (record c.toJson.fields))) = some c := by
  have hdistinct : (c.toJson.fields.map Prod.fst).Nodup := by simp [toJson, Json.fields]
  obtain ⟨known, hknown, hfield⟩ := record?_record hdistinct rules ["capacity"]
  simp only [ofDatum?, hknown, Option.bind_eq_bind, Option.bind_some, Datum.Fields.orElse, hfield]
  simp [toJson, Json.fields, Json.field?, Datum.ofJson, Datum.count?, Datum.nat?_whole h]

theorem RetryPolicy.ofDatum?_record {p : RetryPolicy} (h : p.InRange) :
    ofDatum? rules (.table (entryData (record p.toJson.fields))) = some p := by
  have hdistinct : (p.toJson.fields.map Prod.fst).Nodup := by simp [toJson, Json.fields]
  obtain ⟨known, hknown, hfield⟩ := record?_record hdistinct rules
    ["max_retries", "initial_interval", "max_interval", "multiplier"]
  simp only [ofDatum?, hknown, Option.bind_eq_bind, Option.bind_some, Datum.Fields.orElse, hfield]
  simp [toJson, Json.fields, Json.field?, Datum.ofJson, Datum.smallCount?,
    Datum.nat?_whole h.maxRetries, Span.toJson, Span.ofDatum?_render h.initialInterval,
    Span.ofDatum?_render h.maxInterval, Datum.float?]

theorem RequeuePolicy.ofDatum?_record {p : RequeuePolicy} (h : p.InRange) :
    ofDatum? rules (.table (entryData (record p.toJson.fields))) = some p := by
  have hdistinct : (p.toJson.fields.map Prod.fst).Nodup := by
    obtain ⟨maxAttempts⟩ := p
    cases maxAttempts <;> simp [toJson, Json.fields]
  obtain ⟨known, hknown, hfield⟩ := record?_record hdistinct rules ["max_attempts"]
  simp only [ofDatum?, hknown, Option.bind_eq_bind, Option.bind_some, Datum.Fields.orElse, hfield]
  obtain ⟨maxAttempts⟩ := p
  cases maxAttempts with
  | none => simp [toJson, Json.fields, Json.field?]
  | some most =>
    simp [toJson, Json.fields, Json.field?, Datum.ofJson, Datum.nullable?, Datum.smallCount?,
      Datum.nat?_whole (h most rfl)]

theorem PartitionConfig.ofDatum?_record {c : PartitionConfig} (h : c.InRange) :
    ofDatum? rules (.table (entryData (record c.toJson.fields))) = some c := by
  have hdistinct : (c.toJson.fields.map Prod.fst).Nodup := by simp [toJson, Json.fields]
  obtain ⟨known, hknown, hfield⟩ := record?_record hdistinct rules
    ["crawler_count", "execution_period", "initial_delay", "join_timeout", "shutdown_timeout"]
  simp only [ofDatum?, hknown, Option.bind_eq_bind, Option.bind_some, Datum.Fields.orElse, hfield]
  simp [toJson, Json.fields, Json.field?, Datum.ofJson, Datum.count?,
    Datum.nat?_whole h.crawlerCount, Span.toJson, Span.ofDatum?_render h.executionPeriod,
    Span.ofDatum?_render h.initialDelay, Span.ofDatum?_render h.joinTimeout,
    Span.ofDatum?_render h.shutdownTimeout]

theorem CacheConfig.ofDatum?_record {c : CacheConfig} (h : c.InRange) :
    ofDatum? rules (.table (entryData (record c.toJson.fields))) = some c := by
  have hdistinct : (c.toJson.fields.map Prod.fst).Nodup := by simp [toJson, Json.fields]
  obtain ⟨known, hknown, hfield⟩ := record?_record hdistinct rules ["ttl", "eviction_period"]
  simp only [ofDatum?, hknown, Option.bind_eq_bind, Option.bind_some, Datum.Fields.orElse, hfield]
  simp [toJson, Json.fields, Json.field?, Datum.ofJson, Span.toJson, Span.ofDatum?_render h.ttl,
    Span.ofDatum?_render h.evictionPeriod]

theorem LoggingConfig.ofDatum?_record (c : LoggingConfig) :
    ofDatum? rules (.table (entryData (record c.toJson.fields))) = some c := by
  have hdistinct : (c.toJson.fields.map Prod.fst).Nodup := by simp [toJson, Json.fields]
  obtain ⟨known, hknown, hfield⟩ := record?_record hdistinct rules ["level"]
  simp only [ofDatum?, hknown, Option.bind_eq_bind, Option.bind_some, Datum.Fields.orElse, hfield]
  simp [toJson, Json.fields, Json.field?, Datum.ofJson, Datum.string?]

theorem Node.ofDatum?_record {node : Node} (h : Url.parse? node.url.render = some node.url) :
    ofDatum? rules (.table (entryData (record node.toJson.fields))) = some node := by
  have hdistinct : (node.toJson.fields.map Prod.fst).Nodup := by simp [toJson, Json.fields]
  have hurl : Url.ofDatum? (.text node.url.render) = some node.url := by
    rw [Url.ofDatum?, Datum.string?, Option.bind_eq_bind, Option.bind_some, h]
  obtain ⟨known, hknown, hfield⟩ := record?_record hdistinct rules
    ["name", "target_url", "supported_protocols"]
  simp only [ofDatum?, hknown, Option.bind_eq_bind, Option.bind_some, Datum.Fields.orElse,
    Datum.Fields.required, hfield]
  simp [toJson, Json.fields, Json.field?, Datum.ofJson, Datum.string?, Url.toJson, hurl,
    Toml.ofItems_strings, Datum.each?, Datum.mapM_string?]

end Records

section Tables

open Toml (headed)

namespace CrawlerConfig

def ownFields (c : CrawlerConfig) : List (String × Json) :=
  [("wait_for_work_item", c.waitForWorkItem.toJson), ("request_timeout", c.requestTimeout.toJson),
    ("result_queue_capacity", .int c.resultQueueCapacity)]

def table (c : CrawlerConfig) : Table :=
  ((headed c.ownFields).put "retry" (headed c.retry.toJson.fields).node).put "requeue"
    (headed c.requeue.toJson.fields).node

theorem own_eq (c : CrawlerConfig) :
    (Section.mk false [] "crawler" c.toJson.fields).own = c.ownFields := rfl

theorem ofDatum?_table {c : CrawlerConfig} (h : c.InRange) (rules : Datum.Rules) :
    ofDatum? rules c.table.node.datum = some c := by
  have hasc : Json.Ascending c.table.entries :=
    Table.ascending_put (Table.ascending_put (ascending_record c.ownFields) _ _) _ _
  obtain ⟨known, hknown, hfield⟩ := record?_entryData hasc rules
    ["wait_for_work_item", "request_timeout", "result_queue_capacity", "retry", "requeue"]
  simp only [ofDatum?, Table.node, Toml.Node.datum, hknown, Option.bind_eq_bind, Option.bind_some,
    Datum.Fields.orElse, hfield]
  simp [table, ownFields, field?_record, Json.field?, Toml.Node.datum, Datum.ofJson, Datum.count?,
    Datum.nat?_whole h.resultQueueCapacity, Span.toJson, Span.ofDatum?_render h.waitForWorkItem,
    Span.ofDatum?_render h.requestTimeout, RetryPolicy.ofDatum?_record h.retry,
    RequeuePolicy.ofDatum?_record h.requeue]

end CrawlerConfig

namespace Config

variable {c : Config}

def tables (c : Config) : Table :=
  (((((Table.empty .headed).put "queue" (headed c.queue.toJson.fields).node).put "crawler"
    c.crawler.table.node).put "partition" (headed c.partition.toJson.fields).node).put "cache"
      (headed c.cache.toJson.fields).node).put "logging" (headed c.logging.toJson.fields).node

def records (nodes : List Node) : List (List (String × Toml.Node)) :=
  nodes.map fun node => record node.toJson.fields

def table (c : Config) : Table :=
  if c.nodes.isEmpty then c.tables else c.tables.put "nodes" (.series (records c.nodes).reverse)

theorem mapM_records {nodes : List Node} (rules : Datum.Rules)
    (hurl : ∀ node ∈ nodes, Url.parse? node.url.render = some node.url) :
    (Toml.tableData (records nodes)).mapM (Node.ofDatum? rules) = some nodes := by
  induction nodes with
  | nil => rfl
  | cons node nodes ih =>
    rw [List.forall_mem_cons] at hurl
    rw [records, List.map_cons, Toml.tableData, ← records, List.mapM_cons, ih hurl.2,
      Node.ofDatum?_record hurl.1]
    rfl

theorem ascending_table (c : Config) : Json.Ascending c.table.entries := by
  have htables : Json.Ascending c.tables.entries := by
    refine Table.ascending_put ?_ _ _
    refine Table.ascending_put ?_ _ _
    refine Table.ascending_put ?_ _ _
    refine Table.ascending_put ?_ _ _
    exact Table.ascending_put (t := Table.empty .headed) .nil _ _
  unfold table
  split
  · exact htables
  · exact Table.ascending_put htables _ _

theorem field?_table {key : String} (hk : key ≠ "nodes") :
    Json.field? key c.table.entries = Json.field? key c.tables.entries := by
  unfold table
  split
  · rfl
  · exact Table.field?_put_of_ne hk _ _

theorem field?_nodes (c : Config) : Json.field? "nodes" c.table.entries =
    if c.nodes.isEmpty then none else some (.series (records c.nodes).reverse) := by
  unfold table
  split
  · simp [tables, Table.empty, Json.field?]
  · exact Table.field?_put _ _ _

theorem ofDatum?_table (h : c.InRange)
    (hurl : ∀ node ∈ c.nodes, Url.parse? node.url.render = some node.url) (rules : Datum.Rules) :
    ofDatum? rules c.table.datum = some c := by
  obtain ⟨known, hknown, hfield⟩ := record?_entryData (ascending_table c) rules
    ["queue", "crawler", "partition", "cache", "logging", "nodes"]
  have hnodes : known.orElse "nodes" standard.nodes (Datum.each? (Node.ofDatum? rules)) =
      some c.nodes := by
    rw [Datum.Fields.orElse, hfield, if_pos (by decide), field?_nodes]
    cases hn : c.nodes.isEmpty with
    | true => exact congrArg some (List.isEmpty_iff.1 hn).symm
    | false =>
      have hdatum : Toml.Node.datum (.series (records c.nodes).reverse) =
          .list (Toml.tableData (records c.nodes)) := by
        rw [Toml.Node.datum, Toml.tableData_eq, List.map_reverse, List.reverse_reverse,
          ← Toml.tableData_eq]
      rw [if_neg Bool.false_ne_true, Option.map_some, hdatum]
      exact mapM_records rules hurl
  simp only [ofDatum?, Table.datum, hknown, hnodes, Option.bind_eq_bind, Option.bind_some]
  simp [Datum.Fields.orElse, hfield, field?_table, tables, QueueConfig.ofDatum?_record h.capacity,
    CrawlerConfig.ofDatum?_table h.crawler, PartitionConfig.ofDatum?_record h.partition,
    CacheConfig.ofDatum?_record h.cache, LoggingConfig.ofDatum?_record]

theorem foldlM_tables (c : Config) :
    [(⟨false, [], "queue", c.queue.toJson.fields⟩ : Section),
      ⟨false, [], "crawler", c.crawler.toJson.fields⟩,
      ⟨false, ["crawler"], "retry", c.crawler.retry.toJson.fields⟩,
      ⟨false, ["crawler"], "requeue", c.crawler.requeue.toJson.fields⟩,
      ⟨false, [], "partition", c.partition.toJson.fields⟩,
      ⟨false, [], "cache", c.cache.toJson.fields⟩,
      ⟨false, [], "logging", c.logging.toJson.fields⟩].foldlM Section.add (Table.empty .headed) =
    some c.tables := by
  have hnone : Json.field? "retry" (headed c.crawler.ownFields).entries = none ∧
      Json.field? "requeue" (headed c.crawler.ownFields).entries = none := by
    simp [CrawlerConfig.ownFields, field?_record, Json.field?]
  simp only [List.foldlM_cons, List.foldlM_nil, Option.bind_eq_bind, Option.pure_def]
  rw [Section.add_table (flat_queue _).own rfl, Option.bind_some,
    Section.add_table c.crawler.own_eq (by simp [Table.empty, Json.field?]), Option.bind_some,
    Section.add_below (flat_retry _).own hnone.1, Option.bind_some,
    Section.add_below (flat_requeue _).own (by simpa using hnone.2), Option.bind_some,
    Section.add_table (flat_partition _).own (by simp [Table.empty, Json.field?]), Option.bind_some,
    Section.add_table (flat_cache _).own (by simp [Table.empty, Json.field?]), Option.bind_some,
    Section.add_table (flat_logging _).own (by simp [Table.empty, Json.field?]), Option.bind_some]
  rfl

theorem foldlM_sections (c : Config) :
    c.sections.foldlM Section.add (Table.empty .headed) = some c.table := by
  rw [sections, List.foldlM_append, foldlM_tables, Option.bind_eq_bind, Option.bind_some, table]
  have hflat : ∀ fields ∈ c.nodes.map fun node => node.toJson.fields, Toml.Flat fields := by
    intro fields hf
    obtain ⟨node, -, rfl⟩ := List.mem_map.1 hf
    exact flat_node node
  cases hn : c.nodes with
  | nil => rfl
  | cons node nodes =>
    rw [hn] at hflat
    have hnone : Json.field? "nodes" c.tables.entries = none := by
      simp [tables, Table.empty, Json.field?]
    rw [Section.foldlM_series hflat (by simp) hnone, List.map_map]
    rfl

theorem plain_queue (c : QueueConfig) : Toml.Plain c.toJson.fields := by
  refine .of_names ["capacity"] rfl (by decide) (by decide) ?_
  simp [QueueConfig.toJson, Json.fields, Toml.legible_count]

theorem plain_crawler (c : CrawlerConfig) : Toml.Plain c.ownFields := by
  refine .of_names ["wait_for_work_item", "request_timeout", "result_queue_capacity"] rfl
    (by decide) (by decide) ?_
  simp [CrawlerConfig.ownFields, Span.toJson, Toml.legible_count, Toml.legible_string]

theorem plain_retry {p : RetryPolicy} (hreal : Toml.Legible (.num p.multiplier)) :
    Toml.Plain p.toJson.fields := by
  refine .of_names ["max_retries", "initial_interval", "max_interval", "multiplier"] rfl
    (by decide) (by decide) ?_
  simp [RetryPolicy.toJson, Json.fields, Span.toJson, Toml.legible_count, Toml.legible_string,
    hreal]

theorem plain_requeue (p : RequeuePolicy) : Toml.Plain p.toJson.fields := by
  obtain ⟨maxAttempts⟩ := p
  cases maxAttempts with
  | none =>
    refine .of_names [] rfl (by decide) (by decide) ?_
    simp [RequeuePolicy.toJson, Json.fields]
  | some most =>
    refine .of_names ["max_attempts"] rfl (by decide) (by decide) ?_
    simp [RequeuePolicy.toJson, Json.fields, Toml.legible_count]

theorem plain_partition (c : PartitionConfig) : Toml.Plain c.toJson.fields := by
  refine .of_names
    ["crawler_count", "execution_period", "initial_delay", "join_timeout", "shutdown_timeout"] rfl
    (by decide) (by decide) ?_
  simp [PartitionConfig.toJson, Json.fields, Span.toJson, Toml.legible_count, Toml.legible_string]

theorem plain_cache (c : CacheConfig) : Toml.Plain c.toJson.fields := by
  refine .of_names ["ttl", "eviction_period"] rfl (by decide) (by decide) ?_
  simp [CacheConfig.toJson, Json.fields, Span.toJson, Toml.legible_string]

theorem plain_logging (c : LoggingConfig) : Toml.Plain c.toJson.fields := by
  refine .of_names ["level"] rfl (by decide) (by decide) ?_
  simp [LoggingConfig.toJson, Json.fields, Toml.legible_string]

theorem plain_node (node : Node) : Toml.Plain node.toJson.fields := by
  refine .of_names ["name", "target_url", "supported_protocols"] rfl (by decide) (by decide) ?_
  simp [Node.toJson, Json.fields, Url.toJson, Toml.legible_string, Toml.legible_strings]

theorem legible_sections (hreal : Toml.Legible (.num c.crawler.retry.multiplier)) :
    ∀ s ∈ c.sections, s.Legible := by
  rw [sections, List.forall_mem_append]
  constructor
  · simp only [List.forall_mem_cons]
    exact ⟨Section.legible_of_own (by decide) (by decide) (flat_queue _).own (plain_queue _),
      Section.legible_of_own (by decide) (by decide) c.crawler.own_eq (plain_crawler _),
      Section.legible_of_own (by decide) (by decide) (flat_retry _).own (plain_retry hreal),
      Section.legible_of_own (by decide) (by decide) (flat_requeue _).own (plain_requeue _),
      Section.legible_of_own (by decide) (by decide) (flat_partition _).own (plain_partition _),
      Section.legible_of_own (by decide) (by decide) (flat_cache _).own (plain_cache _),
      Section.legible_of_own (by decide) (by decide) (flat_logging _).own (plain_logging _),
      List.forall_mem_nil _⟩
  · simp only [List.forall_mem_map]
    intro node _
    exact Section.legible_of_own (by decide) (by decide) (flat_node node).own (plain_node node)

end Config

end Tables

namespace Config

variable {c : Config}

def Fits (c : Config) : Prop :=
  c.queue.capacity < Number.half64 ∧ c.crawler.resultQueueCapacity < Number.half64 ∧
    c.partition.crawlerCount < Number.half64

instance (c : Config) : Decidable c.Fits := inferInstanceAs (Decidable (_ ∧ _ ∧ _))

theorem lt_half64 {n : Nat} (h : n < Number.word32) : n < Number.half64 :=
  Nat.lt_trans h (by decide)

theorem isSome_requeue {p : RequeuePolicy} (h : p.InRange) :
    ∀ f ∈ p.toJson.fields, (Toml.valueText f.2).isSome := by
  obtain ⟨maxAttempts⟩ := p
  cases maxAttempts with
  | none => exact List.forall_mem_nil _
  | some most =>
    exact List.forall_mem_singleton.2 (Toml.isSome_count.2 (lt_half64 (h most rfl)))

theorem isSome_sections (h : c.InRange) : (c.sections.mapM Section.text?).isSome ↔ c.Fits := by
  have htext (s : String) : (Toml.valueText (.str s)).isSome := rfl
  have hreal (x : Float) : (Toml.valueText (.num x)).isSome := rfl
  have hretry := lt_half64 h.crawler.retry.maxRetries
  have hrequeue := isSome_requeue h.crawler.requeue
  rw [Toml.isSome_mapM_text?, sections, List.forall_mem_append]
  simp only [List.forall_mem_cons, List.forall_mem_map, (flat_queue _).own, c.crawler.own_eq,
    (flat_retry _).own, (flat_requeue _).own, (flat_partition _).own, (flat_cache _).own,
    (flat_logging _).own, (flat_node _).own, eq_true hrequeue, true_and]
  simp [QueueConfig.toJson, CrawlerConfig.ownFields, RetryPolicy.toJson, PartitionConfig.toJson,
    CacheConfig.toJson, LoggingConfig.toJson, Node.toJson, Url.toJson, Span.toJson, Json.fields,
    Toml.isSome_count, Toml.isSome_strings, hretry, htext, hreal, Fits]

theorem legible_real {x : Float} (h : x.isNaN = false) : Toml.Legible (.num x) := by
  intro t ht
  cases ht
  refine Toml.reads_real fun hn => ?_
  rw [Double.isNaN_of_shape hn] at h
  cases h

theorem ofToml_intercalate (h : c.InRange) (hnan : c.crawler.retry.multiplier.isNaN = false)
    (hurl : ∀ node ∈ c.nodes, Url.parse? node.url.render = some node.url) {texts : List String}
    (ht : c.sections.mapM Section.text? = some texts) :
    ofToml (String.intercalate "\n" texts) = .ok c := by
  have hread := Toml.read_document (legible_sections (legible_real hnan)) ht (foldlM_sections c)
  rw [ofToml, hread, Option.bind_eq_bind, Option.bind_some, ofDatum?_table h hurl]

/-- Settings have a text unless a count of theirs does not fit a signed number, and the text reads
back as the same settings: with the same problems, the same bound on the queue and the same plan. -/
theorem toToml_ofToml (h : c.InRange) (hnan : c.crawler.retry.multiplier.isNaN = false)
    (hurl : ∀ node ∈ c.nodes, Url.parse? node.url.render = some node.url) :
    (c.toToml = .error .notSerializable ↔ ¬ c.Fits) ∧
    (c.Fits → ∃ text back, c.toToml = .ok text ∧ ofToml text = .ok back ∧ back = c ∧
      back.validate = c.validate ∧ back.queue.limit? = c.queue.limit? ∧
      ∀ number, back.partition.plan? number = c.partition.plan? number) := by
  have hsome := isSome_sections h
  rw [toToml, print_fields]
  cases ht : c.sections.mapM Section.text? with
  | none =>
    rw [ht] at hsome
    have hf : ¬ c.Fits := fun hfits => Bool.false_ne_true (hsome.2 hfits)
    exact ⟨iff_of_true rfl hf, fun hfits => absurd hfits hf⟩
  | some texts =>
    rw [ht] at hsome
    have hf : c.Fits := hsome.1 rfl
    refine ⟨iff_of_false (fun he => nomatch he) (not_not_intro hf), fun _ => ?_⟩
    exact ⟨_, c, rfl, ofToml_intercalate h hnan hurl ht, rfl, rfl, rfl, fun _ => rfl⟩

section Example

def sampleUrl : Url := ⟨"http", some ⟨"", "", .name "a.example", none⟩, "/catalog", none, none⟩

def sampleConfig : Config :=
  { standard with
    crawler := { CrawlerConfig.standard with requeue := ⟨some 3⟩ }
    nodes := [⟨"a", sampleUrl, ["dataspace-protocol-http"]⟩] }

theorem inRange_sampleConfig : sampleConfig.InRange := by
  refine ⟨by decide, ⟨by decide, by decide, by decide, ⟨by decide, by decide, by decide⟩, ?_⟩,
    ⟨by decide, by decide, by decide, by decide, by decide⟩, ⟨by decide, by decide⟩⟩
  intro most hmost
  cases hmost
  decide

theorem toToml_ofToml_sample : sampleConfig.InRange ∧
    sampleConfig.crawler.retry.multiplier.isNaN = false ∧
    (∀ node ∈ sampleConfig.nodes, Url.parse? node.url.render = some node.url) ∧
    sampleConfig.Fits ∧ ∃ text, sampleConfig.toToml = .ok text ∧ ofToml text = .ok sampleConfig := by
  have hnan : sampleConfig.crawler.retry.multiplier.isNaN = false := by decide +kernel
  have hurl : ∀ node ∈ sampleConfig.nodes, Url.parse? node.url.render = some node.url := by
    decide +kernel
  have hfits : sampleConfig.Fits := by decide
  obtain ⟨text, back, ht, hb, rfl, -⟩ := (toToml_ofToml inRange_sampleConfig hnan hurl).2 hfits
  exact ⟨inRange_sampleConfig, hnan, hurl, hfits, text, ht, hb⟩

end Example

end Config

end CatalogCrawl

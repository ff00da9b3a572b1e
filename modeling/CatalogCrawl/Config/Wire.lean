import CatalogCrawl.Config.Basic
import CatalogCrawl.Datum
import CatalogCrawl.Span.Units
import CatalogCrawl.Toml.Printer
import CatalogCrawl.Toml.Reader
import CatalogCrawl.Fault

namespace CatalogCrawl

def Span.ofDatum? (d : Datum) : Option Span := do
  Span.parse? (← d.string?)

def Span.toJson (s : Span) : Json := .str s.render

namespace QueueConfig

def toJson (c : QueueConfig) : Json := .obj [("capacity", .int c.capacity)]

def ofDatum? (rules : Datum.Rules) (d : Datum) : Option QueueConfig := do
  let fields ← d.record? rules ["capacity"]
  some { capacity := ← fields.orElse "capacity" standard.capacity Datum.count? }

instance : Written QueueConfig := ⟨ofDatum?, toJson⟩

end QueueConfig

namespace RetryPolicy

def toJson (p : RetryPolicy) : Json :=
  .obj [("max_retries", .int p.maxRetries), ("initial_interval", p.initialInterval.toJson),
    ("max_interval", p.maxInterval.toJson), ("multiplier", .num p.multiplier)]

def ofDatum? (rules : Datum.Rules) (d : Datum) : Option RetryPolicy := do
  let fields ← d.record? rules ["max_retries", "initial_interval", "max_interval", "multiplier"]
  some {
    maxRetries := ← fields.orElse "max_retries" standard.maxRetries Datum.smallCount?
    initialInterval := ← fields.orElse "initial_interval" standard.initialInterval Span.ofDatum?
    maxInterval := ← fields.orElse "max_interval" standard.maxInterval Span.ofDatum?
    multiplier := ← fields.orElse "multiplier" standard.multiplier Datum.float? }

instance : Written RetryPolicy := ⟨ofDatum?, toJson⟩

end RetryPolicy

namespace RequeuePolicy

def toJson (p : RequeuePolicy) : Json :=
  .obj (match p.maxAttempts with
    | none => []
    | some most => [("max_attempts", .int most)])

def ofDatum? (rules : Datum.Rules) (d : Datum) : Option RequeuePolicy := do
  let fields ← d.record? rules ["max_attempts"]
  some { maxAttempts := ← fields.orElse "max_attempts" none (Datum.nullable? Datum.smallCount?) }

instance : Written RequeuePolicy := ⟨ofDatum?, toJson⟩

end RequeuePolicy

namespace CrawlerConfig

def toJson (c : CrawlerConfig) : Json :=
  .obj [("wait_for_work_item", c.waitForWorkItem.toJson),
    ("request_timeout", c.requestTimeout.toJson),
    ("result_queue_capacity", .int c.resultQueueCapacity), ("retry", c.retry.toJson),
    ("requeue", c.requeue.toJson)]

def ofDatum? (rules : Datum.Rules) (d : Datum) : Option CrawlerConfig := do
  let fields ← d.record? rules
    ["wait_for_work_item", "request_timeout", "result_queue_capacity", "retry", "requeue"]
  some {
    waitForWorkItem :=
      ← fields.orElse "wait_for_work_item" standard.waitForWorkItem Span.ofDatum?
    requestTimeout := ← fields.orElse "request_timeout" standard.requestTimeout Span.ofDatum?
    resultQueueCapacity :=
      ← fields.orElse "result_queue_capacity" standard.resultQueueCapacity Datum.count?
    retry := ← fields.orElse "retry" standard.retry (RetryPolicy.ofDatum? rules)
    requeue := ← fields.orElse "requeue" standard.requeue (RequeuePolicy.ofDatum? rules) }

instance : Written CrawlerConfig := ⟨ofDatum?, toJson⟩

end CrawlerConfig

namespace PartitionConfig

def toJson (c : PartitionConfig) : Json :=
  .obj [("crawler_count", .int c.crawlerCount), ("execution_period", c.executionPeriod.toJson),
    ("initial_delay", c.initialDelay.toJson), ("join_timeout", c.joinTimeout.toJson),
    ("shutdown_timeout", c.shutdownTimeout.toJson)]

def ofDatum? (rules : Datum.Rules) (d : Datum) : Option PartitionConfig := do
  let fields ← d.record? rules
    ["crawler_count", "execution_period", "initial_delay", "join_timeout", "shutdown_timeout"]
  some {
    crawlerCount := ← fields.orElse "crawler_count" standard.crawlerCount Datum.count?
    executionPeriod := ← fields.orElse "execution_period" standard.executionPeriod Span.ofDatum?
    initialDelay := ← fields.orElse "initial_delay" standard.initialDelay Span.ofDatum?
    joinTimeout := ← fields.orElse "join_timeout" standard.joinTimeout Span.ofDatum?
    shutdownTimeout := ← fields.orElse "shutdown_timeout" standard.shutdownTimeout Span.ofDatum? }

instance : Written PartitionConfig := ⟨ofDatum?, toJson⟩

end PartitionConfig

namespace CacheConfig

def toJson (c : CacheConfig) : Json :=
  .obj [("ttl", c.ttl.toJson), ("eviction_period", c.evictionPeriod.toJson)]

def ofDatum? (rules : Datum.Rules) (d : Datum) : Option CacheConfig := do
  let fields ← d.record? rules ["ttl", "eviction_period"]
  some {
    ttl := ← fields.orElse "ttl" standard.ttl Span.ofDatum?
    evictionPeriod := ← fields.orElse "eviction_period" standard.evictionPeriod Span.ofDatum? }

instance : Written CacheConfig := ⟨ofDatum?, toJson⟩

end CacheConfig

namespace LoggingConfig

def toJson (c : LoggingConfig) : Json := .obj [("level", .str c.level)]

def ofDatum? (rules : Datum.Rules) (d : Datum) : Option LoggingConfig := do
  let fields ← d.record? rules ["level"]
  some { level := ← fields.orElse "level" standard.level Datum.string? }

instance : Written LoggingConfig := ⟨ofDatum?, toJson⟩

end LoggingConfig

namespace Config

def fields (c : Config) : List (String × Json) :=
  [("queue", c.queue.toJson), ("crawler", c.crawler.toJson), ("partition", c.partition.toJson),
    ("cache", c.cache.toJson), ("logging", c.logging.toJson)] ++
  (if c.nodes.isEmpty then [] else [("nodes", .arr (c.nodes.map Node.toJson))])

def toJson (c : Config) : Json := .obj c.fields

def ofDatum? (rules : Datum.Rules) (d : Datum) : Option Config := do
  let fields ← d.record? rules ["queue", "crawler", "partition", "cache", "logging", "nodes"]
  some {
    queue := ← fields.orElse "queue" standard.queue (QueueConfig.ofDatum? rules)
    crawler := ← fields.orElse "crawler" standard.crawler (CrawlerConfig.ofDatum? rules)
    partition := ← fields.orElse "partition" standard.partition (PartitionConfig.ofDatum? rules)
    cache := ← fields.orElse "cache" standard.cache (CacheConfig.ofDatum? rules)
    logging := ← fields.orElse "logging" standard.logging (LoggingConfig.ofDatum? rules)
    nodes := ← fields.orElse "nodes" standard.nodes (Datum.each? (Node.ofDatum? rules)) }

instance : Written Config := ⟨ofDatum?, toJson⟩

def ofToml (text : String) : Except ConfigFault Config :=
  match Toml.read text >>= Config.ofDatum? Toml.rules with
  | some c => .ok c
  | none => .error .invalidFormat

def toToml (c : Config) : Except ConfigFault String :=
  match Toml.print c.fields with
  | some text => .ok text
  | none => .error .notSerializable

end Config

end CatalogCrawl

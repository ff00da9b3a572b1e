import CatalogCrawl.Span.Basic
import CatalogCrawl.Work.Directory

namespace CatalogCrawl

structure QueueConfig where
  capacity : Nat
  deriving BEq, DecidableEq, Repr

structure RetryPolicy where
  maxRetries : Nat
  initialInterval : Span
  maxInterval : Span
  multiplier : Float
  deriving BEq

structure RequeuePolicy where
  maxAttempts : Option Nat
  deriving BEq, DecidableEq, Repr

structure CrawlerConfig where
  waitForWorkItem : Span
  requestTimeout : Span
  resultQueueCapacity : Nat
  retry : RetryPolicy
  requeue : RequeuePolicy
  deriving BEq

structure PartitionConfig where
  crawlerCount : Nat
  executionPeriod : Span
  initialDelay : Span
  joinTimeout : Span
  shutdownTimeout : Span
  deriving BEq, DecidableEq, Repr

structure CacheConfig where
  ttl : Span
  evictionPeriod : Span
  deriving BEq, DecidableEq, Repr

structure LoggingConfig where
  level : String
  deriving BEq, DecidableEq, Repr

structure Config where
  queue : QueueConfig
  crawler : CrawlerConfig
  partition : PartitionConfig
  cache : CacheConfig
  logging : LoggingConfig
  nodes : List Node
  deriving BEq

namespace QueueConfig

def standard : QueueConfig := ⟨10000⟩

def limit? (c : QueueConfig) : Option Nat :=
  if c.capacity = 0 then none else some c.capacity

end QueueConfig

namespace RetryPolicy

def standard : RetryPolicy := ⟨5, .ofMillis 10, .ofMillis 500, 2.0⟩

def withMaxRetries (n : Nat) : RetryPolicy := { standard with maxRetries := n }

end RetryPolicy

namespace RequeuePolicy

def standard : RequeuePolicy := ⟨none⟩

def isUnbounded (p : RequeuePolicy) : Bool := p.maxAttempts.isNone

def allows (p : RequeuePolicy) (attempts : Nat) : Bool :=
  match p.maxAttempts with
  | none => true
  | some most => attempts < most

theorem allows_bounded {most attempts : Nat} :
    RequeuePolicy.allows ⟨some most⟩ attempts = true ↔ attempts < most := by
  simp [allows]

end RequeuePolicy

def CrawlerConfig.standard : CrawlerConfig :=
  ⟨.ofMillis 500, .ofSecs 30, 1000, .standard, .standard⟩

def PartitionConfig.standard : PartitionConfig :=
  ⟨4, .ofSecs 60, .zero, .ofSecs 10, .ofSecs 30⟩

def PartitionConfig.maxCrawlers : Nat := 64

def CacheConfig.standard : CacheConfig := ⟨.ofSecs 3600, .ofSecs 60⟩

def LoggingConfig.standard : LoggingConfig := ⟨"info"⟩

def Config.standard : Config :=
  ⟨.standard, .standard, .standard, .standard, .standard, []⟩

end CatalogCrawl

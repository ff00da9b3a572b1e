import CatalogCrawl.Config.Basic
import CatalogCrawl.Fault

namespace CatalogCrawl

def reportIf (condition : Bool) (problem : String) : List String :=
  if condition then [problem] else []

def Span.isZero (s : Span) : Bool := s.nanos == 0

def RetryPolicy.problems (p : RetryPolicy) : List String :=
  reportIf (p.maxInterval.nanos < p.initialInterval.nanos)
    "crawler.retry.initial_interval must not exceed crawler.retry.max_interval" ++
  reportIf (p.multiplier < 1.0) "crawler.retry.multiplier must be at least 1.0"

def CrawlerConfig.problems (c : CrawlerConfig) : List String :=
  reportIf c.waitForWorkItem.isZero "crawler.wait_for_work_item must be greater than zero" ++
  reportIf c.requestTimeout.isZero "crawler.request_timeout must be greater than zero" ++
  reportIf (c.resultQueueCapacity == 0)
    "crawler.result_queue_capacity must be greater than zero" ++
  c.retry.problems ++
  reportIf (c.requeue.maxAttempts == some 0)
    "crawler.requeue.max_attempts must be greater than zero"

def PartitionConfig.problems (c : PartitionConfig) : List String :=
  reportIf (c.crawlerCount == 0) "partition.crawler_count must be greater than zero" ++
  reportIf (maxCrawlers < c.crawlerCount)
    ("partition.crawler_count (" ++ toString c.crawlerCount ++ ") exceeds maximum (" ++
      toString maxCrawlers ++ ")") ++
  reportIf c.executionPeriod.isZero "partition.execution_period must be greater than zero"

def CacheConfig.problems (c : CacheConfig) : List String :=
  reportIf c.ttl.isZero "cache.ttl must be greater than zero" ++
  reportIf c.evictionPeriod.isZero "cache.eviction_period must be greater than zero"

def LoggingConfig.isLevel (text : String) : Bool :=
  let names := ["error", "warn", "info", "debug", "trace"]
  names.contains (String.ofList (text.toList.map Char.toLower)) || isLevelNumber text.toList
where
  isLevelNumber (text : List Char) : Bool :=
    let digits := match text with
      | '+' :: rest => rest
      | text => text
    match digits.dropWhile (· == '0') with
    | [d] => '1' ≤ d && d ≤ '5'
    | _ => false

def LoggingConfig.problems (c : LoggingConfig) : List String :=
  reportIf (!isLevel c.level) ("logging.level '" ++ c.level ++ "' is not a log level")

def repeatedNames (seen : List String) : List Node → List String
  | [] => []
  | node :: rest =>
    (if seen.contains node.name then [node.name] else []) ++ repeatedNames (node.name :: seen) rest

namespace Config

def nodeProblems (nodes : List Node) : List String :=
  (repeatedNames [] nodes).map fun name => "nodes: duplicate node name '" ++ name ++ "'"

def problems (c : Config) : List String :=
  c.crawler.problems ++ c.partition.problems ++ c.cache.problems ++ c.logging.problems ++
    nodeProblems c.nodes

def validate (c : Config) : Except ConfigFault Unit :=
  if c.problems.isEmpty then .ok () else .error (.invalid c.problems)

end Config

end CatalogCrawl

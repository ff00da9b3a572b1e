import CatalogCrawl.Config.Check
import CatalogCrawl.World.Run

namespace CatalogCrawl

structure SessionSummary where
  crawl : CrawlStats
  loader : LoadCount
  queue : QueueStats
  cachedOffers : Nat
  duration : Span
  cleanShutdown : Bool
  deriving DecidableEq, Repr

namespace SessionSummary

def zero : SessionSummary := ⟨.zero, .zero, ⟨0, 0, 0, 0, 0⟩, 0, .zero, false⟩

def durationJson (s : Span) : Json := .obj [("secs", .int s.secs), ("nanos", .int s.subsec)]

def durationOfDatum? (d : Datum) : Option Span := do
  let (secs, nanos) ← match d with
    | .list [secs, nanos] => some (secs, nanos)
    | .table fields => do
      if !fields.all fun (k, _) => k == some "secs" || k == some "nanos" then none
      let known ← Datum.knownFields ["secs", "nanos"] fields
      some (← Json.field? "secs" known, ← Json.field? "nanos" known)
    | _ => none
  let span := Span.ofParts (← secs.count?) (← nanos.smallCount?)
  if span.secs < Number.word64 then some span else none

def toJson (s : SessionSummary) : Json :=
  .obj [("crawl", s.crawl.toJson), ("loader", s.loader.toJson), ("queue", s.queue.toJson),
    ("cached_offers", .int s.cachedOffers), ("duration", durationJson s.duration),
    ("clean_shutdown", .bool s.cleanShutdown)]

def ofDatum? (rules : Datum.Rules) (d : Datum) : Option SessionSummary := do
  let fields ← d.record? rules
    ["crawl", "loader", "queue", "cached_offers", "duration", "clean_shutdown"]
  some {
    crawl := ← fields.required "crawl" (CrawlStats.ofDatum? rules)
    loader := ← fields.required "loader" (LoadCount.ofDatum? rules)
    queue := ← fields.required "queue" (QueueStats.ofDatum? rules)
    cachedOffers := ← fields.required "cached_offers" Datum.count?
    duration := ← fields.required "duration" durationOfDatum?
    cleanShutdown := ← fields.required "clean_shutdown" Datum.bool? }

instance : Written SessionSummary := ⟨ofDatum?, toJson⟩

end SessionSummary

namespace World

def startLoader (w : World) (q : ResultQueue) : World :=
  let results := w.results.length
  let signal := w.background.signal
  let w := { w with results := w.results ++ [q], loaded := w.loaded ++ [LoadCount.zero] }
  let (id, w) := w.spawn (.load ⟨results, signal, (w.signal signal).version, .receiving⟩)
  { w with background := { w.background with
      loader := some id
      others := w.background.others ++ w.background.loader.toList } }

def startEviction (w : World) (ttl period : Span) : World :=
  let signal := w.background.signal
  let (id, w) := w.spawn (.evict ⟨ttl, period, signal, (w.signal signal).version, .starting⟩)
  { w with background := { w.background with others := w.background.others ++ [id] } }

def dropManager (w : World) : World :=
  let m := w.manager
  let w := match m.pool with
    | some pool => w.dropPool pool
    | none => w
  let w := match m.schedule with
    | some s => w.abort s.task
    | none => w
  { w with
    results := w.results.modify 0 ResultQueue.dropSender
    manager := { m with pool := none, schedule := none, pending := [] } }

def noNodesMessage : String := "No nodes configured: crawlers will idle until the session stops"

def follow? (w : World) (p : Plan) : Except Crash World :=
  if w.shows (w.now + p.delay.nanos) then .ok (w.follow p) else .error .instant

def furnish (files : Files) (c : Config) (adapters : List Adapter) (uptime : Nat) : World :=
  let workload := CatalogCrawl.workload c.nodes
  let w := World.empty c.queue .log
  let w := if workload.isEmpty then w.warn noNodesMessage else w
  { w.withManager c.partition c.crawler true workload with
    uptime := uptime
    registry := .ofList adapters
    clock := .own 0
    queryAdapters := [.cache]
    files := files }

def populate (w : World) (c : Config) (q : ResultQueue) : World :=
  ((w.startLoader q).startEviction c.cache.ttl c.cache.evictionPeriod).spawnPool

def startSession (files : Files) (c : Config) (adapters : List Adapter) (uptime : Nat) :
    Except Halt World := do
  c.validate.mapError fun fault => .refused (.config fault)
  let q ← (ResultQueue.make? c.crawler.resultQueueCapacity 1).mapError .crashed
  let w := (furnish files c adapters uptime).populate c q
  let p ← (c.partition.plan? w.nextPlan).mapError fun fault => .refused (.crawl fault)
  ({ w with nextPlan := w.nextPlan + 1 }.follow? p).mapError .crashed

def query (w : World) (q : Query) : QueryResponse × World :=
  let f := q.run w.queryAdapters w.store Criterion.condition
  let w := if f.duration.nanos = 0 then w else w.runTo (w.now + f.duration.nanos)
  let w := f.faults.foldl (fun w (name, fault) =>
    w.warn ("Query adapter " ++ name ++ " failed: " ++ fault.message)) w
  (f.response, w)

def summary (w : World) (isClean : Bool) : SessionSummary :=
  { crawl := w.stats
    loader := (w.loaded.head?).getD .zero
    queue := w.queue.stats
    cachedOffers := w.store.size
    duration := ⟨w.now⟩
    cleanShutdown := isClean }

def windUp (w : World) (timeout : Span) (fault? : Option CrawlFault) : SessionSummary × World :=
  let w := match fault? with
    | some fault => w.warn ("Crawl session did not stop cleanly: " ++ fault.message)
    | none => w
  let w := { w with queue := w.queue.close }.dropManager
  let (_, w) := w.call (.windDown (.entering timeout))
  (w.summary fault?.isNone, w)

def endSession (w : World) (timeout : Span) : Except Crash (SessionSummary × World) :=
  match w.call (.manage ⟨.stop, .entering⟩) with
  | (some ⟨_, _, .crashed crash⟩, _) => .error crash
  | (some ⟨_, _, .managed (.error fault)⟩, w) => .ok (w.windUp timeout (some fault))
  | (_, w) => .ok (w.windUp timeout none)

end World

end CatalogCrawl

import CatalogCrawl.Cache.Query
import CatalogCrawl.Crawl.Activity
import CatalogCrawl.Queue.Turnstile
import CatalogCrawl.World.Task

namespace CatalogCrawl

inductive PoolState
  | created | running | shuttingDown | shutDown
  deriving DecidableEq, Repr

def PoolState.name : PoolState → String
  | created => "created"
  | running => "running"
  | shuttingDown => "shutting down"
  | shutDown => "shut down"

structure Pool where
  state : PoolState
  signal : Nat
  activity : Nat
  crawlers : List TaskId
  deriving DecidableEq, Repr

structure Schedule where
  plan : Plan
  task : TaskId
  signal : Nat
  deriving DecidableEq, Repr

structure Manager where
  crawlerCount : Nat
  crawler : CrawlerConfig
  numbered : Bool
  built : Nat
  workload : List WorkItem
  joinTimeout : Span
  shutdownTimeout : Span
  slot : Turnstile
  pool : Option Nat
  schedule : Option Schedule
  pending : List Plan

inductive StoreClock
  | shared
  | own (looks : Nat)
  deriving DecidableEq, Repr

structure Background where
  loader : Option TaskId
  others : List TaskId
  signal : Nat
  deriving DecidableEq, Repr

structure World where
  now : Nat
  uptime : Nat
  /-- Tasks in the order in which they began to wait. -/
  jobs : List Job
  nextId : TaskId
  ended : List EndedJob
  queue : WorkQueue
  refillLock : Turnstile
  results : List ResultQueue
  loaded : List LoadCount
  signals : List Signal
  activities : List Activity
  pools : List Pool
  manager : Manager
  registry : Registry
  gateOpen : Bool
  stats : CrawlStats
  journal : Journal
  store : Store
  clock : StoreClock
  queryAdapters : List QueryAdapter
  background : Background
  files : Files
  nextPlan : Nat
  /-- When plans acted by pausing, the latest first. -/
  pauses : List Nat
  /-- When responses that were to be sent later were accepted, the latest first. -/
  sentAt : List Nat

namespace Manager

def clampCount (count : Nat) : Nat := max 1 (min count PartitionConfig.maxCrawlers)

def ofConfig (c : PartitionConfig) (crawler : CrawlerConfig) (numbered : Bool)
    (workload : List WorkItem) : Manager :=
  { crawlerCount := clampCount c.crawlerCount
    crawler := crawler
    numbered := numbered
    built := 0
    workload := workload
    joinTimeout := c.joinTimeout
    shutdownTimeout := c.shutdownTimeout
    slot := .free
    pool := none
    schedule := none
    pending := [] }

def clampNotice? (count : Nat) : Option String :=
  if clampCount count = count then none
  else some ("Requested " ++ toString count ++ " crawlers, using " ++ toString (clampCount count) ++
    " (allowed range 1..=" ++ toString PartitionConfig.maxCrawlers ++ ")")

def describe (m : Manager) : String :=
  "PartitionManager \x7b crawler_count: " ++ toString m.crawlerCount ++ ", workload: " ++
    toString m.workload.length ++ ", join_timeout: " ++ m.joinTimeout.brief ++
    ", shutdown_timeout: " ++ m.shutdownTimeout.brief ++ ", .. \x7d"

end Manager

namespace World

def empty (queue : QueueConfig) (monitor : MonitorKind) : World :=
  { now := 0
    uptime := 0
    jobs := []
    nextId := 0
    ended := []
    queue := .empty queue
    refillLock := .free
    results := []
    loaded := []
    signals := [.fresh false]
    activities := []
    pools := []
    manager := .ofConfig .standard .standard false []
    registry := .empty
    gateOpen := true
    stats := .zero
    journal := .empty monitor
    store := .empty
    clock := .shared
    queryAdapters := []
    background := ⟨none, [], 0⟩
    files := .empty []
    nextPlan := 1
    pauses := []
    sentAt := [] }

section Parts

def shows (w : World) (time : Nat) : Bool :=
  w.uptime + time < Number.half64 * Span.nanosInSec

def signal (w : World) (i : Nat) : Signal := (w.signals[i]?).getD ⟨false, 0, false⟩

def setSignal (w : World) (i : Nat) (raised : Bool) : World :=
  { w with signals := w.signals.modify i (·.set raised) }

def loseSignal (w : World) (i : Nat) : World :=
  { w with signals := w.signals.modify i Signal.lose }

def addSignal (w : World) (raised : Bool) : Nat × World :=
  (w.signals.length, { w with signals := w.signals ++ [.fresh raised] })

def activity (w : World) (i : Nat) : Activity := (w.activities[i]?).getD .idle

def changeActivity (w : World) (i : Nat) (f : Activity → Activity) : World :=
  { w with activities := w.activities.modify i f }

def addActivity (w : World) : Nat × World :=
  (w.activities.length, { w with activities := w.activities ++ [.idle] })

def changePool (w : World) (i : Nat) (f : Pool → Pool) : World :=
  { w with pools := w.pools.modify i f }

def changeManager (w : World) (f : Manager → Manager) : World := { w with manager := f w.manager }

def setResults (w : World) (i : Nat) (q : ResultQueue) : World :=
  { w with results := w.results.set i q }

def report (w : World) (e : Entry) : World := { w with journal := w.journal.report e }

def warn (w : World) (message : String) : World := { w with journal := w.journal.warn message }

end Parts

section Jobs

def spawn (w : World) (t : Task) : TaskId × World :=
  (w.nextId, { w with jobs := w.jobs ++ [⟨w.nextId, t⟩], nextId := w.nextId + 1 })

def job? (w : World) (id : TaskId) : Option Job := w.jobs.find? (·.id == id)

def isLive (w : World) (id : TaskId) : Bool := w.jobs.any (·.id == id)

def removeJob (w : World) (id : TaskId) : World :=
  { w with jobs := w.jobs.filter (·.id != id) }

def keepFirst (w : World) (id : TaskId) (t : Task) : World :=
  { w with jobs := ⟨id, t⟩ :: (w.removeJob id).jobs }

def keepLast (w : World) (id : TaskId) (t : Task) : World :=
  { w with jobs := (w.removeJob id).jobs ++ [⟨id, t⟩] }

def keepInPlace (w : World) (id : TaskId) (t : Task) : World :=
  { w with jobs := w.jobs.map fun j => if j.id == id then ⟨id, t⟩ else j }

def finish (w : World) (id : TaskId) (r : TaskResult) : World :=
  { w.removeJob id with ended := ⟨id, w.now, r⟩ :: w.ended }

def result? (w : World) (id : TaskId) : Option EndedJob := w.ended.find? (·.id == id)

def hasCrashed (w : World) (id : TaskId) : Bool :=
  match w.result? id with
  | some ⟨_, _, .crashed _⟩ => true
  | _ => false

def hasSenders (w : World) (results : Nat) : Bool :=
  (match w.results[results]? with
    | some q => 0 < q.senders
    | none => false) ||
  w.jobs.any fun j => j.task.sendsTo results

end Jobs

end World

end CatalogCrawl

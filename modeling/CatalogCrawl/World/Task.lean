import CatalogCrawl.Crawl.Cycle
import CatalogCrawl.Crawl.Delivery
import CatalogCrawl.Crawl.Plan

namespace CatalogCrawl

structure Signal where
  raised : Bool
  version : Nat
  isAlive : Bool
  deriving DecidableEq, Repr

namespace Signal

def fresh (raised : Bool) : Signal := ⟨raised, 0, true⟩

def set (s : Signal) (raised : Bool) : Signal :=
  { s with raised := raised, version := s.version + 1 }

def lose (s : Signal) : Signal := { s with isAlive := false }

/-- Whether one who has seen a version has something to learn. -/
def hasNews (s : Signal) (seen : Nat) : Bool := s.version != seen || !s.isAlive

end Signal

abbrev TaskId := Nat

inductive CrawlStage
  | looking
  | polling (ticket deadline seen : Nat)
  | matching (item : WorkItem)
  deriving DecidableEq, Repr

/-- What a crawler does with the items it finds: it works on one after another and is counted as
busy meanwhile, or works on one, or hands it out. -/
inductive CrawlMode
  | steady (activity : Nat)
  | single
  | fetch
  deriving DecidableEq, Repr

structure CrawlTask where
  crawler : Crawler
  signal : Nat
  results : Nat
  mode : CrawlMode
  stage : CrawlStage
  doomed : Bool

inductive CallStage
  | starting
  | answering (due : Nat) (warnAt : Option Nat) (outcome : Except AdapterFault Response)
  | delivering (delivery : Delivery) (due : Nat)

structure CallTask where
  crawler : Crawler
  results : Nat
  adapter : Nat
  request : Request
  stage : CallStage

inductive PlanAction
  | refill
  | pause (lengths : List Span)
  deriving DecidableEq, Repr

inductive PlanStage
  | looking
  | ticking (seen : Nat)
  | locking
  | pausing (due : Nat)
  deriving DecidableEq, Repr

structure PlanTask where
  ticker : Ticker
  signal : Nat
  action : PlanAction
  stage : PlanStage
  deriving DecidableEq, Repr

inductive LoadStage
  | receiving
  | saving (response : Response) (left : List Offer)

structure LoadTask where
  results : Nat
  signal : Nat
  seen : Nat
  stage : LoadStage

inductive EvictionStage
  | starting
  | ticking (ticker : Ticker)
  deriving DecidableEq, Repr

structure EvictionTask where
  ttl : Span
  period : Span
  signal : Nat
  seen : Nat
  stage : EvictionStage
  deriving DecidableEq, Repr

/-- Waits for crawlers to end, one after another; those still running at the deadline are aborted
and counted. -/
structure Join where
  pool : Nat
  left : List TaskId
  deadline : Nat
  timeout : Span
  aborted : Nat
  deriving DecidableEq, Repr

inductive ManagerCall
  | start
  | restart
  | stop
  | update (plan : Plan)
  | shutdownPool (pool : Nat) (timeout : Span)
  deriving DecidableEq, Repr

inductive ManagerStage
  | entering
  | planEnding (plan : TaskId) (deadline : Nat)
  | slotWanted
  | crawlersEnding (join : Join)
  | idleWanted (activity deadline : Nat)
  deriving DecidableEq, Repr

structure ManagerTask where
  call : ManagerCall
  stage : ManagerStage
  deriving DecidableEq, Repr

inductive WindDown
  | entering (timeout : Span)
  | draining (timeout : Span) (deadline : Nat)
  | ending (timeout : Span) (left : List TaskId) (deadline : Nat)
  deriving DecidableEq, Repr

inductive Task
  | crawl (t : CrawlTask)
  | call (t : CallTask)
  | plan (t : PlanTask)
  | load (t : LoadTask)
  | evict (t : EvictionTask)
  | manage (t : ManagerTask)
  | windDown (t : WindDown)
  | send (results : Nat) (response : Response) (due : Nat)
  | poll (ticket : Option Nat) (deadline : Nat)
  | refill (items : List WorkItem) (entered : Bool)
  | lock (deadline : Nat) (entered : Bool)
  | awaitIdle (activity deadline : Nat)

def Task.sendsTo (t : Task) (results : Nat) : Bool :=
  match t with
  | .crawl c => c.results == results
  | .call c => c.results == results
  | .send r _ _ => r == results
  | _ => false

inductive TaskResult
  | nothing
  | item (item : Option WorkItem)
  | cycle (outcome : Outcome)
  | count (n : Nat)
  | flag (b : Bool)
  | plan (p : Plan)
  | managed (r : Except CrawlFault Unit)
  | crashed (crash : Crash)

structure Job where
  id : TaskId
  task : Task

structure EndedJob where
  id : TaskId
  time : Nat
  result : TaskResult

end CatalogCrawl

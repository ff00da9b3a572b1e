import CatalogCrawl.Crawl.Adapter
import CatalogCrawl.Crawl.Monitor
import CatalogCrawl.Crawl.Stats
import CatalogCrawl.Queue.WorkQueue

namespace CatalogCrawl

structure Crawler where
  id : Nat
  config : CrawlerConfig

structure Cycle where
  outcome : Outcome
  queue : WorkQueue
  entries : List Entry
  calls : List Nat

namespace Cycle

def noAdapterMessage (protocol : String) : String :=
  "No Adapter found for protocol " ++ protocol

def droppedMessage (item : WorkItem) : String :=
  "Dropping work item " ++ item.render ++ " after " ++ toString item.attempts ++ " attempts"

def rejectedMessage (item : WorkItem) : String :=
  "Requeueing work item " ++ item.render ++ " failed: queue is full or closed"

def unmatched (policy : RequeuePolicy) (queue : WorkQueue) (item : WorkItem) : Cycle :=
  let message := noAdapterMessage item.protocol
  let failed := item.withError message
  if policy.allows failed.attempts then
    match queue.offer failed with
    | (true, queue) => ⟨.requeued, queue, [.severe message], []⟩
    | (false, queue) =>
      ⟨.requeueRejected, queue, [.severe message, .severe (rejectedMessage failed)], []⟩
  else
    ⟨.dropped failed.attempts, queue, [.severe message, .severe (droppedMessage failed)], []⟩

def run (policy : RequeuePolicy) (registry : Registry) (queue : WorkQueue) (item : WorkItem) :
    Cycle :=
  let positions := (registry.matching item.protocol).map Prod.fst
  if positions.isEmpty then unmatched policy queue item
  else ⟨.dispatched positions.length, queue, [], positions⟩

end Cycle

end CatalogCrawl

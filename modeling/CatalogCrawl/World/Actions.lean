import CatalogCrawl.World.Session

namespace CatalogCrawl.World

def change (w : World) (f : World → World) : World := (f w).settle

section Waiting

def perform (w : World) (t : Task) : Option TaskResult × World :=
  let (ended, w) := w.call t
  (ended.map EndedJob.result, w.settle)

def launch (w : World) (t : Task) : TaskId × World :=
  let (id, w) := w.spawn t
  (id, w.settle)

def performWithin (w : World) (t : Task) (limit : Span) (meanwhile : Option (Span × (World → World))) :
    Option TaskResult × World :=
  let deadline := w.now + limit.nanos
  let (id, started) := w.spawn t
  let isDone (w : World) : Bool := !w.isLive id
  let after := started.step (.turn id true)
  let after := match meanwhile with
    | none => after
    | some (delay, f) =>
      if limit.nanos < delay.nanos then after
      else
        let reached := after.runUntil (w.now + delay.nanos) isDone
        if isDone reached then reached else (reached.runTo (w.now + delay.nanos)).change f
  let after := after.runUntil deadline isDone
  match after.result? id with
  | some e => (some e.result, after.settle)
  | none => (none, (after.runTo deadline).change (·.abort id))

end Waiting

section Queues

def offer (w : World) (i : WorkItem) : Bool × World :=
  let (added, queue) := w.queue.offer i
  (added, w.change fun w => { w with queue := queue })

def addAll (w : World) (items : List WorkItem) : Nat × World :=
  let (added, queue) := w.queue.addAll items
  (added, w.change fun w => { w with queue := queue })

def closeQueue (w : World) : World := w.change fun w => { w with queue := w.queue.close }

def pollTask (w : World) (timeout : Span) : Task := .poll none (w.now + timeout.nanos)

def poll (w : World) (timeout : Span) : Option WorkItem × World :=
  match w.perform (w.pollTask timeout) with
  | (some (.item i), w) => (i, w)
  | (_, w) => (none, w)

def refill (w : World) (items : List WorkItem) : Nat × World :=
  match w.perform (.refill items false) with
  | (some (.count n), w) => (n, w)
  | (_, w) => (0, w)

def lockRefills (w : World) (timeout : Span) : Option TaskId × World :=
  match w.call (.lock (w.now + timeout.nanos) false) with
  | (some ⟨id, _, .flag true⟩, w) => (some id, w.settle)
  | (_, w) => (none, w.settle)

def unlockRefills (w : World) (holder : TaskId) : World := w.change (·.leaveLock holder)

def takeHeld (w : World) (results : Nat) : Nat → List Response × World
  | 0 => ([], w)
  | n + 1 =>
    match w.results[results]? >>= ResultQueue.receive? with
    | none => ([], w)
    | some (r, q) =>
      let (rest, w) := takeHeld (w.setResults results q) results n
      (r :: rest, w)

def receive (w : World) (results : Nat) (limit : Option Nat) : List Response × World :=
  let held := match w.results[results]? with
    | some q => q.held.length
    | none => 0
  let (received, w) := w.takeHeld results (limit.getD held)
  (received, w.settle)

end Queues

section Crawlers

def process (w : World) (c : Crawler) (i : WorkItem) : Outcome × World :=
  let (outcome, w) := w.work c 0 i
  (outcome, w.settle)

def loneCrawler (c : Crawler) (mode : CrawlMode) : Task := .crawl ⟨c, 0, 0, mode, .looking, false⟩

def awaitIdle (w : World) (activity : Nat) (timeout : Span) : Bool × World :=
  match w.perform (.awaitIdle activity (w.now + timeout.nanos)) with
  | (some (.flag b), w) => (b, w)
  | (_, w) => (false, w)

def startCrawlers (w : World) (pool : Nat) (crew : List Crawler) : Except Halt Unit × World :=
  match w.startPool pool crew with
  | .ok w => (.ok (), w.settle)
  | .error fault => (.error (.refused (.crawl fault)), w)

def manage (w : World) (c : ManagerCall) : Except Halt Unit × World :=
  match w.perform (.manage ⟨c, .entering⟩) with
  | (some (.managed r), w) => (r.mapError fun fault => .refused (.crawl fault), w)
  | (some (.crashed crash), w) => (.error (.crashed crash), w)
  | (_, w) => (.ok (), w)

end Crawlers

section Plans

def makePlan (w : World) (make : Nat → Except CrawlFault Plan) : Except CrawlFault (Plan × World) := do
  let p ← make w.nextPlan
  .ok (p, { w with nextPlan := w.nextPlan + 1 })

def schedule (w : World) (p : Plan) : Except Crash World := do
  let w ← w.follow? p
  .ok w.settle

def updateAll (w : World) (plans : List Plan) : List Plan × World :=
  let (ids, w) := plans.foldl (fun (ids, (w : World)) p =>
    let (id, w) := w.spawn (.manage ⟨.update p, .entering⟩)
    (ids ++ [id], w)) (([] : List TaskId), w)
  let w := w.runUntil endOfTime fun w => ids.all fun id => !w.isLive id
  let agreed := ids.filterMap fun id =>
    match w.result? id with
    | some ⟨_, _, .plan p⟩ => some p
    | _ => none
  (agreed, w.settle)

end Plans

section Adapters

def addAdapter (w : World) (a : Adapter) : World :=
  { w with registry := w.registry.register a }

def addQueryAdapter (w : World) (a : QueryAdapter) : World :=
  { w with queryAdapters := w.queryAdapters ++ [a] }

end Adapters

end CatalogCrawl.World

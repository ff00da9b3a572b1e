import CatalogCrawl.World.Basic

namespace CatalogCrawl

namespace World

def abort (w : World) (id : TaskId) : World :=
  match w.job? id with
  | none => w
  | some j =>
    match j.task with
    | .crawl t =>
      match t.stage with
      | .matching _ => w.keepInPlace id (.crawl { t with doomed := true })
      | .polling ticket _ _ => { w with queue := w.queue.cancel ticket }.removeJob id
      | .looking => w.removeJob id
    | .poll (some ticket) _ => { w with queue := w.queue.cancel ticket }.removeJob id
    | _ => { w with refillLock := w.refillLock.leave id }.removeJob id

section Pools

def addPool (w : World) : Nat × World :=
  let (signal, w) := w.addSignal false
  let (activity, w) := w.addActivity
  (w.pools.length, { w with pools := w.pools ++ [⟨.created, signal, activity, []⟩] })

def crawlTask (p : Pool) (c : Crawler) : Task :=
  .crawl ⟨c, p.signal, 0, .steady p.activity, .looking, false⟩

def fillPool (w : World) (pool : Nat) (crawlers : List Crawler) : World :=
  crawlers.foldl (fun w c =>
    match w.pools[pool]? with
    | none => w
    | some p =>
      let (id, w) := w.spawn (crawlTask p c)
      w.changePool pool fun p => { p with crawlers := p.crawlers ++ [id] }) w

def startPool (w : World) (pool : Nat) (crawlers : List Crawler) : Except CrawlFault World :=
  match w.pools[pool]? with
  | none => .ok w
  | some p =>
    if p.state = .created then
      .ok ((w.fillPool pool crawlers).changePool pool fun p => { p with state := .running })
    else .error (.invalidState "start" p.state.name)

def withManager (w : World) (c : PartitionConfig) (crawler : CrawlerConfig) (numbered : Bool)
    (workload : List WorkItem) : World :=
  let w := { w with manager := .ofConfig c crawler numbered workload }
  match Manager.clampNotice? c.crawlerCount with
  | some notice => w.warn notice
  | none => w

def makeCrawlers (m : Manager) : List Crawler :=
  (List.range m.crawlerCount).map fun i => ⟨if m.numbered then m.built + i else 0, m.crawler⟩

def unboundedMessage : String :=
  "Requeue policy is unbounded: work items for protocols without an adapter will be requeued forever"

def spawnPool (w : World) : World :=
  let m := w.manager
  let crawlers := makeCrawlers m
  let w := if m.crawler.requeue.isUnbounded then w.warn unboundedMessage else w
  let (pool, w) := w.addPool
  let w := (w.fillPool pool crawlers).changePool pool fun p => { p with state := .running }
  w.changeManager fun m => { m with built := m.built + crawlers.length, pool := some pool }

def beginShutdown (w : World) (pool : Nat) (timeout : Span) : World × Option Join :=
  match w.pools[pool]? with
  | none => (w, none)
  | some p =>
    if p.state = .shutDown then (w, none)
    else
      let w := if p.state = .running then w
        else w.warn ("Shutting down crawler pool in state: " ++ p.state.name)
      let w := (w.changePool pool fun p => { p with state := .shuttingDown }).setSignal p.signal true
      (w, some ⟨pool, p.crawlers, w.now + timeout.nanos, timeout, 0⟩)

def join (w : World) (deadline : Nat) (aborted : Nat) : List TaskId → World × List TaskId × Nat
  | [] => (w, [], aborted)
  | id :: rest =>
    if !w.isLive id then join w deadline aborted rest
    else if deadline ≤ w.now then join (w.abort id) deadline (aborted + 1) rest
    else (w, id :: rest, aborted)

def crashedCrawlers (w : World) (pool : Nat) : Nat :=
  match w.pools[pool]? with
  | some p => p.crawlers.countP w.hasCrashed
  | none => 0

def endShutdown (w : World) (j : Join) : World × Except CrawlFault Unit :=
  let crashed := w.crashedCrawlers j.pool
  let w := if crashed = 0 then w
    else w.warn (toString crashed ++ " crawlers panicked before shutdown")
  let w := w.changePool j.pool fun p => { p with state := .shutDown, crawlers := [] }
  if j.aborted = 0 then (w, .ok ())
  else
    (w.warn ("Aborted " ++ toString j.aborted ++ " crawlers still running at shutdown deadline"),
      .error (.shutdownTimeout j.aborted (j.timeout.millis % Number.word64)))

def dropPool (w : World) (pool : Nat) : World :=
  match w.pools[pool]? with
  | none => w
  | some p => (p.crawlers.foldl abort w).loseSignal p.signal

end Pools

section Schedules

def follow (w : World) (p : Plan) : World :=
  let (signal, w) := w.addSignal false
  let ticker := Ticker.start p.period.nanos (w.now + p.delay.nanos)
  let (task, w) := w.spawn (.plan ⟨ticker, signal, .refill, .looking⟩)
  let w := match w.manager.schedule with
    | none => w
    | some earlier => w.setSignal earlier.signal true
  w.changeManager fun m => { m with schedule := some ⟨p, task, signal⟩ }

def submit (w : World) (p : Plan) : World :=
  w.changeManager fun m => { m with pending := m.pending ++ [p] }

def agree (w : World) (p : Plan) : Plan × World :=
  let agreed := Plan.agree w.manager.pending p
  (agreed, w.changeManager fun m => { m with pending := [agreed] })

def pendingPlan? (w : World) : Option Plan := Plan.collate? w.manager.pending

end Schedules

def enterSlot (w : World) (who : Nat) : World :=
  w.changeManager fun m => { m with slot := m.slot.enter who }

def leaveSlot (w : World) (who : Nat) : World :=
  w.changeManager fun m => { m with slot := m.slot.leave who }

def setPool (w : World) (pool : Option Nat) : World :=
  w.changeManager fun m => { m with pool := pool }

end World

namespace ManagerTask

def stay (w : World) (id : TaskId) (t : ManagerTask) (stage : ManagerStage) : World :=
  w.keepLast id (.manage { t with stage := stage })

def done (w : World) (id : TaskId) : World := w.finish id (.managed (.ok ()))

def reportLate (w : World) (message : String) : Except CrawlFault Unit → World
  | .ok _ => w
  | .error fault => w.report (.severeDueTo message fault.message)

def afterShutdown (w : World) (id : TaskId) (t : ManagerTask) (pool : Nat)
    (r : Except CrawlFault Unit) : World :=
  match t.call with
  | .stop =>
    ((reportLate w "Not all crawlers stopped in time" r).dropPool pool).finish id (.managed r)
  | .restart =>
    let w := reportLate w "Crawlers did not stop in time during restart" r
    done ((w.dropPool pool).spawnPool.leaveSlot id) id
  | _ => w.finish id (.managed r)

def awaitCrawlers (w : World) (id : TaskId) (t : ManagerTask) (j : Join) : World :=
  match w.join j.deadline j.aborted j.left with
  | (w, [], aborted) =>
    let (w, r) := w.endShutdown { j with left := [], aborted := aborted }
    t.afterShutdown w id j.pool r
  | (w, left, aborted) =>
    t.stay w id (.crawlersEnding { j with left := left, aborted := aborted })

def crash (w : World) (id : TaskId) (t : ManagerTask) (pool : Nat) (crash : Crash) : World :=
  match t.call with
  | .shutdownPool _ _ => w.finish id (.crashed crash)
  | _ => ((w.dropPool pool).leaveSlot id).finish id (.crashed crash)

def shutDown (w : World) (id : TaskId) (t : ManagerTask) (pool : Nat) (timeout : Span) : World :=
  match w.beginShutdown pool timeout with
  | (w, none) => t.afterShutdown w id pool (.ok ())
  | (w, some j) =>
    if w.shows j.deadline then t.awaitCrawlers w id j else t.crash w id pool .instant

def collate (w : World) (id : TaskId) (p : Plan) (idle : Bool) : World :=
  let w := if idle then w
    else w.report (.severe "Warning: not all crawlers finished in time!")
  let (agreed, w) := w.agree p
  w.finish id (.plan agreed)

def awaitIdle (w : World) (id : TaskId) (t : ManagerTask) (p : Plan) (activity deadline : Nat) :
    World :=
  if (w.activity activity).isIdle then collate w id p true
  else if deadline ≤ w.now then collate w id p false
  else t.stay w id (.idleWanted activity deadline)

def decideSlot (w : World) (id : TaskId) (t : ManagerTask) : World :=
  match t.call with
  | .start =>
    match w.manager.pool >>= (w.pools[·]?) with
    | some p => (w.leaveSlot id).finish id (.managed (.error (.invalidState "start" p.state.name)))
    | none => done (w.spawnPool.leaveSlot id) id
  | .restart =>
    match w.manager.pool with
    | some pool => t.shutDown (w.setPool none) id pool w.manager.shutdownTimeout
    | none => done (w.spawnPool.leaveSlot id) id
  | .stop =>
    let taken := w.manager.pool
    let w := (w.setPool none).leaveSlot id
    match taken with
    | none => done w id
    | some pool => t.shutDown w id pool w.manager.shutdownTimeout
  | .update p =>
    let pool := w.manager.pool >>= (w.pools[·]?)
    let w := w.leaveSlot id
    match pool with
    | none => collate w id p true
    | some pool => t.awaitIdle w id p pool.activity (w.now + w.manager.joinTimeout.nanos)
  | .shutdownPool _ _ => w.removeJob id

def askSlot (w : World) (id : TaskId) (t : ManagerTask) : World :=
  let w := w.enterSlot id
  if w.manager.slot.heldBy id then t.decideSlot w id else t.stay w id .slotWanted

def awaitPlan (w : World) (id : TaskId) (t : ManagerTask) (plan : TaskId) (deadline : Nat) : World :=
  if !w.isLive plan then t.askSlot w id
  else if deadline ≤ w.now then
    t.askSlot ((w.abort plan).warn "Refill schedule did not stop in time, aborted") id
  else t.stay w id (.planEnding plan deadline)

def enter (w : World) (id : TaskId) (t : ManagerTask) : World :=
  match t.call with
  | .start | .restart => t.askSlot w id
  | .update p => t.askSlot (w.submit p) id
  | .stop =>
    match w.manager.schedule with
    | none => t.askSlot w id
    | some s =>
      let w := (w.changeManager fun m => { m with schedule := none }).setSignal s.signal true
      t.awaitPlan w id s.task (w.now + w.manager.shutdownTimeout.nanos)
  | .shutdownPool pool timeout => t.shutDown w id pool timeout

def isReady (w : World) (id : TaskId) (t : ManagerTask) : Bool :=
  match t.stage with
  | .entering => true
  | .planEnding plan deadline => !w.isLive plan || deadline ≤ w.now
  | .slotWanted => w.manager.slot.heldBy id
  | .crawlersEnding j =>
    j.deadline ≤ w.now || match j.left with
      | crawler :: _ => !w.isLive crawler
      | [] => true
  | .idleWanted activity deadline => (w.activity activity).isIdle || deadline ≤ w.now

def deadline? (t : ManagerTask) : Option Nat :=
  match t.stage with
  | .planEnding _ deadline => some deadline
  | .crawlersEnding j => some j.deadline
  | .idleWanted _ deadline => some deadline
  | _ => none

def turn (w : World) (id : TaskId) (t : ManagerTask) : World :=
  match t.stage with
  | .entering => t.enter w id
  | .planEnding plan deadline => t.awaitPlan w id plan deadline
  | .slotWanted => if w.manager.slot.heldBy id then t.decideSlot w id else w
  | .crawlersEnding j => t.awaitCrawlers w id j
  | .idleWanted activity deadline =>
    match t.call with
    | .update p => t.awaitIdle w id p activity deadline
    | _ => w

end ManagerTask

end CatalogCrawl

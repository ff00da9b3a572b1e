import CatalogCrawl.World.Basic

namespace CatalogCrawl

namespace World

def startCalls (w : World) (crawler : Crawler) (results : Nat) (r : Request) (adapters : List Nat) :
    World :=
  adapters.foldl (fun w a => (w.spawn (.call ⟨crawler, results, a, r, .starting⟩)).2) w

def work (w : World) (crawler : Crawler) (results : Nat) (item : WorkItem) : Outcome × World :=
  let c := Cycle.run crawler.config.requeue w.registry w.queue item
  let w := c.entries.foldl report { w with queue := c.queue }
  (c.outcome, w.startCalls crawler results item.request c.calls)

def isGated (w : World) : Bool := !w.gateOpen && w.registry.toList.any (·.gated)

end World

namespace CrawlTask

def stop (w : World) (id : TaskId) (t : CrawlTask) : World :=
  w.finish id (match t.mode with
    | .steady _ => .nothing
    | .single => .cycle .stopped
    | .fetch => .item none)

def complete (w : World) (id : TaskId) (t : CrawlTask) (item : WorkItem) : World :=
  let (outcome, w) := w.work t.crawler t.results item
  match t.mode with
  | .steady activity =>
    let w := { w with stats := w.stats.record outcome }.changeActivity activity Activity.finish
    if t.doomed then w.finish id .nothing
    else w.keepFirst id (.crawl { t with stage := .looking })
  | _ => w.finish id (.cycle outcome)

def takeUp (w : World) (id : TaskId) (t : CrawlTask) (item : WorkItem) : World :=
  let begin (w : World) : World :=
    if w.isGated then w.keepLast id (.crawl { t with stage := .matching item })
    else t.complete w id item
  match t.mode with
  | .fetch => w.finish id (.item (some item))
  | .single => begin w
  | .steady activity => begin (w.changeActivity activity Activity.start)

def heed (w : World) (id : TaskId) (t : CrawlTask) (ticket seen : Nat) : World :=
  let w := { w with queue := w.queue.cancel ticket }
  if (w.signal t.signal).version != seen then w.keepFirst id (.crawl { t with stage := .looking })
  else t.stop w id

def follow (w : World) (id : TaskId) (t : CrawlTask) (deadline seen : Nat) :
    WorkQueue.Attempt × WorkQueue → World
  | (.took item, q) => t.takeUp { w with queue := q } id item
  | (.over, q) => t.stop { w with queue := q } id
  | (.waits ticket, q) =>
    let w := { w with queue := q }
    if (w.signal t.signal).hasNews seen then t.heed w id ticket seen
    else w.keepLast id (.crawl { t with stage := .polling ticket deadline seen })

def look (w : World) (id : TaskId) (t : CrawlTask) (signalFirst : Bool) : World :=
  let s := w.signal t.signal
  let deadline := w.now + t.crawler.config.waitForWorkItem.nanos
  if s.raised || (!s.isAlive && signalFirst) then t.stop w id
  else if !w.shows deadline then w.finish id (.crashed .instant)
  else t.follow w id deadline s.version w.queue.attempt

def wake (w : World) (id : TaskId) (t : CrawlTask) (ticket deadline seen : Nat)
    (signalFirst : Bool) : World :=
  let reached := w.queue.bell.reached ticket
  let timeUp := decide (deadline ≤ w.now)
  if (w.signal t.signal).hasNews seen && (signalFirst || !(reached || timeUp)) then
    t.heed w id ticket seen
  else if reached then t.follow w id deadline seen (w.queue.woken ticket)
  else if timeUp then
    match w.queue.expire ticket with
    | (some item, q) => t.takeUp { w with queue := q } id item
    | (none, q) =>
      let w := { w with queue := q }
      if q.closed then t.stop w id else w.keepFirst id (.crawl { t with stage := .looking })
  else w

def isReady (w : World) (t : CrawlTask) : Bool :=
  match t.stage with
  | .looking => true
  | .polling ticket deadline seen =>
    (w.signal t.signal).hasNews seen || w.queue.bell.reached ticket || deadline ≤ w.now
  | .matching _ => !w.isGated

def deadline? (t : CrawlTask) : Option Nat :=
  match t.stage with
  | .polling _ deadline _ => some deadline
  | _ => none

def turn (w : World) (id : TaskId) (t : CrawlTask) (signalFirst : Bool) : World :=
  match t.stage with
  | .looking => t.look w id signalFirst
  | .polling ticket deadline seen => t.wake w id ticket deadline seen signalFirst
  | .matching item => if w.isGated then w else t.complete w id item

end CrawlTask

namespace CallTask

def adapterName (w : World) (t : CallTask) : String :=
  match w.registry.get? t.adapter with
  | some (a, _) => a.name
  | none => ""

def slowMessage (w : World) (t : CallTask) : String :=
  "Crawler " ++ toString t.crawler.id ++ ": adapter " ++ t.adapterName w ++ " has not answered " ++
    t.request.url.render ++ " within " ++ t.crawler.config.requestTimeout.brief ++
    ", still waiting"

def failedMessage (w : World) (t : CallTask) : String :=
  "Crawler " ++ toString t.crawler.id ++ ": adapter " ++ t.adapterName w ++
    " failed to send update request"

def receivedMessage (r : Response) : String :=
  "update-response received: " ++ r.source.render

def undeliveredMessage : DeliveryFault → String
  | .full => "Inserting update-response into queue failed due to timeout!"
  | .closed => "Inserting update-response into queue failed: result queue closed"

def conclude (w : World) (id : TaskId) (outcome : CallOutcome) : World :=
  { w with stats := w.stats.recordCall outcome }.finish id .nothing

def deliver (w : World) (id : TaskId) (t : CallTask) (d : Delivery) : World :=
  match w.results[t.results]? with
  | none => w.removeJob id
  | some q =>
    let (progress, q) := d.attempt q
    let w := w.setResults t.results q
    match progress with
    | .delivered => conclude w id .delivered
    | .failed fault =>
      conclude (w.report (.severeDueTo (undeliveredMessage fault) fault.message)) id .undelivered
    | .waits delay rest =>
      let t := { t with stage := .delivering rest (w.now + delay.nanos) }
      if delay.nanos = 0 then w.keepFirst id (.call t) else w.keepLast id (.call t)

def ask (w : World) (id : TaskId) (t : CallTask) : World :=
  match w.registry.get? t.adapter with
  | none => w.removeJob id
  | some (a, earlier) =>
    let w := { w with registry := w.registry.count t.adapter }
    let reply := a.reply w.files earlier t.request
    let due := w.now + reply.delay.nanos
    let warnAt := w.now + t.crawler.config.requestTimeout.nanos
    let t := { t with stage := .answering due (some warnAt) reply.outcome }
    if due ≤ w.now then w.keepFirst id (.call t) else w.keepLast id (.call t)

def answer (w : World) (id : TaskId) (t : CallTask) : Except AdapterFault Response → World
  | .error fault => conclude (w.report (.severeDueTo (t.failedMessage w) fault.message)) id .failed
  | .ok r =>
    t.deliver (w.report (.info (receivedMessage r))) id
      (Delivery.start t.crawler.config.retry r)

def isLate (now : Nat) (warnAt : Option Nat) : Bool :=
  match warnAt with
  | some time => time ≤ now
  | none => false

def isReady (w : World) (t : CallTask) : Bool :=
  match t.stage with
  | .starting => true
  | .answering due warnAt _ => due ≤ w.now || isLate w.now warnAt
  | .delivering _ due => due ≤ w.now

def deadline? (t : CallTask) : Option Nat :=
  match t.stage with
  | .starting => none
  | .answering due (some warnAt) _ => some (min due warnAt)
  | .answering due none _ => some due
  | .delivering _ due => some due

def turn (w : World) (id : TaskId) (t : CallTask) : World :=
  match t.stage with
  | .starting => t.ask w id
  | .answering due warnAt outcome =>
    if due ≤ w.now then t.answer w id outcome
    else if isLate w.now warnAt then
      (w.warn (t.slowMessage w)).keepInPlace id
        (.call { t with stage := .answering due none outcome })
    else w
  | .delivering d due => if due ≤ w.now then t.deliver w id d else w

end CallTask

end CatalogCrawl

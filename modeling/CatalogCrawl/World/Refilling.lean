import CatalogCrawl.World.Basic

namespace CatalogCrawl

namespace World

def addWorkload (w : World) : World :=
  let items := w.manager.workload
  let w := w.report (.debug
    ("partition manager: execute plan - adding workload " ++ toString items.length))
  let w := { w with queue := (w.queue.addAll items).2 }
  w.report (.debug "partition manager: execute plan - releasing queue lock")

def enterLock (w : World) (who : Nat) : World := { w with refillLock := w.refillLock.enter who }

def leaveLock (w : World) (who : Nat) : World := { w with refillLock := w.refillLock.leave who }

end World

namespace PlanTask

def proceed (w : World) (id : TaskId) (t : PlanTask) : World :=
  w.keepFirst id (.plan { t with stage := .looking })

def refillNow (w : World) (id : TaskId) (t : PlanTask) : World :=
  t.proceed (w.addWorkload.leaveLock id) id

def laterPauses : List Span → List Span
  | [] => []
  | [s] => [s]
  | _ :: rest => rest

def act (w : World) (id : TaskId) (t : PlanTask) : World :=
  let t := { t with ticker := t.ticker.tick w.now }
  match t.action with
  | .refill =>
    let w := w.report (.debug "partition manager: execute plan - waiting for queue lock")
    let w := w.enterLock id
    if w.refillLock.heldBy id then t.refillNow w id
    else w.keepLast id (.plan { t with stage := .locking })
  | .pause lengths =>
    let w := { w with pauses := w.now :: w.pauses }
    let length := (lengths.head?).getD .zero
    let t := { t with action := .pause (laterPauses lengths) }
    if length.nanos = 0 then t.proceed w id
    else w.keepLast id (.plan { t with stage := .pausing (w.now + length.nanos) })

def look (w : World) (id : TaskId) (t : PlanTask) (signalFirst : Bool) : World :=
  let s := w.signal t.signal
  let due := decide (t.ticker.due ≤ w.now)
  if s.raised || (!s.isAlive && (signalFirst || !due)) then w.finish id .nothing
  else if due then t.act w id
  else w.keepLast id (.plan { t with stage := .ticking s.version })

def isReady (w : World) (id : TaskId) (t : PlanTask) : Bool :=
  match t.stage with
  | .looking => true
  | .ticking seen => (w.signal t.signal).hasNews seen || t.ticker.due ≤ w.now
  | .locking => w.refillLock.heldBy id
  | .pausing due => due ≤ w.now

def deadline? (t : PlanTask) : Option Nat :=
  match t.stage with
  | .ticking _ => some t.ticker.due
  | .pausing due => some due
  | _ => none

def turn (w : World) (id : TaskId) (t : PlanTask) (signalFirst : Bool) : World :=
  match t.stage with
  | .looking => t.look w id signalFirst
  | .ticking seen =>
    let s := w.signal t.signal
    let due := decide (t.ticker.due ≤ w.now)
    if s.hasNews seen && (signalFirst || !due) then
      if s.version != seen then t.proceed w id else w.finish id .nothing
    else if due then t.act w id
    else w
  | .locking => if w.refillLock.heldBy id then t.refillNow w id else w
  | .pausing due => if due ≤ w.now then t.proceed w id else w

end PlanTask

namespace World

def pollTurn (w : World) (id : TaskId) (ticket : Option Nat) (deadline : Nat) : World :=
  let follow : WorkQueue.Attempt × WorkQueue → World
    | (.took item, q) => { w with queue := q }.finish id (.item (some item))
    | (.over, q) => { w with queue := q }.finish id (.item none)
    | (.waits ticket, q) => { w with queue := q }.keepLast id (.poll (some ticket) deadline)
  match ticket with
  | none => follow w.queue.attempt
  | some ticket =>
    if w.queue.bell.reached ticket then follow (w.queue.woken ticket)
    else if deadline ≤ w.now then
      let (item, q) := w.queue.expire ticket
      { w with queue := q }.finish id (.item item)
    else w

def refillTurn (w : World) (id : TaskId) (items : List WorkItem) (entered : Bool) : World :=
  let w := if entered then w else w.enterLock id
  if w.refillLock.heldBy id then
    let (added, q) := w.queue.addAll items
    ({ w with queue := q }.leaveLock id).finish id (.count added)
  else if entered then w
  else w.keepLast id (.refill items true)

def lockTurn (w : World) (id : TaskId) (deadline : Nat) (entered : Bool) : World :=
  let w := if entered then w else w.enterLock id
  if w.refillLock.heldBy id then w.finish id (.flag true)
  else if deadline ≤ w.now then (w.leaveLock id).finish id (.flag false)
  else if entered then w
  else w.keepLast id (.lock deadline true)

def idleTurn (w : World) (id : TaskId) (activity deadline : Nat) : World :=
  if (w.activity activity).isIdle then w.finish id (.flag true)
  else if deadline ≤ w.now then w.finish id (.flag false)
  else w

end World

end CatalogCrawl

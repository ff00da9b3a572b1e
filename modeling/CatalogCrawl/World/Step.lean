import CatalogCrawl.World.Background
import CatalogCrawl.World.Crawling
import CatalogCrawl.World.Managing
import CatalogCrawl.World.Refilling

namespace CatalogCrawl

namespace Task

def isReady (w : World) (id : TaskId) : Task → Bool
  | .crawl t => t.isReady w
  | .call t => t.isReady w
  | .plan t => t.isReady w id
  | .load t => t.isReady w
  | .evict t => t.isReady w
  | .manage t => t.isReady w id
  | .windDown t => t.isReady w
  | .send _ _ due => due ≤ w.now
  | .poll none _ => true
  | .poll (some ticket) deadline => w.queue.bell.reached ticket || deadline ≤ w.now
  | .refill _ entered => !entered || w.refillLock.heldBy id
  | .lock deadline entered => !entered || w.refillLock.heldBy id || deadline ≤ w.now
  | .awaitIdle activity deadline => (w.activity activity).isIdle || deadline ≤ w.now

def deadline? : Task → Option Nat
  | .crawl t => t.deadline?
  | .call t => t.deadline?
  | .plan t => t.deadline?
  | .load _ => none
  | .evict t => t.deadline?
  | .manage t => t.deadline?
  | .windDown t => t.deadline?
  | .send _ _ due => some due
  | .poll _ deadline => some deadline
  | .refill _ _ => none
  | .lock deadline _ => some deadline
  | .awaitIdle _ deadline => some deadline

/-- What a task does until it waits again. Of a signal and another event that are both there, the
signal is taken up first if so chosen. -/
def turn (w : World) (id : TaskId) (signalFirst : Bool) : Task → World
  | .crawl t => t.turn w id signalFirst
  | .call t => t.turn w id
  | .plan t => t.turn w id signalFirst
  | .load t => t.turn w id
  | .evict t => t.turn w id signalFirst
  | .manage t => t.turn w id
  | .windDown t => t.turn w id
  | .send results r due => w.sendTurn id results r due
  | .poll ticket deadline => w.pollTurn id ticket deadline
  | .refill items entered => w.refillTurn id items entered
  | .lock deadline entered => w.lockTurn id deadline entered
  | .awaitIdle activity deadline => w.idleTurn id activity deadline

end Task

inductive Step
  | turn (id : TaskId) (signalFirst : Bool)
  | pass (nanos : Nat)
  deriving DecidableEq, Repr

namespace World

def step (w : World) : Step → World
  | .turn id signalFirst =>
    match w.job? id with
    | some j => if j.task.isReady w id then j.task.turn w id signalFirst else w
    | none => w
  | .pass nanos => { w with now := w.now + nanos }

def steps (w : World) (list : List Step) : World := list.foldl step w

end World

end CatalogCrawl

import CatalogCrawl.World.Session

namespace CatalogCrawl

namespace Task

def isEntry : Task → Bool
  | .manage ⟨_, .entering⟩ => true
  | .windDown (.entering _) => true
  | .evict t => t.stage == .starting
  | .poll ticket _ => ticket.isNone
  | .refill _ entered => !entered
  | .lock _ entered => !entered
  | .load ⟨_, _, _, .receiving⟩ => true
  | .send .. | .awaitIdle .. => true
  | _ => false

def isCancellable : Task → Bool
  | .poll .. | .refill .. | .lock .. => true
  | _ => false

def isPoll : Task → Bool
  | .poll .. => true
  | _ => false

end Task

inductive Event
  | step (s : Step)
  | launch (t : Task)
  | cancel (id : TaskId)
  | offer (item : WorkItem)
  | addAll (items : List WorkItem)
  | close
  | unlock (holder : TaskId)
  | schedule (p : Plan)
  | dropManager
  | register (a : Adapter)
  | gate (isOpen : Bool)
  | files (f : Files)
  | results (i : Nat) (q : ResultQueue)

namespace World

def react (w : World) : Event → World
  | .step s => w.step s
  | .launch t => if t.isEntry then (w.spawn t).2 else w
  | .cancel id =>
    match w.job? id with
    | some j => if j.task.isCancellable then w.abort id else w
    | none => w
  | .offer item => { w with queue := (w.queue.offer item).2 }
  | .addAll items => { w with queue := (w.queue.addAll items).2 }
  | .close => { w with queue := w.queue.close }
  | .unlock holder => w.leaveLock holder
  | .schedule p => w.follow p
  | .dropManager => w.dropManager
  | .register a => { w with registry := w.registry.register a }
  | .gate isOpen => { w with gateOpen := isOpen }
  | .files f => { w with files := f }
  | .results i q => w.setResults i q

def play (w : World) (events : List Event) : World := events.foldl react w

@[simp] theorem play_nil (w : World) : w.play [] = w := rfl

theorem play_append (w : World) (events later : List Event) :
    w.play (events ++ later) = (w.play events).play later :=
  List.foldl_append

theorem play_concat (w : World) (events : List Event) (e : Event) :
    w.play (events ++ [e]) = (w.play events).react e :=
  w.play_append events [e]

end World

structure Setup where
  queue : QueueConfig
  monitor : MonitorKind
  partition : PartitionConfig
  crawler : CrawlerConfig
  numbered : Bool
  workload : List WorkItem
  adapters : List Adapter
  results : ResultQueue

def Setup.world (s : Setup) : World :=
  { (World.empty s.queue s.monitor).withManager s.partition s.crawler s.numbered s.workload with
    registry := .ofList s.adapters
    results := [s.results] }

end CatalogCrawl

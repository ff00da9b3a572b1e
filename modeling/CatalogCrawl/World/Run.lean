import CatalogCrawl.World.Step

namespace CatalogCrawl.World

def roundUp (time : Nat) : Nat := (time + Span.nanosInMilli - 1) / Span.nanosInMilli * Span.nanosInMilli

def nextReady? (w : World) : Option TaskId :=
  (w.jobs.find? fun j => j.task.isReady w j.id).map Job.id

def nextDeadline? (w : World) : Option Nat :=
  w.jobs.foldl (fun best j =>
    match j.task.deadline? with
    | none => best
    | some d =>
      if d ≤ w.now then best
      else match best with
        | none => some d
        | some b => some (min b d)) none

/-- More turns than any run here takes. -/
def turnLimit : Nat := 1000000000000

def settleWithin : Nat → World → World
  | 0, w => w
  | fuel + 1, w =>
    match w.nextReady? with
    | none => w
    | some id => settleWithin fuel (w.step (.turn id true))

def settle (w : World) : World := settleWithin turnLimit w

def jump? (w : World) (limit : Nat) : Option World :=
  match w.nextDeadline? with
  | none => none
  | some d =>
    let time := roundUp d
    if time ≤ limit then some (w.step (.pass (time - w.now))).settle else none

def runWithin (isDone : World → Bool) (limit : Nat) : Nat → World → World
  | 0, w => w
  | fuel + 1, w =>
    if isDone w then w
    else match w.jump? limit with
      | some w => runWithin isDone limit fuel w
      | none => w

def runUntil (w : World) (limit : Nat) (isDone : World → Bool) : World :=
  runWithin isDone limit turnLimit w.settle

def runTo (w : World) (time : Nat) : World :=
  let w := w.runUntil time fun _ => false
  (w.step (.pass (time - w.now))).settle

def advance (w : World) (millis : Nat) : World := w.runTo (w.now + millis * Span.nanosInMilli)

def endOfTime : Nat := Number.word64 * Number.word64

def await (w : World) (id : TaskId) : World := w.runUntil endOfTime fun w => !w.isLive id

def call (w : World) (t : Task) : Option EndedJob × World :=
  let (id, w) := w.spawn t
  let w := (w.step (.turn id true)).await id
  (w.result? id, w)

end CatalogCrawl.World

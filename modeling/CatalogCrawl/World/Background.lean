import CatalogCrawl.World.Basic

namespace CatalogCrawl

namespace World

def look (w : World) : Int × World :=
  match w.clock with
  | .shared => (w.now, w)
  | .own looks => (2 * looks, { w with clock := .own (looks + 1) })

def saveOffer (w : World) (o : Offer) : World :=
  let (now, w) := w.look
  { w with store := w.store.save now o }

def expireOffers (w : World) (ttl : Span) : World :=
  let (now, w) := w.look
  { w with store := w.store.expire now ttl }

def countLoaded (w : World) (results : Nat) (r : Response) : World :=
  { w with loaded := w.loaded.modify results (·.add r) }

def closeResults (w : World) (results : Nat) : World :=
  { w with results := w.results.modify results ResultQueue.close }

def sendTurn (w : World) (id : TaskId) (results : Nat) (r : Response) (due : Nat) : World :=
  if due ≤ w.now then
    match w.results[results]? with
    | none => w.removeJob id
    | some q =>
      match q.send r with
      | (.sent, q) => ({ w.setResults results q with sentAt := w.now :: w.sentAt }).finish id .nothing
      | (_, q) => (w.setResults results q).finish id .nothing
  else w

end World

namespace LoadTask

def receive? (w : World) (t : LoadTask) : Option (Response × ResultQueue) :=
  w.results[t.results]? >>= ResultQueue.receive?

def isOver (w : World) (t : LoadTask) : Bool :=
  !w.hasSenders t.results || (w.signal t.signal).hasNews t.seen

def isReady (w : World) (t : LoadTask) : Bool :=
  match t.stage with
  | .receiving => (t.receive? w).isSome || t.isOver w
  | .saving _ _ => true

def goOn (w : World) (id : TaskId) (t : LoadTask) (r : Response) (left : List Offer) : World :=
  if left.isEmpty then
    (w.countLoaded t.results r).keepFirst id (.load { t with stage := .receiving })
  else w.keepFirst id (.load { t with stage := .saving r left })

def receive (w : World) (id : TaskId) (t : LoadTask) : World :=
  match t.receive? w with
  | some (r, q) => t.goOn (w.setResults t.results q) id r r.catalog.offers
  | none =>
    if t.isOver w then (w.closeResults t.results).finish id .nothing
    else w.keepLast id (.load t)

def turn (w : World) (id : TaskId) (t : LoadTask) : World :=
  match t.stage with
  | .receiving => t.receive w id
  | .saving r [] => t.goOn w id r []
  | .saving r (o :: left) => t.goOn (w.saveOffer o) id r left

end LoadTask

namespace EvictionTask

def isReady (w : World) (t : EvictionTask) : Bool :=
  match t.stage with
  | .starting => true
  | .ticking ticker => (w.signal t.signal).hasNews t.seen || ticker.due ≤ w.now

def deadline? (t : EvictionTask) : Option Nat :=
  match t.stage with
  | .starting => none
  | .ticking ticker => some ticker.due

def turn (w : World) (id : TaskId) (t : EvictionTask) (signalFirst : Bool) : World :=
  match t.stage with
  | .starting =>
    if t.period.nanos = 0 then w.finish id (.crashed .period)
    else
      let ticker := (Ticker.start t.period.nanos w.now).tick w.now
      w.keepLast id (.evict { t with stage := .ticking ticker })
  | .ticking ticker =>
    let due := decide (ticker.due ≤ w.now)
    if (w.signal t.signal).hasNews t.seen && (signalFirst || !due) then w.finish id .nothing
    else if due then
      (w.expireOffers t.ttl).keepLast id (.evict { t with stage := .ticking (ticker.tick w.now) })
    else w

end EvictionTask

namespace WindDown

def openMessage (timeout : Span) : String :=
  "Result queue still open after " ++ timeout.brief ++ ", stopping catalog loader"

def lateMessage (timeout : Span) : String :=
  "Background task shutdown timed out after " ++ timeout.brief

def skip (w : World) (timeout : Span) : List TaskId → World × List TaskId
  | [] => (w, [])
  | id :: rest =>
    if !w.isLive id then skip w timeout rest
    else if timeout.nanos = 0 then skip (w.warn (lateMessage timeout)) timeout rest
    else (w, id :: rest)

def awaitNext (w : World) (id : TaskId) (timeout : Span) (left : List TaskId) : World :=
  match skip w timeout left with
  | (w, []) => w.finish id .nothing
  | (w, left) => w.keepLast id (.windDown (.ending timeout left (w.now + timeout.nanos)))

def signalAll (w : World) (id : TaskId) (timeout : Span) (left : List TaskId) : World :=
  awaitNext (w.setSignal w.background.signal true) id timeout (left ++ w.background.others)

def notDrained (w : World) (id : TaskId) (timeout : Span) (loader : TaskId) : World :=
  signalAll (w.warn (openMessage timeout)) id timeout [loader]

def isReady (w : World) : WindDown → Bool
  | .entering _ => true
  | .draining _ deadline =>
    deadline ≤ w.now || match w.background.loader with
      | some loader => !w.isLive loader
      | none => true
  | .ending _ left deadline =>
    deadline ≤ w.now || match left with
      | task :: _ => !w.isLive task
      | [] => true

def deadline? : WindDown → Option Nat
  | .entering _ => none
  | .draining _ deadline => some deadline
  | .ending _ _ deadline => some deadline

def drain (w : World) (id : TaskId) (timeout : Span) (deadline : Nat) : World :=
  match w.background.loader with
  | none => signalAll w id timeout []
  | some loader =>
    if !w.isLive loader then signalAll w id timeout []
    else if deadline ≤ w.now then notDrained w id timeout loader
    else w.keepLast id (.windDown (.draining timeout deadline))

def turn (w : World) (id : TaskId) : WindDown → World
  | .entering timeout => drain w id timeout (w.now + timeout.nanos)
  | .draining timeout deadline => drain w id timeout deadline
  | .ending timeout left deadline =>
    match left with
    | [] => w.finish id .nothing
    | task :: rest =>
      if !w.isLive task then awaitNext w id timeout rest
      else if deadline ≤ w.now then awaitNext (w.warn (lateMessage timeout)) id timeout rest
      else w

end WindDown

end CatalogCrawl

import CatalogCrawl.Catalog.Basic
import CatalogCrawl.Crawl.Backoff
import CatalogCrawl.Fault

namespace CatalogCrawl

structure ResultQueue where
  capacity : Nat
  held : List Response
  isOpen : Bool
  senders : Nat

inductive Sending
  | sent | full | closed
  deriving DecidableEq, Repr

namespace ResultQueue

def empty (capacity senders : Nat) : ResultQueue := ⟨capacity, [], true, senders⟩

def maxCapacity : Nat := Number.word64 / 8 - 1

def make? (capacity senders : Nat) : Except Crash ResultQueue :=
  if capacity = 0 ∨ maxCapacity < capacity then .error .capacity else .ok (empty capacity senders)

def send (q : ResultQueue) (r : Response) : Sending × ResultQueue :=
  if !q.isOpen then (.closed, q)
  else if q.capacity ≤ q.held.length then (.full, q)
  else (.sent, { q with held := q.held ++ [r] })

def receive? (q : ResultQueue) : Option (Response × ResultQueue) :=
  match q.held with
  | [] => none
  | r :: rest => some (r, { q with held := rest })

def close (q : ResultQueue) : ResultQueue := { q with held := [], isOpen := false }

def dropSender (q : ResultQueue) : ResultQueue := { q with senders := q.senders - 1 }

end ResultQueue

inductive DeliveryFault
  | full | closed
  deriving DecidableEq, Repr

def DeliveryFault.message : DeliveryFault → String
  | .full => "result queue is full"
  | .closed => "result queue is closed"

structure Delivery where
  response : Response
  backoff : Backoff

inductive Progress
  | delivered
  | failed (fault : DeliveryFault)
  | waits (delay : Span) (rest : Delivery)

namespace Delivery

def start (policy : RetryPolicy) (r : Response) : Delivery := ⟨r, .ofPolicy policy⟩

def attempt (d : Delivery) (q : ResultQueue) : Progress × ResultQueue :=
  match q.send d.response with
  | (.sent, q) => (.delivered, q)
  | (.closed, q) => (.failed .closed, q)
  | (.full, q) =>
    match d.backoff.next with
    | (some delay, backoff) => (.waits delay ⟨d.response, backoff⟩, q)
    | (none, _) => (.failed .full, q)

end Delivery

end CatalogCrawl

namespace CatalogCrawl

/-- A ring wakes the one who has waited longest, or is kept for the next one to come; a call wakes all
who wait and is not kept. -/
structure Bell where
  permit : Bool
  nextTicket : Nat
  waiting : List Nat
  /-- Tickets reached by a ring that they have not seen. -/
  rung : List Nat
  /-- Tickets reached by a call that they have not seen. -/
  called : List Nat
  deriving DecidableEq, Repr

namespace Bell

def silent : Bell := ⟨false, 0, [], [], []⟩

def ring (b : Bell) : Bell :=
  match b.waiting with
  | [] => { b with permit := true }
  | ticket :: rest => { b with waiting := rest, rung := ticket :: b.rung }

def ringTimes : Nat → Bell → Bell
  | 0, b => b
  | n + 1, b => ringTimes n b.ring

def call (b : Bell) : Bell :=
  { b with waiting := [], called := b.waiting ++ b.called }

def enrol (b : Bell) : Option Nat × Bell :=
  if b.permit then (none, { b with permit := false })
  else
    (some b.nextTicket,
      { b with nextTicket := b.nextTicket + 1, waiting := b.waiting ++ [b.nextTicket] })

def reached (b : Bell) (ticket : Nat) : Bool :=
  b.rung.contains ticket || b.called.contains ticket

def observe (b : Bell) (ticket : Nat) : Bell :=
  { b with rung := b.rung.erase ticket, called := b.called.erase ticket }

def leave (b : Bell) (ticket : Nat) : Bell :=
  if b.rung.contains ticket then { b with rung := b.rung.erase ticket }.ring
  else { b with waiting := b.waiting.erase ticket, called := b.called.erase ticket }

end Bell

end CatalogCrawl

namespace CatalogCrawl

structure Turnstile where
  holder : Option Nat
  waiting : List Nat
  deriving DecidableEq, Repr

namespace Turnstile

def free : Turnstile := ⟨none, []⟩

def heldBy (t : Turnstile) (who : Nat) : Bool := t.holder == some who

def enter (t : Turnstile) (who : Nat) : Turnstile :=
  match t.holder with
  | none => { t with holder := some who }
  | some _ => { t with waiting := t.waiting ++ [who] }

def leave (t : Turnstile) (who : Nat) : Turnstile :=
  if t.heldBy who then
    match t.waiting with
    | [] => ⟨none, []⟩
    | next :: rest => ⟨some next, rest⟩
  else { t with waiting := t.waiting.erase who }

theorem heldBy_enter_free (who : Nat) : (free.enter who).heldBy who = true := by
  simp [free, enter, heldBy]

end Turnstile

end CatalogCrawl

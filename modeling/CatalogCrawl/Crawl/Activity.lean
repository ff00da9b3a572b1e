namespace CatalogCrawl

structure Activity where
  busy : Nat
  deriving DecidableEq, Repr

namespace Activity

def idle : Activity := ⟨0⟩

def start (a : Activity) : Activity := ⟨a.busy + 1⟩

def finish (a : Activity) : Activity := ⟨a.busy - 1⟩

def isIdle (a : Activity) : Bool := a.busy == 0

theorem finish_start (a : Activity) : a.start.finish = a := rfl

end Activity

end CatalogCrawl

import CatalogCrawl.Number.Word

namespace CatalogCrawl

structure Span where
  nanos : Nat
  deriving DecidableEq, Repr, Inhabited

namespace Span

def nanosInSec : Nat := 1000000000

def nanosInMilli : Nat := 1000000

def nanosInMicro : Nat := 1000

def zero : Span := ⟨0⟩

def ofSecs (n : Nat) : Span := ⟨n * nanosInSec⟩

def ofMillis (n : Nat) : Span := ⟨n * nanosInMilli⟩

def ofParts (secs nanos : Nat) : Span := ⟨secs * nanosInSec + nanos⟩

def secs (s : Span) : Nat := s.nanos / nanosInSec

def subsec (s : Span) : Nat := s.nanos % nanosInSec

def millis (s : Span) : Nat := s.nanos / nanosInMilli

theorem ofParts_secs_subsec (s : Span) : ofParts s.secs s.subsec = s := by
  cases s with
  | mk n =>
    simp only [ofParts, secs, subsec, nanosInSec, mk.injEq]
    omega

def secsLimit : Nat := Number.word64

def InRange (s : Span) : Prop := s.secs < secsLimit

instance (s : Span) : Decidable s.InRange :=
  inferInstanceAs (Decidable (s.secs < secsLimit))

def inSecs (s : Span) : Float :=
  s.secs.toUInt64.toFloat + s.subsec.toUInt64.toFloat / 1000000000.0

def dropTrailingZeros (digits : List Char) : List Char :=
  (digits.reverse.dropWhile (· == '0')).reverse

def decimal (whole rest places : Nat) (unit : String) : String :=
  let digits := Nat.toDigits 10 rest
  let padded := List.replicate (places - digits.length) '0' ++ digits
  let shown := dropTrailingZeros padded
  toString whole ++ (if shown.isEmpty then "" else "." ++ String.ofList shown) ++ unit

def brief (s : Span) : String :=
  if nanosInSec ≤ s.nanos then decimal s.secs s.subsec 9 "s"
  else if nanosInMilli ≤ s.nanos then decimal (s.nanos / nanosInMilli) (s.nanos % nanosInMilli) 6 "ms"
  else if nanosInMicro ≤ s.nanos then decimal (s.nanos / nanosInMicro) (s.nanos % nanosInMicro) 3 "µs"
  else toString s.nanos ++ "ns"

end Span

end CatalogCrawl

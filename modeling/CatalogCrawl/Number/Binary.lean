import CatalogCrawl.Number.Word

namespace CatalogCrawl.Number

/-- The value `(-1)^negative * mantissa * 2^exponent` of a finite double. -/
structure Dyadic where
  negative : Bool
  mantissa : Nat
  exponent : Int
  deriving DecidableEq, Repr

inductive Shape
  | nan
  | infinite (negative : Bool)
  | finite (value : Dyadic)
  deriving DecidableEq, Repr

def fractionSize : Nat := 4503599627370496

def shape (x : Float) : Shape :=
  let bits := x.toBits.toNat
  let negative := decide (half64 ≤ bits)
  let biased : Nat := bits / fractionSize % 2048
  let fraction : Nat := bits % fractionSize
  if biased = 2047 then
    if fraction = 0 then .infinite negative else .nan
  else if biased = 0 then .finite ⟨negative, fraction, -1074⟩
  else .finite ⟨negative, fraction + fractionSize, (biased : Int) - 1075⟩

def Dyadic.quotient (d : Dyadic) : Nat × Nat :=
  match d.exponent with
  | .ofNat e => (d.mantissa * Nat.pow 2 e, 1)
  | .negSucc e => (d.mantissa, Nat.pow 2 (e + 1))

theorem Dyadic.quotient_pos (d : Dyadic) : 0 < d.quotient.2 := by
  unfold Dyadic.quotient
  split
  · exact Nat.one_pos
  · exact Nat.two_pow_pos _

def ofDecimal (negative : Bool) (digits : Nat) (exponent : Int) : Float :=
  let size : Int := (Nat.toDigits 10 digits).length
  let magnitude : Float :=
    if digits = 0 || exponent + size < -400 then 0.0
    else match exponent with
      | .ofNat e => if 400 < exponent then 1.0 / 0.0 else Float.ofScientific digits false e
      | .negSucc e => Float.ofScientific digits true (e + 1)
  if negative then -magnitude else magnitude

end CatalogCrawl.Number

import CatalogCrawl.Number.Binary

namespace CatalogCrawl.Number

/-- The value `digits * 10^exponent`. -/
structure Decimal where
  digits : Nat
  exponent : Int
  deriving DecidableEq, Repr

def digitCount (n : Nat) : Nat :=
  (Nat.toDigits 10 n).length

def magnitude (num den : Nat) : Int :=
  if den ≤ num then digitCount (num / den)
  else
    let d := digitCount (den / num)
    if den = num * Nat.pow 10 (d - 1) then 2 - (d : Int) else 1 - (d : Int)

def inUnits (num den : Nat) (unit : Int) : Nat × Nat :=
  match unit with
  | .ofNat u => (num, den * Nat.pow 10 u)
  | .negSucc u => (num * Nat.pow 10 (u + 1), den)

/-- The interval of numbers that round to a double, over one denominator, and whether its ends
belong to it. -/
structure Rounding where
  low : Nat
  value : Nat
  high : Nat
  den : Nat
  closed : Bool
  deriving DecidableEq, Repr

def Dyadic.rounding (d : Dyadic) : Rounding :=
  let (num, den) := d.quotient
  let unit := num / d.mantissa
  let below := if d.mantissa = fractionSize && d.exponent ≠ -1074 then 1 else 2
  { low := 4 * num - below * unit
    value := 4 * num
    high := 4 * num + 2 * unit
    den := 4 * den
    closed := d.mantissa % 2 = 0 }

def Rounding.holds (r : Rounding) (count : Nat) (unit : Int) : Bool :=
  let (low, den) := inUnits r.low r.den unit
  let (high, _) := inUnits r.high r.den unit
  if r.closed then decide (low ≤ count * den ∧ count * den ≤ high)
  else decide (low < count * den ∧ count * den < high)

def Rounding.onGrid? (r : Rounding) (unit : Int) : Option Nat :=
  let (value, den) := inUnits r.value r.den unit
  let below := value / den
  let rest := value % den
  match r.holds below unit, r.holds (below + 1) unit with
  | true, true =>
    if 2 * rest < den || (2 * rest = den && below % 2 = 0) then some below else some (below + 1)
  | true, false => some below
  | false, true => some (below + 1)
  | false, false => none

def Rounding.search (r : Rounding) (top : Int) : Nat → Nat → Decimal
  | 0, places => ⟨(inUnits r.value r.den (top - places)).1 / (inUnits r.value r.den (top - places)).2,
      top - places⟩
  | fuel + 1, places =>
    match r.onGrid? (top - places) with
    | some count => ⟨count, top - places⟩
    | none => r.search top fuel (places + 1)

def Decimal.trim : Nat → Decimal → Decimal
  | 0, d => d
  | fuel + 1, d =>
    if d.digits ≠ 0 ∧ d.digits % 10 = 0 then Decimal.trim fuel ⟨d.digits / 10, d.exponent + 1⟩
    else d

def Dyadic.shortest (d : Dyadic) : Decimal :=
  if d.mantissa = 0 then ⟨0, 0⟩
  else
    let r := d.rounding
    Decimal.trim 20 (r.search (magnitude r.value r.den) 17 1)

end CatalogCrawl.Number

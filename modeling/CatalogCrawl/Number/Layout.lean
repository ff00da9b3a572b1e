import CatalogCrawl.Number.Shortest

namespace CatalogCrawl.Number

def Decimal.positional (d : Decimal) : String :=
  let digits := Nat.toDigits 10 d.digits
  let point := (digits.length : Int) + d.exponent
  if point ≤ 0 then
    "0." ++ String.ofList (List.replicate (-point).toNat '0' ++ digits)
  else if digits.length ≤ point.toNat then
    String.ofList (digits ++ List.replicate (point.toNat - digits.length) '0') ++ ".0"
  else
    String.ofList (digits.take point.toNat) ++ "." ++ String.ofList (digits.drop point.toNat)

def Decimal.scientific (d : Decimal) : String :=
  let digits := Nat.toDigits 10 d.digits
  let power := (digits.length : Int) + d.exponent - 1
  let tail := digits.drop 1
  String.ofList (digits.take 1) ++
    (if tail.isEmpty then "" else "." ++ String.ofList tail) ++
    (if power < 0 then "e-" else "e+") ++ toString power.natAbs

def Decimal.balanced (d : Decimal) : String :=
  let power := (digitCount d.digits : Int) + d.exponent - 1
  if -5 ≤ power ∧ power < 16 then d.positional else d.scientific

def Dyadic.balanced (d : Dyadic) : String :=
  (if d.negative then "-" else "") ++ (if d.mantissa = 0 then "0.0" else d.shortest.balanced)

def Dyadic.positional (d : Dyadic) : String :=
  (if d.negative then "-" else "") ++ (if d.mantissa = 0 then "0.0" else d.shortest.positional)

def roundHalfEven (num den : Nat) : Nat :=
  let q := num / den
  let r := num % den
  if 2 * r < den || (2 * r = den && q % 2 = 0) then q else q + 1

def Dyadic.onePlace (d : Dyadic) : String :=
  let (num, den) := d.quotient
  let tenths := roundHalfEven (10 * num) den
  (if d.negative then "-" else "") ++ toString (tenths / 10) ++ "." ++ toString (tenths % 10)

def onePlace (x : Float) : String :=
  match shape x with
  | .nan => "NaN"
  | .infinite negative => if negative then "-inf" else "inf"
  | .finite d => d.onePlace

end CatalogCrawl.Number

namespace CatalogCrawl.Url.Punycode

def digitChar (d : Nat) : Char :=
  if d < 26 then Char.ofNat (0x61 + d) else Char.ofNat (0x30 + d - 26)

def digitValue? (c : Char) : Option Nat :=
  if c.isLower then some (c.toNat - 0x61)
  else if c.isUpper then some (c.toNat - 0x41)
  else if c.isDigit then some (c.toNat - 0x30 + 26)
  else none

def threshold (k bias : Nat) : Nat :=
  if k ≤ bias then 1 else if bias + 26 ≤ k then 26 else k - bias

theorem threshold_pos (k bias : Nat) : 1 ≤ threshold k bias := by
  unfold threshold
  split
  · omega
  · split <;> omega

def settle (delta k : Nat) : Nat × Nat :=
  if 455 < delta then settle (delta / 35) (k + 36) else (delta, k)
termination_by delta
decreasing_by exact Nat.div_lt_self (by omega) (by omega)

def adapt (delta points : Nat) (first : Bool) : Nat :=
  let scaled := if first then delta / 700 else delta / 2
  let (rest, k) := settle (scaled + scaled / points) 0
  k + 36 * rest / (rest + 38)

def encodeNumber (bias k q : Nat) : List Char :=
  let t := threshold k bias
  if q < t then [digitChar q]
  else digitChar (t + (q - t) % (36 - t)) :: encodeNumber bias (k + 36) ((q - t) / (36 - t))
termination_by q
decreasing_by
  have h1 := threshold_pos k bias
  have h2 := Nat.div_le_self (q - threshold k bias) (36 - threshold k bias)
  omega

structure Progress where
  written : List Char
  delta : Nat
  bias : Nat
  handled : Nat

def visit (basic code : Nat) (p : Progress) (c : Char) : Progress :=
  if c.toNat < code then { p with delta := p.delta + 1 }
  else if c.toNat = code then
    { written := p.written ++ encodeNumber p.bias 36 p.delta
      delta := 0
      bias := adapt p.delta (p.handled + 1) (p.handled == basic)
      handled := p.handled + 1 }
  else p

def insertAscending (x : Nat) : List Nat → List Nat
  | [] => [x]
  | y :: ys => if x < y then x :: y :: ys else if x = y then y :: ys else y :: insertAscending x ys

def encodeRest (label : List Char) (basic : Nat) : List Nat → Nat → Progress → Progress
  | [], _, p => p
  | code :: codes, next, p =>
    let p := { p with delta := p.delta + (code - next) * (p.handled + 1) }
    let p := label.foldl (visit basic code) p
    encodeRest label basic codes (code + 1) { p with delta := p.delta + 1 }

def encode (label : List Char) : List Char :=
  let basic := label.filter fun c => c.toNat < 0x80
  let codes := (label.filter fun c => 0x80 ≤ c.toNat).foldl
    (fun sorted c => insertAscending c.toNat sorted) []
  basic ++ (if basic.isEmpty then [] else ['-']) ++
    (encodeRest label basic.length codes 128 ⟨[], 0, 72, basic.length⟩).written

def decodeNumber (bias : Nat) : List Char → Nat → Nat → Nat → Option (Nat × List Char)
  | [], _, _, _ => none
  | c :: rest, k, w, i => do
    let d ← digitValue? c
    let t := threshold k bias
    if d < t then some (i + d * w, rest)
    else decodeNumber bias rest (k + 36) (w * (36 - t)) (i + d * w)

def insertAt (position : Nat) (c : Char) (chars : List Char) : List Char :=
  chars.take position ++ c :: chars.drop position

def decodeRest : Nat → List Char → Nat → Nat → Nat → List Char → Option (List Char)
  | _, [], _, _, _, chars => some chars
  | 0, _, _, _, _, _ => none
  | fuel + 1, digits, code, i, bias, chars => do
    let (total, rest) ← decodeNumber bias digits 36 1 i
    let points := chars.length + 1
    let code := code + total / points
    if h : code.isValidChar then
      let position := total % points
      decodeRest fuel rest code (position + 1) (adapt (total - i) points (i == 0))
        (insertAt position (Char.ofNatAux code h) chars)
    else none

def decode (text : List Char) : Option (List Char) :=
  let reversed := text.reverse
  let digits := (reversed.takeWhile (· != '-')).reverse
  let basic := (reversed.dropWhile (· != '-')).drop 1 |>.reverse
  if basic.all fun c => c.toNat < 0x80 then
    decodeRest (digits.length + 1) digits 128 0 72 basic
  else none

end CatalogCrawl.Url.Punycode

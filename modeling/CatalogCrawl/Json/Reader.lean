import CatalogCrawl.Datum
import CatalogCrawl.Number.Binary

namespace CatalogCrawl.Json

abbrev Bytes := List UInt8

def isGap (b : UInt8) : Bool :=
  b == 0x20 || b == 0x0A || b == 0x0D || b == 0x09

def skipGap (bytes : Bytes) : Bytes :=
  bytes.dropWhile isGap

def digitOf? (b : UInt8) : Option Nat :=
  if 0x30 ≤ b && b ≤ 0x39 then some (b.toNat - 0x30) else none

def hexOf? (b : UInt8) : Option Nat :=
  if 0x30 ≤ b && b ≤ 0x39 then some (b.toNat - 0x30)
  else if 0x61 ≤ b && b ≤ 0x66 then some (b.toNat - 0x57)
  else if 0x41 ≤ b && b ≤ 0x46 then some (b.toNat - 0x37)
  else none

def readHex4 : Bytes → Option (Nat × Bytes)
  | a :: b :: c :: d :: rest => do
    some ((((← hexOf? a) * 16 + (← hexOf? b)) * 16 + (← hexOf? c)) * 16 + (← hexOf? d), rest)
  | _ => none

def utf8Reversed (code : Nat) : Bytes :=
  (String.singleton (Char.ofNat code)).toUTF8.toList.reverse

def simpleEscape? (b : UInt8) : Option UInt8 :=
  if b == 0x22 || b == 0x5C || b == 0x2F then some b
  else if b == 0x62 then some 8
  else if b == 0x66 then some 12
  else if b == 0x6E then some 10
  else if b == 0x72 then some 13
  else if b == 0x74 then some 9
  else none

def readChars : Nat → Option Bytes → Bytes → Option (Option Bytes × Bytes)
  | 0, _, _ => none
  | _, _, [] => none
  | fuel + 1, content, b :: rest =>
    if b == 0x22 then some (content, rest)
    else if b < 0x20 then none
    else if b == 0x5C then
      match rest with
      | [] => none
      | e :: rest =>
        if e == 0x75 then do
          let (unit, rest) ← readHex4 rest
          if unit < 0xD800 || 0xE000 ≤ unit then
            readChars fuel (content.map (utf8Reversed unit ++ ·)) rest
          else
            match if unit < 0xDC00 then lowSurrogate? rest else none with
            | some (low, after) =>
              let code := 0x10000 + (unit - 0xD800) * 0x400 + (low - 0xDC00)
              readChars fuel (content.map (utf8Reversed code ++ ·)) after
            | none => readChars fuel none rest
        else do
          let c ← simpleEscape? e
          readChars fuel (content.map (c :: ·)) rest
    else readChars fuel (content.map (b :: ·)) rest
where
  lowSurrogate? : Bytes → Option (Nat × Bytes)
    | 0x5C :: 0x75 :: rest =>
      match readHex4 rest with
      | some (low, after) => if 0xDC00 ≤ low && low < 0xE000 then some (low, after) else none
      | none => none
    | _ => none

def readString (bytes : Bytes) : Option (Option String × Bytes) := do
  let (content, rest) ← readChars (bytes.length + 1) (some []) bytes
  some (content.bind fun reversed => String.fromUTF8? ⟨reversed.reverse.toArray⟩, rest)

/-- A number as read: the leading digits that fit a 64-bit word, and the power of ten by which
the dropped digits, the point and the exponent scale them. -/
structure Scan where
  digits : Nat
  power : Int
  deriving DecidableEq, Repr

def readWhole (kept : Nat) (dropped : Nat) : Bytes → Scan × Bytes
  | [] => (⟨kept, dropped⟩, [])
  | b :: rest =>
    match digitOf? b with
    | none => (⟨kept, dropped⟩, b :: rest)
    | some d =>
      if dropped = 0 && kept * 10 + d < Number.word64 then readWhole (kept * 10 + d) 0 rest
      else readWhole kept (dropped + 1) rest

def readPlaces (scan : Scan) (full : Bool) : Bytes → Scan × Bytes
  | [] => (scan, [])
  | b :: rest =>
    match digitOf? b with
    | none => (scan, b :: rest)
    | some d =>
      if !full && scan.digits * 10 + d < Number.word64 then
        readPlaces ⟨scan.digits * 10 + d, scan.power - 1⟩ false rest
      else readPlaces scan true rest

def readDigits (n : Nat) : Bytes → Nat × Bytes
  | [] => (n, [])
  | b :: rest =>
    match digitOf? b with
    | none => (n, b :: rest)
    | some d => readDigits (n * 10 + d) rest

def startsWithDigit : Bytes → Bool
  | [] => false
  | b :: _ => (digitOf? b).isSome

def readExponent (bytes : Bytes) : Option (Int × Bytes) :=
  let (negative, rest) := match bytes with
    | 0x2B :: rest => (false, rest)
    | 0x2D :: rest => (true, rest)
    | rest => (false, rest)
  if startsWithDigit rest then
    let (n, rest) := readDigits 0 rest
    some (if negative then -(n : Int) else n, rest)
  else none

def Scan.toFloat? (s : Scan) : Option Float :=
  let start := s.digits.toUInt64.toFloat
  if 0 ≤ s.power then
    if s.power ≤ 308 then
      let x := start * Float.ofScientific 1 false s.power.toNat
      if x.isInf then none else some x
    else if s.digits = 0 then some start else none
  else some (shrink (s.power.natAbs / 308 + 1) start s.power.natAbs)
where
  shrink : Nat → Float → Nat → Float
    | 0, x, _ => x
    | fuel + 1, x, power =>
      if power ≤ 308 then x / Float.ofScientific 1 false power
      else if x == 0.0 then x
      else shrink fuel (x / 1e308) (power - 308)

def realDatum (negative : Bool) (x : Option Float) : Datum :=
  match x with
  | none => .unreadable
  | some x => .real (if negative then -x else x)

def wholeDatum (negative : Bool) (scan : Scan) : Datum :=
  if scan.power ≠ 0 then realDatum negative scan.toFloat?
  else if !negative then .whole scan.digits
  else if scan.digits = 0 || Number.half64 < scan.digits then realDatum true scan.toFloat?
  else .whole (-(scan.digits : Int))

def scaled (scan : Scan) (e : Int) : Scan :=
  ⟨scan.digits, scan.power + max (-100000) (min e 100000)⟩

def readNumber (bytes : Bytes) : Option (Datum × Bytes) := do
  let (negative, bytes) := match bytes with
    | 0x2D :: rest => (true, rest)
    | rest => (false, rest)
  if !startsWithDigit bytes then none
  let leadingZero := match bytes with
    | 0x30 :: rest => startsWithDigit rest
    | _ => false
  if leadingZero then none
  let (whole, rest) := readWhole 0 0 bytes
  match rest with
  | 0x2E :: rest =>
    if !startsWithDigit rest then none
    let (scan, rest) := readPlaces whole false rest
    match rest with
    | 0x65 :: rest | 0x45 :: rest =>
      let (e, rest) ← readExponent rest
      some (realDatum negative (scaled scan e).toFloat?, rest)
    | rest => some (realDatum negative scan.toFloat?, rest)
  | 0x65 :: rest | 0x45 :: rest =>
    let (e, rest) ← readExponent rest
    some (realDatum negative (scaled whole e).toFloat?, rest)
  | rest => some (wholeDatum negative whole, rest)

def readWord (word : String) (bytes : Bytes) : Option Bytes :=
  let expected := word.toUTF8.toList
  if bytes.take expected.length == expected then some (bytes.drop expected.length) else none

def depthLimit : Nat := 127

def nested (depth : Nat) (d : Datum) : Datum :=
  if depthLimit < depth then .unreadable else d

mutual

def readValue : Nat → Nat → Bytes → Option (Datum × Bytes)
  | 0, _, _ => none
  | fuel + 1, depth, bytes =>
    match skipGap bytes with
    | [] => none
    | 0x7B :: rest =>
      match skipGap rest with
      | 0x7D :: rest => some (nested (depth + 1) (.table []), rest)
      | rest => do
        let (fields, rest) ← readFields fuel (depth + 1) rest
        some (nested (depth + 1) (.table fields), rest)
    | 0x5B :: rest =>
      match skipGap rest with
      | 0x5D :: rest => some (nested (depth + 1) (.list []), rest)
      | rest => do
        let (items, rest) ← readItems fuel (depth + 1) rest
        some (nested (depth + 1) (.list items), rest)
    | 0x22 :: rest => do
      let (content, rest) ← readString rest
      match content with
      | some s => some (.text s, rest)
      | none => some (.unreadable, rest)
    | 0x6E :: rest => do some (.null, ← readWord "ull" rest)
    | 0x74 :: rest => do some (.flag true, ← readWord "rue" rest)
    | 0x66 :: rest => do some (.flag false, ← readWord "alse" rest)
    | bytes => readNumber bytes

def readItems : Nat → Nat → Bytes → Option (List Datum × Bytes)
  | 0, _, _ => none
  | fuel + 1, depth, bytes => do
    let (item, rest) ← readValue fuel depth bytes
    match skipGap rest with
    | 0x2C :: rest => do
      let (items, rest) ← readItems fuel depth rest
      some (item :: items, rest)
    | 0x5D :: rest => some ([item], rest)
    | _ => none

def readFields : Nat → Nat → Bytes → Option (List (Option String × Datum) × Bytes)
  | 0, _, _ => none
  | fuel + 1, depth, bytes =>
    match skipGap bytes with
    | 0x22 :: rest => do
      let (key, rest) ← readString rest
      match skipGap rest with
      | 0x3A :: rest => do
        let (value, rest) ← readValue fuel depth rest
        match skipGap rest with
        | 0x2C :: rest => do
          let (fields, rest) ← readFields fuel depth rest
          some ((key, value) :: fields, rest)
        | 0x7D :: rest => some ([(key, value)], rest)
        | _ => none
      | _ => none
    | _ => none

end

def readBytes (bytes : Bytes) : Option Datum := do
  let (d, rest) ← readValue (bytes.length + 1) 0 bytes
  if (skipGap rest).isEmpty then some d else none

def readText (text : String) : Option Datum :=
  readBytes text.toUTF8.toList

def rules : Datum.Rules := ⟨true⟩

end CatalogCrawl.Json

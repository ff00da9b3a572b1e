import CatalogCrawl.Text.Quoted

namespace CatalogCrawl.Url

def upperHexDigit (n : Nat) : Char :=
  if n < 10 then Char.ofNat (48 + n) else Char.ofNat (55 + n)

def isControl (c : Char) : Bool :=
  c.toNat < 0x20 || 0x7F ≤ c.toNat

def inText (chars : String) (c : Char) : Bool :=
  chars.toList.contains c

def graveAccent : Char := Char.ofNat 96

def fragmentEscapes (c : Char) : Bool :=
  isControl c || inText " \"<>" c || c == graveAccent

def pathEscapes (c : Char) : Bool :=
  fragmentEscapes c || inText "#?\x7b\x7d" c

def userinfoEscapes (c : Char) : Bool :=
  pathEscapes c || inText "/:;=@[\\]^|" c

def queryEscapes (c : Char) : Bool :=
  isControl c || inText " \"#<>" c

def specialQueryEscapes (c : Char) : Bool :=
  queryEscapes c || c.toNat == 39

def escapeByte (b : UInt8) : List Char :=
  ['%', upperHexDigit (b.toNat / 16), upperHexDigit (b.toNat % 16)]

def encodeChar (escapes : Char → Bool) (c : Char) : List Char :=
  if escapes c then (String.singleton c).toUTF8.toList.flatMap escapeByte else [c]

def encode (escapes : Char → Bool) (text : List Char) : List Char :=
  text.flatMap (encodeChar escapes)

def hexValue? (b : UInt8) : Option Nat :=
  if 0x30 ≤ b && b ≤ 0x39 then some (b.toNat - 0x30)
  else if 0x61 ≤ b && b ≤ 0x66 then some (b.toNat - 0x57)
  else if 0x41 ≤ b && b ≤ 0x46 then some (b.toNat - 0x37)
  else none

def decodeBytes : List UInt8 → List UInt8
  | [] => []
  | 0x25 :: a :: b :: rest =>
    match hexValue? a, hexValue? b with
    | some x, some y => (16 * x + y).toUInt8 :: decodeBytes rest
    | _, _ => 0x25 :: decodeBytes (a :: b :: rest)
  | b :: rest => b :: decodeBytes rest
  termination_by bytes => bytes.length

def decode (text : List Char) : List UInt8 :=
  decodeBytes (String.ofList text).toUTF8.toList

end CatalogCrawl.Url

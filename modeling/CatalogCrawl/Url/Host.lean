import CatalogCrawl.Number.Word
import CatalogCrawl.Url.Fold
import CatalogCrawl.Url.Percent
import CatalogCrawl.Url.Punycode

namespace CatalogCrawl.Url

inductive Host
  | name (text : String)
  | v4 (word : Nat)
  | v6 (pieces : List Nat)
  deriving DecidableEq, Repr

def splitAtChar (separator : Char) : List Char → List (List Char)
  | [] => [[]]
  | c :: rest =>
    let parts := splitAtChar separator rest
    if c = separator then [] :: parts
    else match parts with
      | [] => [[c]]
      | part :: parts => (c :: part) :: parts

def joinWith (separator : Char) : List (List Char) → List Char
  | [] => []
  | [part] => part
  | part :: parts => part ++ separator :: joinWith separator parts

def isLabelDot (c : Char) : Bool :=
  c == '.' || c.toNat == 0x3002 || c.toNat == 0xFF0E || c.toNat == 0xFF61

def isDropped (c : Char) : Bool :=
  let n := c.toNat
  n == 0xAD || n == 0x200B || n == 0x2060 || n == 0x2064 || n == 0xFEFF ||
    (0xFE00 ≤ n && n ≤ 0xFE0F)

def foldName (text : List Char) : List Char :=
  (text.filter fun c => !isDropped c).map fun c => if isLabelDot c then '.' else foldChar c

def isForbidden (c : Char) : Bool :=
  c.toNat ≤ 0x20 || c.toNat == 0x7F || inText "#%/:<>?@[\\]^|" c

def mayStand (c : Char) : Bool :=
  if c.toNat < 0x80 then !isForbidden c else !Text.isInvisible c

def isAscii (text : List Char) : Bool :=
  text.all fun c => c.toNat < 0x80

def punycodeMark : List Char := ['x', 'n', '-', '-']

def asciiLabel? (label : List Char) : Option (List Char) :=
  if !label.all mayStand then none
  else if !isAscii label then some (punycodeMark ++ Punycode.encode label)
  else if punycodeMark.isPrefixOf label then do
    let decoded ← Punycode.decode (label.drop 4)
    if isAscii decoded || foldName decoded != decoded || !decoded.all mayStand then none
    else some label
  else some label

def asciiName? (text : List Char) : Option (List Char) := do
  let labels ← (splitAtChar '.' (foldName text)).mapM asciiLabel?
  some (joinWith '.' labels)

inductive Part
  | fits (n : Nat)
  | tooLarge
  | notNumeric
  deriving DecidableEq, Repr

def readRadix (radix : Nat) (digits : List Char) : Option Nat :=
  digits.foldlM (fun n c => do
    let d ← if c.isDigit then some (c.toNat - 48)
      else if c.isAlpha then some (c.toLower.toNat - 87) else none
    if d < radix then some (n * radix + d) else none) 0

def Part.ofRadix (radix : Nat) (digits : List Char) : Part :=
  if digits.isEmpty then fits 0
  else match readRadix radix digits with
    | none => notNumeric
    | some n => if n < Number.word32 then fits n else tooLarge

def Part.read : List Char → Part
  | [] => notNumeric
  | '0' :: 'x' :: digits => ofRadix 16 digits
  | '0' :: 'X' :: digits => ofRadix 16 digits
  | '0' :: d :: digits => ofRadix 8 (d :: digits)
  | digits => ofRadix 10 digits

def numericParts (text : List Char) : List (List Char) :=
  let parts := splitAtChar '.' text
  if parts.length > 1 && parts.getLast? == some [] then parts.dropLast else parts

def endsInNumber (text : List Char) : Bool :=
  match (numericParts text).getLast? with
  | none => false
  | some [] => false
  | some last => last.all Char.isDigit || Part.read last != .notNumeric

def partValue? (part : List Char) : Option Nat :=
  match Part.read part with
  | .fits n => some n
  | _ => none

def readV4? (text : List Char) : Option Nat := do
  let parts := numericParts text
  if parts.length > 4 then none
  let numbers ← parts.mapM partValue?
  let last ← numbers.getLast?
  let leading := numbers.dropLast
  if leading.any (· > 255) || Nat.pow 256 (4 - leading.length) ≤ last then none
  some (((List.range leading.length).zip leading).foldl
    (fun sum (i, n) => sum + n * Nat.pow 256 (3 - i)) last)

def renderV4 (word : Nat) : String :=
  String.intercalate "." ([3, 2, 1, 0].map fun i => toString (word / Nat.pow 256 i % 256))

def readDotted? (text : List Char) : Option (List Nat) := do
  let parts := splitAtChar '.' text
  if parts.length ≠ 4 then none
  let numbers ← parts.mapM fun part => do
    if part.isEmpty || part.length > 3 || (part.length > 1 && part.head? == some '0') then none
    let n ← readRadix 10 part
    if n > 255 then none
    some n
  match numbers with
  | [a, b, c, d] => some [a * 256 + b, c * 256 + d]
  | _ => none

def readPiece? (digits : List Char) : Option Nat :=
  if digits.isEmpty || digits.length > 4 then none else readRadix 16 digits

def readPieces? (text : List Char) : Option (List Nat) :=
  if text.isEmpty then some []
  else
    let parts := splitAtChar ':' text
    match parts.getLast? with
    | none => none
    | some last =>
      if last.contains '.' then do
        some ((← parts.dropLast.mapM readPiece?) ++ (← readDotted? last))
      else parts.mapM readPiece?

def splitGap : List Char → Option (List Char × List Char)
  | ':' :: ':' :: rest => some ([], rest)
  | c :: rest => (splitGap rest).map fun (before, after) => (c :: before, after)
  | [] => none

def readV6? (text : List Char) : Option (List Nat) :=
  match splitGap text with
  | none => do
    let pieces ← readPieces? text
    if pieces.length = 8 then some pieces else none
  | some (before, after) => do
    if before.contains '.' then none
    let front ← readPieces? before
    let back ← readPieces? after
    if front.length + back.length > 7 then none
    some (front ++ List.replicate (8 - front.length - back.length) 0 ++ back)

def zerosAhead : List Nat → Nat
  | 0 :: rest => zerosAhead rest + 1
  | _ => 0

def longestZeros : Nat → List Nat → Nat × Nat
  | _, [] => (0, 0)
  | i, p :: rest =>
    let here := zerosAhead (p :: rest)
    let later := longestZeros (i + 1) rest
    if here ≠ 0 && later.2 ≤ here then (i, here) else later

def hexPieces (pieces : List Nat) : String :=
  String.intercalate ":" (pieces.map fun p => String.ofList (Text.hex p))

def renderV6 (pieces : List Nat) : String :=
  let (start, length) := longestZeros 0 pieces
  if length < 2 then hexPieces pieces
  else hexPieces (pieces.take start) ++ "::" ++ hexPieces (pieces.drop (start + length))

def Host.render : Host → String
  | name text => text
  | v4 word => renderV4 word
  | v6 pieces => "[" ++ renderV6 pieces ++ "]"

def bracketed? (text : List Char) : Option (Option Host) :=
  match text with
  | '[' :: rest =>
    match rest.reverse with
    | ']' :: reversed => some ((readV6? reversed.reverse).map .v6)
    | _ => some none
  | _ => none

def Host.domain? (text : List Char) : Option Host :=
  match bracketed? text with
  | some host => host
  | none => do
    let decoded ← String.fromUTF8? ⟨(decode text).toArray⟩
    let ascii ← asciiName? decoded.toList
    if ascii.isEmpty then none
    else if endsInNumber ascii then (readV4? ascii).map .v4
    else some (.name (String.ofList ascii))

def Host.opaque? (text : List Char) : Option Host :=
  match bracketed? text with
  | some host => host
  | none =>
    if text.any fun c => inText " #/:<>?@[\\]^|" c || c.toNat == 0 then none
    else some (.name (String.ofList (encode isControl text)))

end CatalogCrawl.Url

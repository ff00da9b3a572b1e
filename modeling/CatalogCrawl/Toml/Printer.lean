import CatalogCrawl.Json.Basic
import CatalogCrawl.Number.Layout
import CatalogCrawl.Number.Word

namespace CatalogCrawl.Toml

inductive Style
  | basic | literal | basicLines | literalLines
  deriving DecidableEq, Repr

structure Content where
  quotes : Nat
  apostrophes : Nat
  backslash : Bool
  control : Bool
  newline : Bool
  deriving DecidableEq, Repr

def longestRun (c : Char) : Nat → Nat → List Char → Nat
  | best, _, [] => best
  | best, run, d :: rest =>
    if d = c then longestRun c (max best (run + 1)) (run + 1) rest else longestRun c best 0 rest

def isControl (c : Char) : Bool :=
  c != '\t' && c != '\n' && (c.toNat < 0x20 || c.toNat == 0x7F)

def Content.of (chars : List Char) : Content :=
  { quotes := longestRun '"' 0 0 chars
    apostrophes := longestRun '\'' 0 0 chars
    backslash := chars.contains '\\'
    control := chars.any isControl
    newline := chars.contains '\n' }

def Content.style (c : Content) : Style :=
  if !c.control && !c.backslash && c.quotes = 0 && !c.newline then .basic
  else if !c.control && c.apostrophes = 0 && !c.newline then .literal
  else if !c.control && !c.backslash && c.quotes ≤ 2 then .basicLines
  else if !c.control && c.apostrophes ≤ 2 then .literalLines
  else if c.newline then .basicLines
  else .basic

def Style.mark : Style → String
  | .basic => "\""
  | .literal => "'"
  | .basicLines => "\"\"\""
  | .literalLines => "'''"

def Style.isLines : Style → Bool
  | .basicLines | .literalLines => true
  | _ => false

def Style.hasEscapes : Style → Bool
  | .basic | .basicLines => true
  | _ => false

def upperHex (n : Nat) : Char :=
  if n < 10 then Char.ofNat (48 + n) else Char.ofNat (55 + n)

def escape? (lines : Bool) (c : Char) : Option (List Char) :=
  if c = '\t' then some ['\\', 't']
  else if c = '\n' then if lines then none else some ['\\', 'n']
  else if c = '\r' then some ['\\', 'r']
  else if c = '\\' then some ['\\', '\\']
  else if c.toNat = 8 then some ['\\', 'b']
  else if c.toNat = 12 then some ['\\', 'f']
  else if isControl c then
    some ['\\', 'u', '0', '0', upperHex (c.toNat / 16), upperHex (c.toNat % 16)]
  else none

def escaped (lines : Bool) (allowed : Nat) : Nat → List Char → List Char
  | _, [] => []
  | run, c :: rest =>
    if c = '"' then
      if allowed ≤ run then '\\' :: '"' :: escaped lines allowed 0 rest
      else '"' :: escaped lines allowed (run + 1) rest
    else match escape? lines c with
      | some text => text ++ escaped lines allowed 0 rest
      | none => c :: escaped lines allowed 0 rest

def stringText (s : String) : String :=
  let chars := s.toList
  let content := Content.of chars
  let style := content.style
  let body :=
    if style.hasEscapes then escaped style.isLines (if style.isLines then 2 else 0) 0 chars
    else chars
  style.mark ++ (if style.isLines && content.newline then "\n" else "") ++
    String.ofList body ++ style.mark

def realText (x : Float) : String :=
  match Number.shape x with
  | .nan => "nan"
  | .infinite negative => if negative then "-inf" else "inf"
  | .finite d => d.positional

def keyText (key : String) : String :=
  let bare (c : Char) : Bool := c.isAlphanum || c == '-' || c == '_'
  if key.isEmpty || !key.toList.all bare then stringText key else key

mutual

def valueText : Json → Option String
  | .null => none
  | .bool b => some (if b then "true" else "false")
  | .int n => if -(Number.half64 : Int) ≤ n && n < Number.half64 then some (toString n) else none
  | .num x => some (realText x)
  | .str s => some (stringText s)
  | .arr items => do
    let texts ← itemTexts items
    match texts with
    | [] => some "[]"
    | [text] => some ("[" ++ text ++ "]")
    | texts => some ("[\n" ++ String.join (texts.map fun t => "    " ++ t ++ ",\n") ++ "]")
  | .obj fields => do
    let texts ← entryTexts fields
    some (if texts.isEmpty then "\x7b\x7d" else "\x7b " ++ String.intercalate ", " texts ++ " \x7d")

def itemTexts : List Json → Option (List String)
  | [] => some []
  | x :: xs => do some ((← valueText x) :: (← itemTexts xs))

def entryTexts : List (String × Json) → Option (List String)
  | [] => some []
  | (k, x) :: xs => do some ((keyText k ++ " = " ++ (← valueText x)) :: (← entryTexts xs))

end

def hasHeader : Json → Bool
  | .obj _ => true
  | .arr items => !items.isEmpty && items.all fun
    | .obj _ => true
    | _ => false
  | _ => false

def headerText (opening closing : String) (path : List String) : String :=
  opening ++ String.intercalate "." (path.map keyText) ++ closing ++ "\n"

def ownLines (fields : List (String × Json)) : Option String := do
  let texts ← entryTexts (fields.filter fun (_, x) => !hasHeader x)
  some (String.join (texts.map (· ++ "\n")))

mutual

def blocks (path : List String) : Json → Option (List String)
  | .obj fields => fieldBlocks path fields
  | _ => some []

def fieldBlocks (path : List String) : List (String × Json) → Option (List String)
  | [] => some []
  | (k, x) :: rest => do
    let own ← match x with
      | .obj fields => do
        let lines ← ownLines fields
        let below ← fieldBlocks (path ++ [k]) fields
        let bare := lines.isEmpty && !fields.isEmpty
        some (if bare then below else (headerText "[" "]" (path ++ [k]) ++ lines) :: below)
      | .arr items => if hasHeader (.arr items) then itemBlocks (path ++ [k]) items else some []
      | _ => some []
    some (own ++ (← fieldBlocks path rest))

def itemBlocks (path : List String) : List Json → Option (List String)
  | [] => some []
  | x :: xs => do
    let lines ← match x with
      | .obj fields => ownLines fields
      | _ => some ""
    let below ← blocks path x
    some ((headerText "[[" "]]" path ++ lines) :: below ++ (← itemBlocks path xs))

end

def print (fields : List (String × Json)) : Option String := do
  let lines ← ownLines fields
  let below ← fieldBlocks [] fields
  some (String.intercalate "\n" ((if lines.isEmpty then [] else [lines]) ++ below))

end CatalogCrawl.Toml

import CatalogCrawl.Number.Binary
import CatalogCrawl.Number.Word
import CatalogCrawl.Toml.Tree

namespace CatalogCrawl.Toml

abbrev Text := List Char

def isGap (c : Char) : Bool :=
  c == ' ' || c == '\t'

def skipGap (text : Text) : Text :=
  text.dropWhile isGap

def isPlain (c : Char) : Bool :=
  c == '\t' || (0x20 ≤ c.toNat && c.toNat != 0x7F)

def lineBreak? : Text → Option Text
  | '\n' :: rest => some rest
  | '\r' :: '\n' :: rest => some rest
  | _ => none

def skipComment : Text → Text
  | '#' :: rest => rest.dropWhile isPlain
  | text => text

def lineEnd? (text : Text) : Option Text :=
  match skipComment (skipGap text) with
  | [] => some []
  | rest => lineBreak? rest

def skipLines : Nat → Text → Text
  | 0, text => text
  | fuel + 1, text =>
    match skipGap text with
    | '#' :: rest =>
      match lineBreak? (rest.dropWhile isPlain) with
      | some rest => skipLines fuel rest
      | none => '#' :: rest
    | rest =>
      match lineBreak? rest with
      | some rest => skipLines fuel rest
      | none => rest

section Strings

def hexOf? (c : Char) : Option Nat :=
  if c.isDigit then some (c.toNat - 48)
  else if 'a' ≤ c && c ≤ 'f' then some (c.toNat - 87)
  else if 'A' ≤ c && c ≤ 'F' then some (c.toNat - 55)
  else none

def readCode : Nat → Nat → Text → Option (Char × Text)
  | 0, code, rest =>
    if code < 0xD800 || (0xDFFF < code && code < 0x110000) then some (Char.ofNat code, rest)
    else none
  | n + 1, code, c :: rest => do readCode n (code * 16 + (← hexOf? c)) rest
  | _, _, [] => none

def readEscape : Text → Option (Char × Text)
  | 'b' :: rest => some (Char.ofNat 8, rest)
  | 't' :: rest => some ('\t', rest)
  | 'n' :: rest => some ('\n', rest)
  | 'f' :: rest => some (Char.ofNat 12, rest)
  | 'r' :: rest => some ('\r', rest)
  | '"' :: rest => some ('"', rest)
  | '\\' :: rest => some ('\\', rest)
  | 'u' :: rest => readCode 4 0 rest
  | 'U' :: rest => readCode 8 0 rest
  | _ => none

def readLine (mark : Char) : Nat → Text → Option (Text × Text)
  | 0, _ => none
  | _, [] => none
  | fuel + 1, c :: rest =>
    if c == mark then some ([], rest)
    else if c == '\\' && mark == '"' then do
      let (d, rest) ← readEscape rest
      let (content, rest) ← readLine mark fuel rest
      some (d :: content, rest)
    else if isPlain c then do
      let (content, rest) ← readLine mark fuel rest
      some (c :: content, rest)
    else none

def continued? (text : Text) : Option Text := do
  let rest ← lineBreak? (skipGap text)
  some (skipBreaks (rest.length + 1) rest)
where
  skipBreaks : Nat → Text → Text
    | 0, text => text
    | fuel + 1, text =>
      let rest := skipGap text
      match lineBreak? rest with
      | some rest => skipBreaks fuel rest
      | none => rest

def readLines (mark : Char) : Nat → Text → Option (Text × Text)
  | 0, _ => none
  | _, [] => none
  | fuel + 1, c :: rest =>
    if c == mark then
      let marks := ((c :: rest).takeWhile (· == mark)).length
      let rest := (c :: rest).drop marks
      if marks < 3 then do
        let (content, rest) ← readLines mark fuel rest
        some (List.replicate marks mark ++ content, rest)
      else if marks ≤ 5 then some (List.replicate (marks - 3) mark, rest)
      else none
    else if c == '\\' && mark == '"' then
      match continued? rest with
      | some rest => readLines mark fuel rest
      | none => do
        let (d, rest) ← readEscape rest
        let (content, rest) ← readLines mark fuel rest
        some (d :: content, rest)
    else
      match lineBreak? (c :: rest) with
      | some rest => do
        let (content, rest) ← readLines mark fuel rest
        some ('\n' :: content, rest)
      | none =>
        if isPlain c then do
          let (content, rest) ← readLines mark fuel rest
          some (c :: content, rest)
        else none

def readString (mark : Char) (text : Text) : Option (String × Text) := do
  let (content, rest) ← match text with
    | a :: b :: rest =>
      if a == mark && b == mark then
        readLines mark (rest.length + 1) ((lineBreak? rest).getD rest)
      else readLine mark (text.length + 1) text
    | text => readLine mark (text.length + 1) text
  some (String.ofList content, rest)

end Strings

section Times

def readDigits : Nat → Nat → Text → Option (Nat × Text)
  | 0, n, rest => some (n, rest)
  | count + 1, n, c :: rest =>
    if c.isDigit then readDigits count (n * 10 + (c.toNat - 48)) rest else none
  | _, _, [] => none

def readPart (first last : Nat) (text : Text) : Option (Nat × Text) := do
  let (n, rest) ← readDigits 2 0 text
  if first ≤ n && n ≤ last then some (n, rest) else none

def readMark (mark : Char) : Text → Option Text
  | c :: rest => if c == mark then some rest else none
  | [] => none

def daysIn (year month : Nat) : Nat :=
  if month = 2 then
    if year % 4 = 0 && (year % 100 != 0 || year % 400 = 0) then 29 else 28
  else if month = 4 || month = 6 || month = 9 || month = 11 then 30
  else 31

def readDate (text : Text) : Option Text := do
  let (year, rest) ← readDigits 4 0 text
  let (month, rest) ← readPart 1 12 (← readMark '-' rest)
  let (_, rest) ← readPart 1 (daysIn year month) (← readMark '-' rest)
  some rest

def readTime (text : Text) : Option Text := do
  let (_, rest) ← readPart 0 23 text
  let (_, rest) ← readPart 0 59 (← readMark ':' rest)
  let (_, rest) ← readPart 0 60 (← readMark ':' rest)
  match rest with
  | '.' :: c :: rest => if c.isDigit then some (rest.dropWhile Char.isDigit) else none
  | rest => some rest

def readOffset : Text → Option Text
  | 'Z' :: rest | 'z' :: rest => some rest
  | '+' :: rest | '-' :: rest => do
    let (_, rest) ← readPart 0 23 rest
    let (_, rest) ← readPart 0 59 (← readMark ':' rest)
    some rest
  | _ => none

def readStamp (text : Text) : Option Text :=
  match readDate text with
  | some rest =>
    match rest with
    | c :: after =>
      if c == 'T' || c == 't' || c == ' ' then
        match readTime after with
        | some rest => some ((readOffset rest).getD rest)
        | none => some (c :: after)
      else some rest
    | [] => some []
  | none => readTime text

end Times

section Numbers

def readRun (isDigit : Char → Bool) : Text → Text × Text
  | c :: rest =>
    if isDigit c then
      let (digits, rest) := match rest with
        | '_' :: d :: rest => if isDigit d then readRun isDigit (d :: rest) else ([], '_' :: d :: rest)
        | rest => readRun isDigit rest
      (c :: digits, rest)
    else ([], c :: rest)
  | [] => ([], [])

def value (base : Nat) (digits : Text) : Nat :=
  digits.foldl (fun n c => n * base + (hexOf? c).getD 0) 0

def readBased (base : Nat) (isDigit : Char → Bool) (text : Text) : Option (Datum × Text) :=
  let (digits, rest) := readRun isDigit text
  let n := value base digits
  if digits.isEmpty || Number.half64 ≤ n then none else some (.whole n, rest)

def readExponent (text : Text) : Option (Int × Text) :=
  let (negative, rest) := match text with
    | '-' :: rest => (true, rest)
    | '+' :: rest => (false, rest)
    | rest => (false, rest)
  let (digits, rest) := readRun Char.isDigit rest
  if digits.isEmpty then none
  else some (if negative then -(value 10 digits : Int) else value 10 digits, rest)

def readReal (negative : Bool) (whole places : Text) (exponent : Int) (rest : Text) :
    Option (Datum × Text) :=
  let x := Number.ofDecimal negative (value 10 (whole ++ places)) (exponent - places.length)
  if x == 1.0 / 0.0 then none else some (.real x, rest)

def readDecimal (negative : Bool) (text : Text) : Option (Datum × Text) :=
  let (whole, rest) := match text with
    | '0' :: rest => (['0'], rest)
    | text => readRun Char.isDigit text
  if whole.isEmpty then none
  else match rest with
    | '.' :: rest =>
      let (places, rest) := readRun Char.isDigit rest
      if places.isEmpty then none
      else match rest with
        | 'e' :: rest | 'E' :: rest => do
          let (exponent, rest) ← readExponent rest
          readReal negative whole places exponent rest
        | rest => readReal negative whole places 0 rest
    | 'e' :: rest | 'E' :: rest => do
      let (exponent, rest) ← readExponent rest
      readReal negative whole [] exponent rest
    | rest =>
      let n := value 10 whole
      if negative then if Number.half64 < n then none else some (.whole (-(n : Int)), rest)
      else if Number.half64 ≤ n then none else some (.whole n, rest)

def readSigned (negative : Bool) : Text → Option (Datum × Text)
  | 'i' :: 'n' :: 'f' :: rest => some (.real (if negative then -1.0 / 0.0 else 1.0 / 0.0), rest)
  | 'n' :: 'a' :: 'n' :: rest => some (.real (0.0 / 0.0), rest)
  | text => readDecimal negative text

def readNumber : Text → Option (Datum × Text)
  | '+' :: rest => readSigned false rest
  | '-' :: rest => readSigned true rest
  | '0' :: 'x' :: rest => readBased 16 (fun c => (hexOf? c).isSome) rest
  | '0' :: 'o' :: rest => readBased 8 (fun c => '0' ≤ c && c ≤ '7') rest
  | '0' :: 'b' :: rest => readBased 2 (fun c => c == '0' || c == '1') rest
  | text => readSigned false text

end Numbers

def isBare (c : Char) : Bool :=
  c.isAlphanum || c == '-' || c == '_'

def readSimpleKey : Text → Option (String × Text)
  | '"' :: rest => do
    let (content, rest) ← readLine '"' (rest.length + 1) rest
    some (String.ofList content, rest)
  | '\'' :: rest => do
    let (content, rest) ← readLine '\'' (rest.length + 1) rest
    some (String.ofList content, rest)
  | text =>
    let name := text.takeWhile isBare
    if name.isEmpty then none else some (String.ofList name, text.dropWhile isBare)

def readNames : Nat → Text → Option (List String × Text)
  | 0, _ => none
  | fuel + 1, text => do
    let (name, rest) ← readSimpleKey (skipGap text)
    match skipGap rest with
    | '.' :: rest => do
      let (names, rest) ← readNames fuel rest
      some (name :: names, rest)
    | rest => some ([name], rest)

def depthLimit : Nat := 80

def readKey (text : Text) : Option (Key × Text) := do
  let (names, rest) ← readNames (text.length + 1) text
  if depthLimit ≤ names.length then none
  some (⟨names.dropLast, ← names.getLast?⟩, rest)

def readWord (word : String) (d : Datum) (text : Text) : Option (Datum × Text) :=
  let expected := word.toList
  if text.take expected.length == expected then some (d, text.drop expected.length) else none

mutual

def readValue : Nat → Nat → Text → Option (Datum × Text)
  | 0, _, _ => none
  | fuel + 1, depth, text =>
    match text with
    | '"' :: rest => (readString '"' rest).map fun (s, rest) => (.text s, rest)
    | '\'' :: rest => (readString '\'' rest).map fun (s, rest) => (.text s, rest)
    | '[' :: rest =>
      if depthLimit ≤ depth + 1 then none
      else do
        let (items, rest) ← readItems fuel (depth + 1) rest
        some (.list items, rest)
    | '\x7b' :: rest =>
      if depthLimit ≤ depth + 1 then none
      else do
        let (entries, rest) ← match skipGap rest with
          | '\x7d' :: rest => some ([], rest)
          | rest => readEntries fuel (depth + 1) rest
        let table ← Table.ofEntries? entries
        some (table.datum, rest)
    | 't' :: _ => readWord "true" (.flag true) text
    | 'f' :: _ => readWord "false" (.flag false) text
    | text =>
      match readStamp text with
      | some rest => some (.stamp, rest)
      | none => readNumber text

def readItems : Nat → Nat → Text → Option (List Datum × Text)
  | 0, _, _ => none
  | fuel + 1, depth, text =>
    match skipLines (text.length + 1) text with
    | ']' :: rest => some ([], rest)
    | rest => do
      let (item, rest) ← readValue fuel depth rest
      match skipLines (rest.length + 1) rest with
      | ',' :: rest => do
        let (items, rest) ← readItems fuel depth rest
        some (item :: items, rest)
      | ']' :: rest => some ([item], rest)
      | _ => none

def readEntries : Nat → Nat → Text → Option (List (Key × Datum) × Text)
  | 0, _, _ => none
  | fuel + 1, depth, text => do
    let (key, rest) ← readKey text
    let (d, rest) ← readValue fuel depth (skipGap (← readMark '=' rest))
    match skipGap rest with
    | ',' :: rest => do
      let (entries, rest) ← readEntries fuel depth rest
      some ((key, d) :: entries, rest)
    | '\x7d' :: rest => some ([(key, d)], rest)
    | _ => none

end

def readStatement : Text → Option (Line × Text)
  | '[' :: '[' :: rest => do
    let (key, rest) ← readKey rest
    match rest with
    | ']' :: ']' :: rest => some (.item key, ← lineEnd? rest)
    | _ => none
  | '[' :: rest => do
    let (key, rest) ← readKey rest
    some (.header key, ← lineEnd? (← readMark ']' rest))
  | text => do
    let (key, rest) ← readKey text
    let (d, rest) ← readValue (rest.length + 1) 0 (skipGap (← readMark '=' rest))
    some (.entry key d, ← lineEnd? rest)

def readDraft : Nat → Draft → Text → Option Draft
  | 0, _, _ => none
  | fuel + 1, draft, text =>
    match skipGap text with
    | [] => some draft
    | '#' :: rest => do readDraft fuel draft (← lineEnd? ('#' :: rest))
    | rest =>
      match lineBreak? rest with
      | some rest => readDraft fuel draft rest
      | none => do
        let (line, rest) ← readStatement rest
        readDraft fuel (← draft.add line) rest

def read (text : String) : Option Datum := do
  let text := match text.toList with
    | c :: rest => if c.toNat = 0xFEFF then rest else c :: rest
    | [] => []
  some (← readDraft (text.length + 1) Draft.empty text).root.datum

def rules : Datum.Rules := ⟨false⟩

end CatalogCrawl.Toml

import CatalogCrawl.Number.Word
import CatalogCrawl.Span.Basic
import CatalogCrawl.Text.Blank

namespace CatalogCrawl.Span

inductive TimeUnit
  | nanosecond | microsecond | millisecond | second | minute | hour | day | week | month | year
  deriving DecidableEq, Repr

namespace TimeUnit

def ofName? : String → Option TimeUnit
  | "nanos" | "nsec" | "ns" => some nanosecond
  | "usec" | "us" | "µs" => some microsecond
  | "millis" | "msec" | "ms" => some millisecond
  | "seconds" | "second" | "secs" | "sec" | "s" => some second
  | "minutes" | "minute" | "min" | "mins" | "m" => some minute
  | "hours" | "hour" | "hr" | "hrs" | "h" => some hour
  | "days" | "day" | "d" => some day
  | "weeks" | "week" | "wk" | "wks" | "w" => some week
  | "months" | "month" | "M" => some month
  | "years" | "year" | "yr" | "yrs" | "y" => some year
  | _ => none

def nanos : TimeUnit → Option Nat
  | nanosecond => some 1
  | microsecond => some 1000
  | millisecond => some 1000000
  | _ => none

def secs : TimeUnit → Nat
  | minute => 60
  | hour => 3600
  | day => 86400
  | week => 604800
  | month => 2630016
  | year => 31557600
  | _ => 1

def fractionScale : TimeUnit → Option (Bool × Nat)
  | nanosecond => none
  | microsecond => some (true, 1000)
  | millisecond => some (true, 1000000)
  | second => some (true, 1000000000)
  | minute => some (true, 60000000000)
  | u => some (false, u.secs)

end TimeUnit

structure Count where
  whole : Nat
  fraction : Option (Nat × Nat)
  deriving DecidableEq, Repr

def inWord (n : Nat) : Option Nat :=
  if n < Number.word64 then some n else none

def add? (s : Span) (secs nanos : Nat) : Option Span := do
  let nanos ← inWord (s.subsec + nanos)
  let carried ← inWord (secs + nanos / nanosInSec)
  let total ← inWord (s.secs + carried)
  some (ofParts total (nanos % nanosInSec))

def addWhole? (s : Span) (n : Nat) (u : TimeUnit) : Option Span :=
  match u.nanos with
  | some scale => do s.add? 0 (← inWord (n * scale))
  | none => do s.add? (← inWord (n * u.secs)) 0

def addFraction? (s : Span) (num den : Nat) (u : TimeUnit) : Option Span := do
  let (fine, scale) ← u.fractionScale
  let scaled ← inWord (num * scale)
  if scaled % den ≠ 0 then none
  else if fine then s.add? 0 (scaled / den)
  else s.add? (scaled / den) 0

def addCount? (s : Span) (c : Count) (u : TimeUnit) : Option Span := do
  let s ← s.addWhole? c.whole u
  match c.fraction with
  | none => some s
  | some (num, den) => s.addFraction? num den u

def isUnitLetter (c : Char) : Bool :=
  c.isAlpha || c == 'µ'

def digitOf? (c : Char) : Option Nat :=
  if c.isDigit then some (c.toNat - 48) else none

def readFraction (num den : Nat) : List Char → Option ((Nat × Nat) × List Char)
  | [] => if den = 1 then none else some ((num, den), [])
  | c :: rest =>
    match digitOf? c with
    | some d => do readFraction (← inWord (num * 10 + d)) (← inWord (den * 10)) rest
    | none =>
      if Text.isBlank c then readFraction num den rest
      else if isUnitLetter c then (if den = 1 then none else some ((num, den), c :: rest))
      else none

def readCount (n : Nat) : List Char → Option (Count × List Char)
  | [] => some (⟨n, none⟩, [])
  | c :: rest =>
    match digitOf? c with
    | some d => do readCount (← inWord (n * 10 + d)) rest
    | none =>
      if Text.isBlank c then readCount n rest
      else if isUnitLetter c then some (⟨n, none⟩, c :: rest)
      else if c = '.' then do
        let (fraction, rest) ← readFraction 0 1 rest
        some (⟨n, some fraction⟩, rest)
      else none

def readUnit : List Char → Option (List Char × List Char)
  | [] => some ([], [])
  | c :: rest =>
    if isUnitLetter c then do
      let (letters, rest) ← readUnit rest
      some (c :: letters, rest)
    else if Text.isBlank c then some ([], rest)
    else if c.isDigit then some ([], c :: rest)
    else none

def readCounts : Nat → Span → List Char → Option Span
  | 0, _, _ => none
  | fuel + 1, total, text =>
    match text.dropWhile Text.isBlank with
    | [] => some total
    | c :: rest => do
      let first ← digitOf? c
      let (count, rest) ← readCount first rest
      let (letters, rest) ← readUnit rest
      let u ← TimeUnit.ofName? (String.ofList letters)
      readCounts fuel (← total.addCount? count u) rest

def parse? (text : String) : Option Span :=
  if text = "0" then some zero
  else if text.toList.all Text.isBlank then none
  else readCounts (text.length + 1) zero text.toList

def item (count : Nat) (word : String) (plural : Bool) : List String :=
  if count = 0 then []
  else [toString count ++ word ++ (if plural && count > 1 then "s" else "")]

def items (s : Span) : List String :=
  let inYear := s.secs % 31557600
  let inMonth := inYear % 2630016
  let inDay := inMonth % 86400
  item (s.secs / 31557600) "year" true ++
  item (inYear / 2630016) "month" true ++
  item (inMonth / 86400) "day" true ++
  item (inDay / 3600) "h" false ++
  item (inDay % 3600 / 60) "m" false ++
  item (inDay % 60) "s" false ++
  item (s.subsec / 1000000) "ms" false ++
  item (s.subsec / 1000 % 1000) "us" false ++
  item (s.subsec % 1000) "ns" false

def render (s : Span) : String :=
  if s.nanos = 0 then "0s" else String.intercalate " " s.items

end CatalogCrawl.Span

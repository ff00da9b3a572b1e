import CatalogCrawl.Json.Basic
import CatalogCrawl.Number.Layout
import CatalogCrawl.Text.Quoted

namespace CatalogCrawl.Json

def escapeChar (c : Char) : List Char :=
  if c = '"' || c = '\\' then ['\\', c]
  else if c = '\n' then ['\\', 'n']
  else if c = '\r' then ['\\', 'r']
  else if c = '\t' then ['\\', 't']
  else if c.toNat = 8 then ['\\', 'b']
  else if c.toNat = 12 then ['\\', 'f']
  else if c.toNat < 32 then
    ['\\', 'u', '0', '0', Text.hexDigit (c.toNat / 16), Text.hexDigit (c.toNat % 16)]
  else [c]

def quote (s : String) : String :=
  String.ofList ('"' :: s.toList.flatMap escapeChar ++ ['"'])

def numberText (x : Float) : String :=
  match Number.shape x with
  | .finite d => d.balanced
  | _ => "null"

mutual

def compact : Json → String
  | null => "null"
  | bool b => if b then "true" else "false"
  | int n => toString n
  | num x => numberText x
  | str s => quote s
  | arr items => "[" ++ String.intercalate "," (compactItems items) ++ "]"
  | obj fields => "\x7b" ++ String.intercalate "," (compactFields fields) ++ "\x7d"

def compactItems : List Json → List String
  | [] => []
  | x :: xs => compact x :: compactItems xs

def compactFields : List (String × Json) → List String
  | [] => []
  | (k, x) :: xs => (quote k ++ ":" ++ compact x) :: compactFields xs

end

def indent (level : Nat) : String :=
  String.ofList (List.replicate (2 * level) ' ')

def block (level : Nat) (opening closing : String) (lines : List String) : String :=
  if lines.isEmpty then opening ++ closing
  else
    opening ++ "\n" ++ String.intercalate ",\n" (lines.map (indent (level + 1) ++ ·)) ++ "\n" ++
      indent level ++ closing

mutual

def pretty (level : Nat) : Json → String
  | arr items => block level "[" "]" (prettyItems level items)
  | obj fields => block level "\x7b" "\x7d" (prettyFields level fields)
  | null => "null"
  | bool b => if b then "true" else "false"
  | int n => toString n
  | num x => numberText x
  | str s => quote s

def prettyItems (level : Nat) : List Json → List String
  | [] => []
  | x :: xs => pretty (level + 1) x :: prettyItems level xs

def prettyFields (level : Nat) : List (String × Json) → List String
  | [] => []
  | (k, x) :: xs => (quote k ++ ": " ++ pretty (level + 1) x) :: prettyFields level xs

end

end CatalogCrawl.Json

import CatalogCrawl.Url.Host
import CatalogCrawl.Url.Path

namespace CatalogCrawl

namespace Url

structure Authority where
  username : String
  password : String
  host : Host
  portNumber : Option Nat
  deriving DecidableEq, Repr

end Url

structure Url where
  scheme : String
  authority : Option Url.Authority
  path : String
  query : Option String
  fragment : Option String
  deriving DecidableEq, Repr

namespace Url

def Authority.credentials (a : Authority) : String :=
  if a.username.isEmpty && a.password.isEmpty then ""
  else a.username ++ (if a.password.isEmpty then "" else ":" ++ a.password) ++ "@"

def Authority.render (a : Authority) : String :=
  a.credentials ++ a.host.render ++ (a.portNumber.map fun p => ":" ++ toString p).getD ""

def pathText (authority : Option Authority) (path : String) : String :=
  match authority with
  | some a => "//" ++ a.render ++ path
  | none => if path.startsWith "//" then "/." ++ path else path

def render (u : Url) : String :=
  u.scheme ++ ":" ++ pathText u.authority u.path ++
    (u.query.map fun q => "?" ++ q).getD "" ++ (u.fragment.map fun f => "#" ++ f).getD ""

instance : ToString Url := ⟨render⟩

def usualPortNumber? (scheme : String) : Option Nat :=
  if scheme = "http" || scheme = "ws" then some 80
  else if scheme = "https" || scheme = "wss" then some 443
  else if scheme = "ftp" then some 21
  else none

def clean (text : List Char) : List Char :=
  let outer (c : Char) : Bool := c.toNat ≤ 0x20
  let trimmed := ((text.dropWhile outer).reverse.dropWhile outer).reverse
  trimmed.filter fun c => c != '\t' && c != '\n' && c != '\r'

def isSchemeChar (c : Char) : Bool :=
  c.isAlphanum || c == '+' || c == '-' || c == '.'

def readScheme (text : List Char) : Option (String × List Char) :=
  match text with
  | [] => none
  | c :: _ =>
    if !c.isAlpha then none
    else match text.dropWhile isSchemeChar with
      | ':' :: rest => some (String.ofList (lowerAscii (text.takeWhile isSchemeChar)), rest)
      | _ => none

def endsAuthority (kind : SchemeKind) (c : Char) : Bool :=
  kind.isSlash c || c == '?' || c == '#'

def splitUserinfo (kind : SchemeKind) (input : List Char) : Option (List Char × List Char) :=
  let authority := input.takeWhile fun c => !endsAuthority kind c
  let after := (authority.reverse.takeWhile (· != '@')).reverse
  if after.length = authority.length then none
  else
    let before := authority.take (authority.length - after.length - 1)
    some (before, input.drop (before.length + 1))

def readUserinfo (text : List Char) : String × String :=
  let name := text.takeWhile (· != ':')
  let password := (text.dropWhile (· != ':')).drop 1
  (String.ofList (encode userinfoEscapes name), String.ofList (encode userinfoEscapes password))

def splitHost (kind : SchemeKind) : Bool → List Char → List Char × List Char
  | _, [] => ([], [])
  | bracket, c :: rest =>
    if (c == ':' && !bracket) || endsAuthority kind c then ([], c :: rest)
    else
      let bracket := if c == '[' then true else if c == ']' then false else bracket
      let (host, rest) := splitHost kind bracket rest
      (c :: host, rest)

def readPortNumber (scheme : String) (input : List Char) : Option (Option Nat × List Char) :=
  let digits := input.takeWhile Char.isDigit
  let rest := input.dropWhile Char.isDigit
  let ended := match rest with
    | [] => true
    | c :: _ => inText "/\\?#" c
  let n := digits.foldl (fun n c => n * 10 + (c.toNat - 48)) 0
  if !ended || 65535 < n then none
  else if digits.isEmpty || usualPortNumber? scheme == some n then some (none, rest)
  else some (some n, rest)

def Host.isEmpty : Host → Bool
  | .name text => text.isEmpty
  | _ => false

def readAuthority (scheme : String) (kind : SchemeKind) (input : List Char) :
    Option (Authority × List Char) := do
  let (userinfo, afterUser) := match splitUserinfo kind input with
    | none => ([], input)
    | some (userinfo, rest) => (userinfo, rest)
  let (username, password) := readUserinfo userinfo
  let (hostText, rest) := splitHost kind false afterUser
  if kind.isSpecial && hostText.isEmpty then none
  let host ← if kind.isSpecial then Host.domain? hostText else Host.opaque? hostText
  let (portNumber, rest) ← match rest with
    | ':' :: rest => if host.isEmpty then none else readPortNumber scheme rest
    | rest => some (none, rest)
  let credentials := !username.isEmpty || !password.isEmpty
  if host.isEmpty && (credentials || afterUser.length ≠ input.length) then none
  some (⟨username, password, host, portNumber⟩, rest)

def readPathStart (kind : SchemeKind) (input : List Char) : List Char × Bool × List Char :=
  match kind, input with
  | .other, [] => ([], false, [])
  | .other, c :: rest =>
    if c == '?' || c == '#' then ([], false, c :: rest)
    else if c == '/' then readPath kind [] (c :: rest)
    else readPath kind ['/'] (c :: rest)
  | kind, c :: rest =>
    if kind.isSlash c then readPath kind ['/'] rest else readPath kind ['/'] (c :: rest)
  | kind, [] => readPath kind ['/'] []

def readTail (kind : SchemeKind) (input : List Char) : Option String × Option String :=
  let escapes := if kind.isSpecial then specialQueryEscapes else queryEscapes
  match input with
  | '?' :: rest =>
    let query := rest.takeWhile (· != '#')
    let fragment := match rest.dropWhile (· != '#') with
      | '#' :: f => some (String.ofList (encode fragmentEscapes f))
      | _ => none
    (some (String.ofList (encode escapes query)), fragment)
  | '#' :: f => (none, some (String.ofList (encode fragmentEscapes f)))
  | _ => (none, none)

def assemble (scheme : String) (kind : SchemeKind) (authority : Option Authority)
    (path rest : List Char) : Url :=
  let (query, fragment) := readTail kind rest
  ⟨scheme, authority, String.ofList path, query, fragment⟩

def noHost : Authority := ⟨"", "", .name "", none⟩

def readFileHost (input : List Char) : Option (Option Host × List Char) :=
  let text := input.takeWhile fun c => !inText "/\\?#" c
  let rest := input.dropWhile fun c => !inText "/\\?#" c
  if isDrive text then some (none, input)
  else if text.isEmpty then some (none, rest)
  else do
    let host ← Host.domain? text
    if host = .name "localhost" then some (none, rest) else some (some host, rest)

def readFile (input : List Char) : Option Url :=
  let isSlash := SchemeKind.file.isSlash
  match input with
  | a :: b :: rest =>
    if isSlash a && isSlash b then do
      let (host, rest) ← readFileHost rest
      match host with
      | none =>
        let (path, _, rest) := readPath .file ['/'] rest
        some (assemble "file" .file (some noHost) path rest)
      | some host =>
        let (path, drive, rest) := readPathStart .file rest
        let authority := if drive then noHost else { noHost with host := host }
        some (assemble "file" .file (some authority) path rest)
    else some (single (a :: b :: rest))
  | input => some (single input)
where
  single (input : List Char) : Url :=
    let start := match input with
      | c :: _ => if SchemeKind.file.isSlash c then [] else ['/']
      | [] => ['/']
    let (path, _, rest) := readPath .file start input
    assemble "file" .file (some noHost) path rest

def readPlain (scheme : String) (input : List Char) : Url :=
  match input with
  | '/' :: rest =>
    let (path, _, rest) := readPath .other ['/'] rest
    assemble scheme .other none path rest
  | input =>
    let ends (c : Char) : Bool := c == '?' || c == '#'
    let path := input.takeWhile fun c => !ends c
    assemble scheme .other none (encode isControl path) (input.dropWhile fun c => !ends c)

def readWithAuthority (scheme : String) (kind : SchemeKind) (input : List Char) : Option Url := do
  let (authority, rest) ← readAuthority scheme kind input
  let (path, _, rest) := readPathStart kind rest
  some (assemble scheme kind (some authority) path rest)

def parse? (text : String) : Option Url := do
  let (scheme, rest) ← readScheme (clean text.toList)
  match SchemeKind.ofScheme scheme with
  | .file => readFile rest
  | .special => readWithAuthority scheme .special (rest.dropWhile SchemeKind.special.isSlash)
  | .other =>
    match rest with
    | '/' :: '/' :: rest => readWithAuthority scheme .other rest
    | rest => some (readPlain scheme rest)

def filePath? (u : Url) : Option (List UInt8) :=
  match u.authority with
  | some a =>
    if a.host.isEmpty then
      let bytes := decode u.path.toList
      let drive := (bytes.reverse.take 2).map fun b => Char.ofNat b.toNat
      match drive with
      | [mark, letter] =>
        if bytes.length > 2 && letter.isAlpha && (mark == ':' || mark == '|') then
          some (bytes ++ [0x2F])
        else some bytes
      | _ => some bytes
    else none
  | none => none

end Url

end CatalogCrawl

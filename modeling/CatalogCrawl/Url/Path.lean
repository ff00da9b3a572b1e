import CatalogCrawl.Url.Percent

namespace CatalogCrawl.Url

inductive SchemeKind
  | file
  | special
  | other
  deriving DecidableEq, Repr

namespace SchemeKind

def ofScheme (scheme : String) : SchemeKind :=
  if scheme = "file" then file
  else if ["http", "https", "ws", "wss", "ftp"].contains scheme then special
  else other

def isSpecial : SchemeKind → Bool
  | other => false
  | _ => true

def isSlash (kind : SchemeKind) (c : Char) : Bool :=
  c == '/' || (kind.isSpecial && c == '\\')

end SchemeKind

def startsWithDrive : List Char → Bool
  | [letter, mark] => letter.isAlpha && (mark == ':' || mark == '|')
  | letter :: mark :: next :: _ =>
    letter.isAlpha && (mark == ':' || mark == '|') && inText "/\\?#" next
  | _ => false

def isDrive (segment : List Char) : Bool :=
  segment.length == 2 && startsWithDrive segment

def isNormalDrive (segment : List Char) : Bool :=
  isDrive segment && segment.getLast? == some ':'

def lowerAscii (text : List Char) : List Char :=
  text.map Char.toLower

def isDoubleDot (segment : List Char) : Bool :=
  ["..", "%2e%2e", "%2e.", ".%2e"].any fun s => lowerAscii segment == s.toList

def isSingleDot (segment : List Char) : Bool :=
  [".", "%2e"].any fun s => lowerAscii segment == s.toList

def splitLastSlash (text : List Char) : Option (List Char × List Char) :=
  let reversed := text.reverse
  let after := reversed.takeWhile (· != '/')
  match reversed.dropWhile (· != '/') with
  | [] => none
  | before => some (before.reverse, after.reverse)

def endsWithSlash (text : List Char) : Bool :=
  text.getLast? == some '/'

def mayDropSlash (path : List Char) : Bool :=
  match splitLastSlash path.dropLast with
  | none => false
  | some (before, _) => !startsWithDrive (path.drop before.length)

def dropSegment (kind : SchemeKind) (path : List Char) : List Char :=
  match splitLastSlash path with
  | none => path
  | some (before, segment) =>
    if kind == .file && isNormalDrive segment then path else before

def stepUp (kind : SchemeKind) (path : List Char) (slash : Bool) : List Char :=
  let path := if endsWithSlash path && mayDropSlash path then path.dropLast else path
  let path := if path.isEmpty then path else dropSegment kind path
  if slash && !endsWithSlash path then path ++ ['/'] else path

def readSegment (kind : SchemeKind) (path segment : List Char) :
    List Char → List Char × List Char × Bool × List Char
  | [] => (path, segment, false, [])
  | c :: rest =>
    if kind.isSlash c then (path, segment, true, rest)
    else if c == '?' || c == '#' then (path, segment, false, c :: rest)
    else if kind == .file && isNormalDrive ((path ++ segment).drop 1) then
      readSegment kind (path ++ segment.take 1)
        (segment.drop 1 ++ '/' :: encodeChar pathEscapes c) rest
    else readSegment kind path (segment ++ encodeChar pathEscapes c) rest

def readSegments (kind : SchemeKind) : Nat → Bool → List Char → List Char →
    List Char × Bool × List Char
  | 0, drive, path, input => (path, drive, input)
  | fuel + 1, drive, path, input =>
    let (path, segment, slash, rest) := readSegment kind path [] input
    let tail := if slash then ['/'] else []
    let (path, drive) :=
      if isDoubleDot segment then (stepUp kind path slash, drive)
      else if isSingleDot segment then
        (if endsWithSlash path then path else path ++ ['/'], drive)
      else if kind == .file && path.length == 1 && isDrive segment then
        (path ++ segment.take 1 ++ ':' :: tail, true)
      else (path ++ segment ++ tail, drive)
    if slash then readSegments kind fuel drive path rest else (path, drive, rest)

def finishPath (kind : SchemeKind) (path : List Char) : List Char :=
  match kind with
  | .file => '/' :: path.dropWhile (· == '/')
  | _ => path

def readPath (kind : SchemeKind) (path input : List Char) : List Char × Bool × List Char :=
  let (path, drive, rest) := readSegments kind (input.length + 1) false path input
  (finishPath kind path, drive, rest)

end CatalogCrawl.Url

namespace CatalogCrawl

inductive FileFault
  | notFound | alreadyThere | notFolder | isFolder | nameTooLong | notText
  deriving DecidableEq, Repr

def FileFault.text : FileFault → String
  | notFound => "No such file or directory (os error 2)"
  | alreadyThere => "File exists (os error 17)"
  | notFolder => "Not a directory (os error 20)"
  | isFolder => "Is a directory (os error 21)"
  | nameTooLong => "File name too long (os error 36)"
  | notText => "stream did not contain valid UTF-8"

inductive FileNode
  | folder
  | file (content : List UInt8)
  deriving DecidableEq, Repr

abbrev Location := List String

structure Files where
  base : Location
  nodes : List (Location × FileNode)
  deriving DecidableEq, Repr

namespace Files

def empty (base : Location) : Files := ⟨base, []⟩

def node? (f : Files) (loc : Location) : Option FileNode :=
  if loc.isEmpty then some .folder
  else (f.nodes.find? fun (l, _) => l == loc).map Prod.snd

def put (f : Files) (loc : Location) (n : FileNode) : Files :=
  { f with nodes := (loc, n) :: f.nodes.filter fun (l, _) => l != loc }

def maxNameBytes : Nat := 255

def follow (f : Files) (loc : Location) : List String → Except FileFault Location
  | [] => .ok loc
  | name :: rest =>
    match f.node? loc with
    | none => .error .notFound
    | some (.file _) => .error .notFolder
    | some .folder =>
      if name = "" || name = "." then f.follow loc rest
      else if name = ".." then f.follow loc.dropLast rest
      else if maxNameBytes < name.utf8ByteSize then .error .nameTooLong
      else f.follow (loc ++ [name]) rest

def locate (f : Files) (path : String) : Except FileFault Location :=
  if path.isEmpty || path.toList.any (·.toNat = 0) then .error .notFound
  else
    let names := path.splitOn "/"
    if path.startsWith "/" then f.follow [] names else f.follow f.base names

def readNode (f : Files) (path : String) : Except FileFault FileNode := do
  match f.node? (← f.locate path) with
  | some n => .ok n
  | none => .error .notFound

def read (f : Files) (path : String) : Except FileFault (List UInt8) := do
  match ← f.readNode path with
  | .file content => .ok content
  | .folder => .error .isFolder

def readAt (f : Files) (path : List UInt8) : Except FileFault (List UInt8) :=
  match String.fromUTF8? ⟨path.toArray⟩ with
  | some path => f.read path
  | none => .error .notFound

def readText (f : Files) (path : String) : Except FileFault String := do
  match String.fromUTF8? ⟨(← f.read path).toArray⟩ with
  | some text => .ok text
  | none => .error .notText

def contains (f : Files) (path : String) : Bool :=
  match f.readNode path with
  | .ok _ => true
  | .error _ => false

def isFolder (f : Files) (path : String) : Bool :=
  match f.readNode path with
  | .ok .folder => true
  | _ => false

def write (f : Files) (path : String) (content : List UInt8) : Except FileFault Files := do
  match path.toList.reverse.dropWhile (· == '/') with
  | [] => .error (if path.isEmpty then .notFound else .isFolder)
  | reversed =>
    let loc ← f.locate (String.ofList reversed.reverse)
    match f.node? loc with
    | some .folder => .error .isFolder
    | some (.file _) => if path.endsWith "/" then .error .isFolder else .ok (f.put loc (.file content))
    | none =>
      if path.endsWith "/" then .error .isFolder
      else if f.node? loc.dropLast = some .folder then .ok (f.put loc (.file content))
      else .error .notFound

def makeFolder (f : Files) (path : String) : Except FileFault Files := do
  let loc ← f.locate path
  match f.node? loc with
  | some _ => .error .alreadyThere
  | none =>
    if f.node? loc.dropLast = some .folder then .ok (f.put loc .folder) else .error .notFound

def ensureFolder (f : Files) (path : String) : Except FileFault Files :=
  match f.makeFolder path with
  | .ok f => .ok f
  | .error fault => if f.isFolder path then .ok f else .error fault

section Parents

def trimTail : List Char → List Char
  | '/' :: c :: rest => trimTail (c :: rest)
  | '.' :: '/' :: rest => trimTail ('/' :: rest)
  | path => path
termination_by path => path.length

def parent? (path : String) : Option String :=
  match trimTail path.toList.reverse with
  | [] | ['/'] => none
  | reversed => some (String.ofList (trimTail (reversed.dropWhile (· != '/'))).reverse)

end Parents

def makeFoldersWithin (f : Files) : Nat → String → Except FileFault Files
  | 0, _ => .error .notFound
  | fuel + 1, path =>
    if path.isEmpty then .ok f
    else match f.makeFolder path, parent? path with
      | .error .notFound, some parent => do
        (← f.makeFoldersWithin fuel parent).ensureFolder path
      | _, _ => f.ensureFolder path

def makeFolders (f : Files) (path : String) : Except FileFault Files :=
  f.makeFoldersWithin (path.length + 2) path

def place (f : Files) (path : String) (content : List UInt8) : Files :=
  let made := match parent? path with
    | none => f
    | some parent =>
      match f.makeFolders parent with
      | .ok f => f
      | .error _ => f
  match made.write path content with
  | .ok f => f
  | .error _ => made

def placeText (f : Files) (path text : String) : Files := f.place path text.toUTF8.toList

end Files

end CatalogCrawl

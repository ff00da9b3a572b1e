import CatalogCrawl.CommandLine.Program

namespace CatalogCrawl.CommandLine

def readNode (files : Files) (path : String) : IO Files := do
  try
    let content ← IO.FS.readBinFile path
    return files.place path content.toList
  catch fault =>
    match fault with
    | .noFileOrDirectory _ _ _ => return files
    | _ => return (files.makeFolders path).toOption.getD files

def readNodes (base : String) (paths : List String) : IO Files := do
  let empty := Files.empty ((base.splitOn "/").filter (· != ""))
  paths.foldlM readNode ((empty.makeFolders base).toOption.getD empty)

def writeNodes (before after : Files) : IO Unit := do
  for (location, node) in after.nodes.reverse do
    if before.node? location != some node then
      let path := "/" ++ String.intercalate "/" location
      match node with
      | .folder => IO.FS.createDirAll path
      | .file content => IO.FS.writeBinFile path ⟨content.toArray⟩

def userFolder : IO (Option String) := do
  match ← IO.getEnv "XDG_CONFIG_HOME", ← IO.getEnv "HOME" with
  | some folder, home =>
    return if folder.startsWith "/" then some folder else home.map (· ++ "/.config")
  | none, home => return home.map (· ++ "/.config")

def askedPaths (i : Invocation) (user : Option String) : List String :=
  let path := match i.command with
    | .initConfig path _ => path
    | _ => none
  i.config.toList ++ path.toList ++ Config.localPath :: (Config.userPath? user).toList

def nodePaths (nodes : List Node) : List String :=
  nodes.filterMap fun node => node.url.filePath? >>= fun path => String.fromUTF8? ⟨path.toArray⟩

def keepUp (base : String) (paths : List String) (started : Nat) (limit : Option Nat) :
    Nat → World → IO World
  | 0, w => return w
  | fuel + 1, w => do
    let passed := ((← IO.monoMsNow) - started) * Span.nanosInMilli
    let time := match limit with
      | some limit => min limit passed
      | none => passed
    let w := { w with files := ← readNodes base paths }.runTo time
    if limit == some time then return w
    IO.sleep 10
    keepUp base paths started limit fuel w

def runLive (base : String) (c : Config) (seconds : Option Nat) (json : Bool) :
    IO (Except Halt (String × World)) := do
  let paths := nodePaths c.nodes
  match World.startSession (← readNodes base paths) c [.ofFiles] (← IO.monoNanosNow) with
  | .error halt => return .error halt
  | .ok w =>
    let limit := endOfSession seconds none
    let w ← if limit = some 0 then pure w
      else keepUp base paths (← IO.monoMsNow) limit World.turnLimit w
    return conclude c json w

def finish (e : Ending) : IO UInt32 := do
  IO.print e.output
  IO.eprint e.errors
  return e.exitCode.toUInt32

end CatalogCrawl.CommandLine

open CatalogCrawl CommandLine in
def main (args : List String) : IO UInt32 := do
  let base := (← IO.currentDir).toString
  let user ← userFolder
  match parse args with
  | .error _ => finish (execute ⟨.empty [], user⟩ args none)
  | .ok i =>
    let files ← readNodes base (askedPaths i user)
    let place : Place := ⟨files, user⟩
    match i.command, load place i with
    | .run seconds json, .ok c =>
      match ← runLive base c seconds json with
      | .ok (text, _) => finish ⟨0, text, "", files⟩
      | .error halt => finish (Halt.ending files .crawling halt)
    | _, _ =>
      let e := execute place args none
      writeNodes files e.files
      finish e

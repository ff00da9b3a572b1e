import CatalogCrawl.CommandLine.Arguments
import CatalogCrawl.Config.Load
import CatalogCrawl.World.Session

namespace CatalogCrawl.CommandLine

def name : String := "catalog-crawler"

def version : String := "0.1.0"

def versionText : String := name ++ " " ++ version ++ "\n"

def usageText : String :=
  "Usage: " ++ name ++ " [OPTIONS] <COMMAND>\n\nCommands:\n" ++
  "  run [--run-for-secs <SECS>] [--json]\n" ++
  "  config show\n" ++
  "  config init [--path <PATH>] [--force]\n\nOptions:\n" ++
  "  -v, --verbose\n      --very-verbose\n  -q, --quiet\n      --config <PATH>\n" ++
  "  -h, --help\n  -V, --version\n"

structure Place where
  files : Files
  userFolder : Option String

def load (place : Place) (i : Invocation) : Except ConfigFault Config :=
  Config.load place.files place.userFolder i.config

section Summary

def summaryText (s : SessionSummary) : String :=
  "\nCrawl session finished in " ++ Number.onePlace s.duration.inSecs ++ "s\n" ++
  "  Cycles:             " ++ toString s.crawl.cycles ++ "\n" ++
  "  Adapter calls:      " ++ toString s.crawl.dispatched ++ "\n" ++
  "  Responses delivered: " ++ toString s.crawl.delivered ++ "\n" ++
  "  Adapter failures:   " ++ toString s.crawl.adapterFailures ++ "\n" ++
  "  Undelivered:        " ++ toString s.crawl.undelivered ++ "\n" ++
  "  Requeued:           " ++ toString s.crawl.requeued ++ "\n" ++
  "  Dropped:            " ++ toString s.crawl.dropped ++ "\n" ++
  "  Offers saved:       " ++ toString s.loader.offers ++ "\n" ++
  "  Offers cached:      " ++ toString s.cachedOffers ++ "\n" ++
  "  Queue:              " ++ toString s.queue.refills ++ " refills, " ++
    toString s.queue.taken ++ " taken, " ++ Number.onePlace s.queue.rejectionRate ++
    "% rejected\n"

def summaryJson (s : SessionSummary) : String := s.toJson.pretty 0 ++ "\n"

def abortedMessage : String := "Some crawlers had to be aborted during shutdown"

def endOfSession (seconds interruptedAt : Option Nat) : Option Nat :=
  match seconds.map (· * Span.nanosInSec), interruptedAt with
  | some a, some b => some (min a b)
  | some a, none => some a
  | none, b => b

def conclude (c : Config) (json : Bool) (w : World) : Except Halt (String × World) := do
  let (summary, w) ← (w.endSession c.partition.shutdownTimeout).mapError .crashed
  let w := if summary.cleanShutdown then w else w.warn abortedMessage
  .ok (if json then summaryJson summary else summaryText summary, w)

def run (place : Place) (c : Config) (json : Bool) (time : Nat) : Except Halt (String × World) := do
  let w ← World.startSession place.files c [.ofFiles] 0
  conclude c json (if time = 0 then w else w.runTo time)

end Summary

section Settings

def showConfig (loaded : Except ConfigFault Config) : Except Fault String :=
  (loaded >>= Config.toToml).mapError .config

def existsMessage (path : String) : String :=
  "Configuration file " ++ path ++ " already exists (use --force to overwrite)"

def createdText (path : String) : String :=
  "📁 Created default configuration file:\n   " ++ path ++
    "\n   Add [[nodes]] entries to start crawling.\n"

def initConfig (place : Place) (path : Option String) (force : Bool) :
    Except Fault (String × Files) := do
  let path ← match path <|> Config.userPath? place.userFolder with
    | some path => .ok path
    | none => .error (.config .noUserFolder)
  if place.files.contains path && !force then .error (.general (existsMessage path))
  else
    let files ← (Config.writeStandard place.files path).mapError Fault.config
    .ok (createdText path, files)

end Settings

inductive Phase
  | loading | crawling | configuring
  deriving DecidableEq, Repr

def Phase.context : Phase → String
  | loading => "Failed to load configuration"
  | crawling => "Crawl session failed"
  | configuring => "Configuration command failed"

def carryOut (place : Place) (i : Invocation) (interruptedAt : Option Nat) :
    Except (Phase × Halt) (String × Files) :=
  let loaded := load place i
  let failing {α : Type} (phase : Phase) (r : Except Fault α) : Except (Phase × Halt) α :=
    r.mapError fun fault => (phase, .refused fault)
  match i.command with
  | .run seconds json => do
    let c ← failing .loading (loaded.mapError Fault.config)
    let time := (endOfSession seconds interruptedAt).getD 0
    let (text, w) ← (run place c json time).mapError fun halt => (.crawling, halt)
    .ok (text, w.files)
  | .showConfig => do .ok (← failing .configuring (showConfig loaded), place.files)
  | .initConfig path force => failing .configuring (initConfig place path force)

def errorText (phase : Phase) (fault : Fault) : String :=
  "Error: " ++ phase.context ++ ": " ++ fault.message ++
    (match fault.cause? with
      | some cause => ": " ++ cause
      | none => "") ++ "\n"

structure Ending where
  exitCode : Nat
  output : String
  errors : String
  files : Files

def Halt.ending (files : Files) (phase : Phase) : Halt → Ending
  | .refused fault => ⟨1, "", errorText phase fault, files⟩
  | .crashed _ => ⟨101, "", "", files⟩

def ArgumentFault.ending (files : Files) : ArgumentFault → Ending
  | .displayVersion => ⟨0, versionText, "", files⟩
  | .displayHelp => ⟨0, usageText, "", files⟩
  | .displayHelpOnMissing => ⟨2, "", usageText, files⟩
  | fault => ⟨2, "", "error: " ++ fault.kind ++ "\n", files⟩

def execute (place : Place) (args : List String) (interruptedAt : Option Nat) : Ending :=
  match parse args with
  | .error fault => fault.ending place.files
  | .ok i =>
    match carryOut place i interruptedAt with
    | .ok (text, files) => ⟨0, text, "", files⟩
    | .error (phase, halt) => Halt.ending place.files phase halt

end CatalogCrawl.CommandLine

import CatalogCrawl.Number.Word

namespace CatalogCrawl.CommandLine

inductive ArgumentFault
  | unknownArgument
  | invalidValue
  | valueValidation
  | tooManyValues
  | argumentConflict
  | invalidSubcommand
  | missingSubcommand
  | displayHelp
  | displayHelpOnMissing
  | displayVersion
  deriving DecidableEq, Repr

def ArgumentFault.kind : ArgumentFault → String
  | unknownArgument => "UnknownArgument"
  | invalidValue => "InvalidValue"
  | valueValidation => "ValueValidation"
  | tooManyValues => "TooManyValues"
  | argumentConflict => "ArgumentConflict"
  | invalidSubcommand => "InvalidSubcommand"
  | missingSubcommand => "MissingSubcommand"
  | displayHelp => "DisplayHelp"
  | displayHelpOnMissing => "DisplayHelpOnMissingArgumentOrSubcommand"
  | displayVersion => "DisplayVersion"

inductive Command
  | run (seconds : Option Nat) (json : Bool)
  | showConfig
  | initConfig (path : Option String) (force : Bool)
  deriving DecidableEq, Repr

structure Invocation where
  verbose : Bool
  veryVerbose : Bool
  quiet : Bool
  config : Option String
  command : Command
  deriving DecidableEq, Repr

inductive LogLevel
  | error | info | debug
  deriving DecidableEq, Repr

def LogLevel.name : LogLevel → String
  | error => "ERROR"
  | info => "INFO"
  | debug => "DEBUG"

def Invocation.logLevel? (i : Invocation) : Option LogLevel :=
  if i.quiet then some .error
  else if i.veryVerbose then some .debug
  else if i.verbose then some .info
  else none

inductive Level
  | root | run | config | showConfig | initConfig
  deriving DecidableEq, Repr

inductive Flag
  | verbose | veryVerbose | quiet | help | version | json | force
  deriving DecidableEq, Repr

inductive Setting
  | config | seconds | path
  deriving DecidableEq, Repr

namespace Level

def longFlag? (level : Level) (name : String) : Option Flag :=
  match level, name with
  | _, "verbose" => some .verbose
  | _, "very-verbose" => some .veryVerbose
  | _, "quiet" => some .quiet
  | _, "help" => some .help
  | .root, "version" => some .version
  | .run, "json" => some .json
  | .initConfig, "force" => some .force
  | _, _ => none

def shortFlag? (level : Level) (c : Char) : Option Flag :=
  match level, c with
  | _, 'v' => some .verbose
  | _, 'q' => some .quiet
  | _, 'h' => some .help
  | .root, 'V' => some .version
  | .initConfig, 'f' => some .force
  | _, _ => none

def setting? (level : Level) (name : String) : Option Setting :=
  match level, name with
  | _, "config" => some .config
  | .run, "run-for-secs" => some .seconds
  | .initConfig, "path" => some .path
  | _, _ => none

def subcommand? (level : Level) (name : String) : Option Level :=
  match level, name with
  | .root, "run" => some .run
  | .root, "config" => some .config
  | .config, "show" => some .showConfig
  | .config, "init" => some .initConfig
  | _, _ => none

def hasSubcommands : Level → Bool
  | .root | .config => true
  | _ => false

end Level

structure Draft where
  flags : List Flag
  config : Option String
  seconds : Option Nat
  path : Option String
  pending : Option (Setting × Option String)
  deriving DecidableEq, Repr

namespace Draft

def empty : Draft := ⟨[], none, none, none, none⟩

def readSeconds? (text : String) : Option Nat :=
  let digits := match text.toList with
    | '+' :: rest => rest
    | chars => chars
  if digits.isEmpty || !digits.all Char.isDigit then none
  else
    let n := digits.foldl (fun n c => n * 10 + (c.toNat - 48)) 0
    if n < Number.word64 then some n else none

def has (d : Draft) : Setting → Bool
  | .config => d.config.isSome
  | .seconds => d.seconds.isSome
  | .path => d.path.isSome

def assign (d : Draft) (s : Setting) (value : String) : Except ArgumentFault Draft :=
  if d.has s then .error .argumentConflict
  else match s with
    | .seconds =>
      match readSeconds? value with
      | some n => .ok { d with seconds := some n }
      | none => .error .valueValidation
    | .config => if value.isEmpty then .error .invalidValue else .ok { d with config := some value }
    | .path => if value.isEmpty then .error .invalidValue else .ok { d with path := some value }

def settle (d : Draft) : Except ArgumentFault Draft :=
  match d.pending with
  | none => .ok d
  | some (_, none) => .error .invalidValue
  | some (s, some value) => { d with pending := none }.assign s value

def isAwaiting (d : Draft) : Bool :=
  match d.pending with
  | some (_, none) => true
  | _ => false

def raise (d : Draft) (f : Flag) : Except ArgumentFault Draft := do
  let d ← d.settle
  match f with
  | .help => .error .displayHelp
  | .version => .error .displayVersion
  | f => if d.flags.contains f then .error .argumentConflict else .ok { d with flags := f :: d.flags }

def raiseAll (level : Level) (d : Draft) : List Char → Except ArgumentFault Draft
  | [] => .ok d
  | c :: rest =>
    match level.shortFlag? c with
    | none => .error .unknownArgument
    | some f => do raiseAll level (← d.raise f) rest

def takeLong (level : Level) (d : Draft) (text : List Char) : Except ArgumentFault Draft :=
  let name := String.ofList (text.takeWhile (· != '='))
  let value := match text.dropWhile (· != '=') with
    | '=' :: rest => some (String.ofList rest)
    | _ => none
  match level.setting? name with
  | some s => do
    let d ← d.settle
    match value with
    | some v => d.assign s v
    | none => .ok { d with pending := some (s, none) }
  | none =>
    match level.longFlag? name with
    | none => .error .unknownArgument
    | some f => if value.isSome then .error .tooManyValues else d.raise f

def takeValue (d : Draft) (value : String) : Draft :=
  { d with pending := d.pending.map fun (s, _) => (s, some value) }

def isBlank (d : Draft) : Bool :=
  d.flags.isEmpty && d.config.isNone && d.seconds.isNone && d.path.isNone

def command (level : Level) (d : Draft) : Except ArgumentFault Command :=
  match level with
  | .run => .ok (.run d.seconds (d.flags.contains .json))
  | .showConfig => .ok .showConfig
  | .initConfig => .ok (.initConfig d.path (d.flags.contains .force))
  | .root | .config =>
    if d.isBlank then .error .displayHelpOnMissing else .error .missingSubcommand

def wrap (d : Draft) (i : Invocation) : Invocation :=
  { i with
    verbose := i.verbose || d.flags.contains .verbose
    veryVerbose := i.veryVerbose || d.flags.contains .veryVerbose
    quiet := i.quiet || d.flags.contains .quiet
    config := i.config <|> d.config }

end Draft

def help (level : Level) : List String → ArgumentFault
  | [] => .displayHelp
  | name :: rest =>
    match level.subcommand? name with
    | some inner => help inner rest
    | none =>
      if level.hasSubcommands && name = "help" && rest.isEmpty then .displayHelp
      else .invalidSubcommand

def stray (level : Level) (escaped : Bool) (arg : String) : ArgumentFault :=
  let isCommand := (level.subcommand? arg).isSome || (level.hasSubcommands && arg = "help")
  if escaped && isCommand then .unknownArgument
  else if level.hasSubcommands then .invalidSubcommand
  else .unknownArgument

def read (level : Level) (d : Draft) : List String → Except ArgumentFault Invocation
  | [] => do
    let d ← d.settle
    .ok (d.wrap ⟨false, false, false, none, ← d.command level⟩)
  | arg :: rest =>
    match if d.isAwaiting then none else level.subcommand? arg with
    | some inner => do
      let i ← read inner .empty rest
      .ok ((← d.settle).wrap i)
    | none =>
      if !d.isAwaiting && level.hasSubcommands && arg = "help" then .error (help level rest)
      else match arg.toList with
        | ['-', '-'] =>
          match rest with
          | [] => do
            let d ← d.settle
            .ok (d.wrap ⟨false, false, false, none, ← d.command level⟩)
          | arg :: _ => .error (stray level true arg)
        | '-' :: '-' :: text => do read level (← d.takeLong level text) rest
        | '-' :: c :: text => do read level (← d.raiseAll level (c :: text)) rest
        | _ =>
          if d.isAwaiting then read level (d.takeValue arg) rest
          else .error (stray level false arg)

def parse (args : List String) : Except ArgumentFault Invocation := read .root .empty args

end CatalogCrawl.CommandLine

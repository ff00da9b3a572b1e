import CatalogCrawl.Text.Quoted

namespace CatalogCrawl

inductive AdapterFault
  | requestFailed (url reason : String)
  | timeout (url : String) (millis : Nat)
  | unsupportedUrl (url : String)
  | io (detail : String)
  | decode
  deriving DecidableEq, Repr

inductive CacheFault
  | unsupportedOperator (operator : String)
  | invalidCriterion (criterion reason : String)
  deriving DecidableEq, Repr

inductive QueryFault
  | adapterFailed (adapter reason : String)
  | cache (fault : CacheFault)
  deriving DecidableEq, Repr

inductive CrawlFault
  | invalidPlan (reason : String)
  | invalidState (operation state : String)
  | shutdownTimeout (remaining millis : Nat)
  | missingComponent (component : String)
  deriving DecidableEq, Repr

inductive ConfigFault
  | notFound (path : String)
  | invalidFormat
  | notSerializable
  | io (path detail : String)
  | noUserFolder
  | invalid (problems : List String)
  deriving DecidableEq, Repr

inductive Crash
  | capacity
  | period
  | instant
  deriving DecidableEq, Repr

inductive Fault
  | adapter (fault : AdapterFault)
  | cache (fault : CacheFault)
  | query (fault : QueryFault)
  | crawl (fault : CrawlFault)
  | config (fault : ConfigFault)
  | io (detail : String)
  | general (message : String)
  deriving DecidableEq, Repr

inductive Halt
  | refused (fault : Fault)
  | crashed (crash : Crash)
  deriving DecidableEq, Repr

def AdapterFault.message : AdapterFault → String
  | .requestFailed url reason => "Catalog request to " ++ url ++ " failed: " ++ reason
  | .timeout url millis => "Catalog request to " ++ url ++ " timed out after " ++ toString millis ++ " ms"
  | .unsupportedUrl url => "Unsupported catalog URL: " ++ url
  | .io _ => "Catalog I/O error"
  | .decode => "Catalog payload could not be decoded"

def CacheFault.message : CacheFault → String
  | .unsupportedOperator operator => "Unsupported criterion operator: " ++ operator
  | .invalidCriterion criterion reason => "Invalid criterion " ++ criterion ++ ": " ++ reason

def QueryFault.message : QueryFault → String
  | .adapterFailed adapter reason => "Query adapter " ++ adapter ++ " failed: " ++ reason
  | .cache fault => fault.message

def CrawlFault.message : CrawlFault → String
  | .invalidPlan reason => "Invalid execution plan: " ++ reason
  | .invalidState operation state => "Cannot " ++ operation ++ " crawler pool in state " ++ state
  | .shutdownTimeout remaining millis =>
    toString remaining ++ " crawler(s) still running after " ++ toString millis ++
      " ms shutdown timeout"
  | .missingComponent component => "Crawler is missing required component: " ++ component

def ConfigFault.message : ConfigFault → String
  | .notFound path => "Configuration file not found: " ++ path
  | .invalidFormat => "Invalid configuration format"
  | .notSerializable => "Configuration could not be serialized"
  | .io path _ => "Configuration file I/O error: " ++ path
  | .noUserFolder => "Could not determine user config directory"
  | .invalid problems => "Configuration validation failed: " ++ Text.quoteList problems

namespace Fault

def message : Fault → String
  | adapter fault => fault.message
  | cache fault => fault.message
  | query fault => fault.message
  | crawl fault => fault.message
  | config fault => fault.message
  | io detail => detail
  | general message => "Application error: " ++ message

def category : Fault → String
  | adapter _ => "adapter"
  | cache _ => "cache"
  | query _ => "query"
  | crawl _ => "partition"
  | config _ => "config"
  | io _ => "io"
  | general _ => "generic"

def kind : Fault → String
  | adapter (.requestFailed _ _) => "RequestFailed"
  | adapter (.timeout _ _) => "Timeout"
  | adapter (.unsupportedUrl _) => "UnsupportedUrl"
  | adapter (.io _) | config (.io _ _) | io _ => "Io"
  | adapter .decode => "Decode"
  | cache (.unsupportedOperator _) | query (.cache (.unsupportedOperator _)) =>
    "UnsupportedOperator"
  | cache (.invalidCriterion _ _) | query (.cache (.invalidCriterion _ _)) => "InvalidCriterion"
  | query (.adapterFailed _ _) => "AdapterFailed"
  | crawl (.invalidPlan _) => "InvalidPlan"
  | crawl (.invalidState _ _) => "InvalidState"
  | crawl (.shutdownTimeout _ _) => "ShutdownTimeout"
  | crawl (.missingComponent _) => "MissingComponent"
  | config (.notFound _) => "NotFound"
  | config .invalidFormat => "InvalidFormat"
  | config .notSerializable => "Serialize"
  | config .noUserFolder => "NoConfigDir"
  | config (.invalid _) => "ValidationFailed"
  | general _ => "Generic"

def problems? : Fault → Option (List String)
  | config (.invalid problems) => some problems
  | _ => none

def recoverable : Fault → Bool
  | adapter (.requestFailed _ _) | adapter (.timeout _ _) | adapter (.io _) => true
  | crawl (.shutdownTimeout _ _) => true
  | _ => false

def cause? : Fault → Option String
  | adapter (.io detail) => some detail
  | config (.io _ detail) => some detail
  | _ => none

end Fault

end CatalogCrawl

import CatalogCrawl.Crawl.Monitor
import CatalogCrawl.Crawl.Stats

namespace CatalogCrawl

def Severity.name : Severity → String
  | debug => "debug"
  | info => "info"
  | severe => "severe"

def NoticeLevel.name : NoticeLevel → String
  | debug => "DEBUG"
  | info => "INFO"
  | warn => "WARN"
  | error => "ERROR"

def causeJson (cause : Option String) : Json := (cause.map .str).getD .null

def Entry.toJson (e : Entry) : Json :=
  .obj [("cause", causeJson e.cause), ("message", .str e.message), ("severity", .str e.severity.name)]

def Notice.toJson (n : Notice) : Json :=
  .obj [("cause", causeJson n.cause), ("level", .str n.level.name), ("message", .str n.message)]

def Outcome.toJson : Outcome → Json
  | requeued => .obj [("kind", .str "requeued")]
  | requeueRejected => .obj [("kind", .str "requeue_rejected")]
  | stopped => .obj [("kind", .str "stopped")]
  | dropped attempts => .obj [("attempts", .int attempts), ("kind", .str "dropped")]
  | dispatched adapters => .obj [("adapters", .int adapters), ("kind", .str "dispatched")]

end CatalogCrawl

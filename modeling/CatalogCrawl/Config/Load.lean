import CatalogCrawl.Config.Check
import CatalogCrawl.Config.Wire
import CatalogCrawl.Files

namespace CatalogCrawl.Config

def localPath : String := "federated-catalog.toml"

def userPath? (userFolder : Option String) : Option String :=
  userFolder.map (· ++ "/federated-catalog/config.toml")

def liftFault {α : Type} (path : String) (r : Except FileFault α) : Except ConfigFault α :=
  r.mapError fun fault => .io path fault.text

def choosePath (files : Files) (userFolder asked : Option String) :
    Except ConfigFault (Option String) :=
  match asked with
  | some path => if files.contains path then .ok (some path) else .error (.notFound path)
  | none => .ok ((localPath :: (userPath? userFolder).toList).find? files.contains)

def load (files : Files) (userFolder asked : Option String) : Except ConfigFault Config := do
  let c ← match ← choosePath files userFolder asked with
    | none => .ok standard
    | some path => ofToml (← liftFault path (files.readText path))
  c.validate
  .ok c

def writeStandard (files : Files) (path : String) : Except ConfigFault Files := do
  let files ← match Files.parent? path with
    | none | some "" => .ok files
    | some parent => liftFault parent (files.makeFolders parent)
  let text ← standard.toToml
  liftFault path (files.write path text.toUTF8.toList)

end CatalogCrawl.Config

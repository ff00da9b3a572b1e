import CatalogCrawl.Cache.Criterion
import CatalogCrawl.Cache.Query
import CatalogCrawl.Cache.Store
import CatalogCrawl.Catalog.Basic
import CatalogCrawl.Catalog.Wire
import CatalogCrawl.CommandLine.Arguments
import CatalogCrawl.CommandLine.Program
import CatalogCrawl.Config.Basic
import CatalogCrawl.Config.Check
import CatalogCrawl.Config.Load
import CatalogCrawl.Config.Wire
import CatalogCrawl.Crawl.Activity
import CatalogCrawl.Crawl.Adapter
import CatalogCrawl.Crawl.Backoff
import CatalogCrawl.Crawl.Builder
import CatalogCrawl.Crawl.Cycle
import CatalogCrawl.Crawl.Delivery
import CatalogCrawl.Crawl.Monitor
import CatalogCrawl.Crawl.Plan
import CatalogCrawl.Crawl.Stats
import CatalogCrawl.Crawl.Wire
import CatalogCrawl.Datum
import CatalogCrawl.Fault
import CatalogCrawl.Files
import CatalogCrawl.Json.Access
import CatalogCrawl.Json.Basic
import CatalogCrawl.Json.Printer
import CatalogCrawl.Json.Reader
import CatalogCrawl.Main
import CatalogCrawl.Number.Binary
import CatalogCrawl.Number.Layout
import CatalogCrawl.Number.Shortest
import CatalogCrawl.Number.Word
import CatalogCrawl.Queue.Bell
import CatalogCrawl.Queue.Turnstile
import CatalogCrawl.Queue.WorkQueue
import CatalogCrawl.Span.Basic
import CatalogCrawl.Span.Units
import CatalogCrawl.Text.Blank
import CatalogCrawl.Text.Invisible
import CatalogCrawl.Text.Quoted
import CatalogCrawl.Toml.Printer
import CatalogCrawl.Toml.Reader
import CatalogCrawl.Toml.Tree
import CatalogCrawl.Url.Basic
import CatalogCrawl.Url.Fold
import CatalogCrawl.Url.Host
import CatalogCrawl.Url.Path
import CatalogCrawl.Url.Percent
import CatalogCrawl.Url.Punycode
import CatalogCrawl.Work.Directory
import CatalogCrawl.Work.Item
import CatalogCrawl.World.Actions
import CatalogCrawl.World.Background
import CatalogCrawl.World.Basic
import CatalogCrawl.World.Crawling
import CatalogCrawl.World.Managing
import CatalogCrawl.World.Refilling
import CatalogCrawl.World.Run
import CatalogCrawl.World.Session
import CatalogCrawl.World.Step
import CatalogCrawl.World.Task
import CatalogCrawl.Proofs.Json.Fields
import CatalogCrawl.Proofs.Json.Variations
import CatalogCrawl.Proofs.Catalog.Records
import CatalogCrawl.Proofs.Text.Numerals
import CatalogCrawl.Proofs.Span.Units
import CatalogCrawl.Proofs.Cache.FanOut
import CatalogCrawl.Proofs.Cache.Expiry
import CatalogCrawl.Proofs.Cache.History
import CatalogCrawl.Proofs.Cache.Queries
import CatalogCrawl.Proofs.Crawl.Backoff
import CatalogCrawl.Proofs.Crawl.Building
import CatalogCrawl.Proofs.Crawl.Delivery
import CatalogCrawl.Proofs.Crawl.Growth
import CatalogCrawl.Proofs.Number.Rounding
import CatalogCrawl.Proofs.Number.Double
import CatalogCrawl.Proofs.Number.Nearest
import CatalogCrawl.Proofs.Number.Bits
import CatalogCrawl.Proofs.Number.Decimal
import CatalogCrawl.Proofs.Number.Shortest
import CatalogCrawl.Proofs.Toml.Strings
import CatalogCrawl.Proofs.Toml.Values
import CatalogCrawl.Proofs.Toml.Reals
import CatalogCrawl.Proofs.Toml.Documents
import CatalogCrawl.Proofs.Toml.Tables
import CatalogCrawl.Proofs.Config.Sections
import CatalogCrawl.Proofs.Config.RoundTrip
import CatalogCrawl.Proofs.Queue.Attempt
import CatalogCrawl.Proofs.Queue.Batches
import CatalogCrawl.Proofs.Queue.Ledger
import CatalogCrawl.Proofs.Queue.Tickets
import CatalogCrawl.Proofs.World.Accord
import CatalogCrawl.Proofs.World.Agreement
import CatalogCrawl.Proofs.World.Aside
import CatalogCrawl.Proofs.World.Background
import CatalogCrawl.Proofs.World.Books
import CatalogCrawl.Proofs.World.Conservation
import CatalogCrawl.Proofs.World.Crawling
import CatalogCrawl.Proofs.World.Draining
import CatalogCrawl.Proofs.World.Effects
import CatalogCrawl.Proofs.World.Ending
import CatalogCrawl.Proofs.World.Event
import CatalogCrawl.Proofs.World.Limits
import CatalogCrawl.Proofs.World.Loading
import CatalogCrawl.Proofs.World.Managing
import CatalogCrawl.Proofs.World.Moving
import CatalogCrawl.Proofs.World.Runs
import CatalogCrawl.Proofs.World.Sessions
import CatalogCrawl.Proofs.World.Settings
import CatalogCrawl.Proofs.World.Sound
import CatalogCrawl.Proofs.World.Turns
import CatalogCrawl.Proofs.World.Updates
import CatalogCrawl.Proofs.World.Waiting
import CatalogCrawl.Proofs.World.Cancelling
import CatalogCrawl.Proofs.World.Crew
import CatalogCrawl.Proofs.World.Succession
import CatalogCrawl.Proofs.World.Hands
import CatalogCrawl.Proofs.World.Laps
import CatalogCrawl.Proofs.World.Lineage
import CatalogCrawl.Proofs.World.Warnings
import CatalogCrawl.Proofs.World.Ticking
import CatalogCrawl.Proofs.World.Busy
import CatalogCrawl.Proofs.World.Guards
import CatalogCrawl.Proofs.World.Idling
import CatalogCrawl.Proofs.World.Bystanders
import CatalogCrawl.Proofs.World.Provenance
import CatalogCrawl.Proofs.World.Reports
import CatalogCrawl.Proofs.World.Deliveries
import CatalogCrawl.Proofs.World.Dispatching
import CatalogCrawl.Proofs.World.Outcomes

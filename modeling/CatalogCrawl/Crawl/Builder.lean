import CatalogCrawl.Config.Basic
import CatalogCrawl.Crawl.Adapter
import CatalogCrawl.Crawl.Stats

namespace CatalogCrawl

structure CrawlerBuilder where
  id : Option Nat
  config : Option CrawlerConfig
  queue : Option Nat
  results : Option Nat
  monitor : Option Nat
  stats : Option CrawlStats
  registry : Option Nat
  extra : List Adapter

structure BuiltCrawler where
  id : Nat
  config : CrawlerConfig
  queue : Nat
  results : Nat
  monitor : Option Nat
  stats : CrawlStats
  registry : Nat

namespace CrawlerBuilder

def empty : CrawlerBuilder := ⟨none, none, none, none, none, none, none, []⟩

def withId (b : CrawlerBuilder) (id : Nat) : CrawlerBuilder := { b with id := some id }

def withConfig (b : CrawlerBuilder) (c : CrawlerConfig) : CrawlerBuilder :=
  { b with config := some c }

def withQueue (b : CrawlerBuilder) (q : Nat) : CrawlerBuilder := { b with queue := some q }

def withResults (b : CrawlerBuilder) (r : Nat) : CrawlerBuilder := { b with results := some r }

def withMonitor (b : CrawlerBuilder) (m : Nat) : CrawlerBuilder := { b with monitor := some m }

def withStats (b : CrawlerBuilder) (s : CrawlStats) : CrawlerBuilder := { b with stats := some s }

def withRegistry (b : CrawlerBuilder) (r : Nat) : CrawlerBuilder := { b with registry := some r }

def withAdapter (b : CrawlerBuilder) (a : Adapter) : CrawlerBuilder :=
  { b with extra := b.extra ++ [a] }

def build (b : CrawlerBuilder) (registries : List Registry) :
    Except CrawlFault BuiltCrawler × List Registry :=
  match b.queue, b.results with
  | none, _ => (.error (.missingComponent "work item queue"), registries)
  | some _, none => (.error (.missingComponent "result queue"), registries)
  | some queue, some results =>
    let (position, registries) := match b.registry with
      | some position => (position, registries)
      | none => (registries.length, registries ++ [Registry.empty])
    (.ok {
        id := b.id.getD 0
        config := b.config.getD .standard
        queue := queue
        results := results
        monitor := b.monitor
        stats := b.stats.getD .zero
        registry := position },
      registries.modify position (·.extend b.extra))

end CrawlerBuilder

end CatalogCrawl

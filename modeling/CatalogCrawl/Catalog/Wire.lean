import CatalogCrawl.Catalog.Basic
import CatalogCrawl.Datum

namespace CatalogCrawl

def Url.ofDatum? (d : Datum) : Option Url := do
  Url.parse? (← d.string?)

def Url.toJson (u : Url) : Json := .str u.render

namespace Asset

def toJson (a : Asset) : Json :=
  .obj [("id", .str a.id), ("properties", .obj a.properties)]

def ofDatum? (rules : Datum.Rules) (d : Datum) : Option Asset := do
  let fields ← d.record? rules ["id", "properties"]
  some {
    id := ← fields.required "id" Datum.string?
    properties := ← fields.orElse "properties" [] Datum.free? }

instance : Written Asset := ⟨ofDatum?, toJson⟩

end Asset

namespace Offer

def toJson (o : Offer) : Json :=
  .obj [("id", .str o.id), ("asset", o.asset.toJson), ("policy", o.policy),
    ("provider", (o.provider.map Url.toJson).getD .null)]

def ofDatum? (rules : Datum.Rules) (d : Datum) : Option Offer := do
  let fields ← d.record? rules ["id", "asset", "policy", "provider"]
  some {
    id := ← fields.required "id" Datum.string?
    asset := ← fields.required "asset" (Asset.ofDatum? rules)
    policy := ← fields.orElse "policy" .null Datum.value?
    provider := ← fields.orElse "provider" none (Datum.nullable? Url.ofDatum?) }

instance : Written Offer := ⟨ofDatum?, toJson⟩

end Offer

namespace Catalog

def toJson (c : Catalog) : Json :=
  .obj [("id", .str c.id), ("contract_offers", .arr (c.offers.map Offer.toJson))]

def ofDatum? (rules : Datum.Rules) (d : Datum) : Option Catalog := do
  let fields ← d.record? rules ["id", "contract_offers"]
  some {
    id := ← fields.required "id" Datum.string?
    offers := ← fields.orElse "contract_offers" [] (Datum.each? (Offer.ofDatum? rules)) }

instance : Written Catalog := ⟨ofDatum?, toJson⟩

end Catalog

namespace Response

def toJson (r : Response) : Json :=
  .obj [("source", r.source.toJson), ("catalog", r.catalog.toJson)]

def ofDatum? (rules : Datum.Rules) (d : Datum) : Option Response := do
  let fields ← d.record? rules ["source", "catalog"]
  some {
    source := ← fields.required "source" Url.ofDatum?
    catalog := ← fields.required "catalog" (Catalog.ofDatum? rules) }

instance : Written Response := ⟨ofDatum?, toJson⟩

end Response

end CatalogCrawl

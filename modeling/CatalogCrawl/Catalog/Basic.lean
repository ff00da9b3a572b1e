import CatalogCrawl.Json.Basic
import CatalogCrawl.Url.Basic

namespace CatalogCrawl

structure Asset where
  id : String
  properties : List (String × Json)

namespace Asset

def named (id : String) : Asset := ⟨id, []⟩

def withProperty (a : Asset) (key : String) (value : Json) : Asset :=
  ⟨a.id, Json.setField key value a.properties⟩

end Asset

structure Offer where
  id : String
  asset : Asset
  policy : Json
  provider : Option Url

namespace Offer

def plain (id : String) (asset : Asset) : Offer := ⟨id, asset, .null, none⟩

def assetId (o : Offer) : String := o.asset.id

end Offer

structure Catalog where
  id : String
  offers : List Offer

structure Response where
  source : Url
  catalog : Catalog

end CatalogCrawl

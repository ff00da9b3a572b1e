import CatalogCrawl.Cache.Query
import CatalogCrawl.Proofs.Json.Variations
import CatalogCrawl.Work.Directory

namespace CatalogCrawl

open Datum Variation

variable {rules : Datum.Rules} {j : Json}

section Parts

def Url.ReadsBack (u : Url) : Prop := Url.parse? u.render = some u

instance (u : Url) : Decidable u.ReadsBack := inferInstanceAs (Decidable (_ = _))

theorem Url.ReadsBack.ofDatum? {u : Url} (h : u.ReadsBack) :
    ∀ y, same u.toJson y → Url.ofDatum? (ofJson y) = some u := by
  rintro y rfl
  rw [Url.toJson, ofJson, Url.ofDatum?, string?, Option.bind_eq_bind, Option.bind_some]
  exact h

theorem Url.ReadsBack.nullable? {u : Url} (h : u.ReadsBack) :
    Datum.nullable? Url.ofDatum? (ofJson u.toJson) = some (some u) := by
  have hread := h.ofDatum? u.toJson rfl
  rw [Url.toJson, ofJson] at hread ⊢
  rw [Datum.nullable?, hread, Option.map_some]
  nofun

theorem string?_of_same {s : String} : ∀ y, same (.str s) y → string? (ofJson y) = some s := by
  rintro y rfl
  rfl

theorem value?_of_varies {x : Json} (h : x.Normal) :
    ∀ y, shuffled x y → value? (ofJson y) = some x := fun _ hy => value?_of_shuffled h hy

theorem strings_refl (texts : List String) :
    items same (.arr (texts.map .str)) (.arr (texts.map .str)) := items_refl fun _ _ => same_refl _

theorem strings_of_varies {texts : List String} :
    ∀ y, items same (.arr (texts.map .str)) y → each? string? (ofJson y) = some texts :=
  fun _ hy => each?_of_varies (fun _ _ => string?_of_same) hy

end Parts

namespace Asset

def Sound (a : Asset) : Prop := (Json.obj a.properties).Normal

def variation : Variation :=
  .record [⟨"id", same, none⟩, ⟨"properties", shuffled, some (.obj [])⟩]

theorem variation_refl (a : Asset) : variation a.toJson a.toJson := by
  refine record_refl (by simp) ?_
  simp only [List.forall_mem_cons, List.not_mem_nil, IsEmpty.forall_iff, implies_true, and_true]
  simp [Json.field?]

theorem ofDatum?_of_varies {a : Asset} (h : a.Sound) (hj : variation a.toJson j) :
    ofDatum? rules (ofJson j) = some a := by
  obtain ⟨known, hknown, hfind⟩ := record?_of_varies hj rules
  simp only [List.forall_mem_cons] at hfind
  obtain ⟨hid, hproperties, -⟩ := hfind
  have hid : known.required "id" string? = some a.id := hid.required rfl rfl string?_of_same
  have hproperties : known.orElse "properties" [] free? = some a.properties := by
    refine hproperties.orElse rfl (fun hd => ?_) fun _ hy => free?_of_shuffled h hy
    cases a
    cases hd
    rfl
  simp only [List.map_cons, List.map_nil] at hknown
  simp [ofDatum?, hknown, hid, hproperties]

end Asset

namespace Offer

structure Sound (o : Offer) : Prop where
  asset : o.asset.Sound
  policy : o.policy.Normal
  provider : ∀ u ∈ o.provider, u.ReadsBack

def variation : Variation :=
  .record [⟨"id", same, none⟩, ⟨"asset", Asset.variation, none⟩, ⟨"policy", shuffled, some .null⟩,
    ⟨"provider", same, some .null⟩]

theorem variation_refl (o : Offer) : variation o.toJson o.toJson := by
  refine record_refl (by simp) ?_
  simp only [List.forall_mem_cons, List.not_mem_nil, IsEmpty.forall_iff, implies_true, and_true]
  simp [Json.field?, Asset.variation_refl]

theorem ofDatum?_of_varies {o : Offer} (h : o.Sound) (hj : variation o.toJson j) :
    ofDatum? rules (ofJson j) = some o := by
  obtain ⟨known, hknown, hfind⟩ := record?_of_varies hj rules
  simp only [List.forall_mem_cons] at hfind
  obtain ⟨hid, hasset, hpolicy, hprovider, -⟩ := hfind
  have hid : known.required "id" string? = some o.id := hid.required rfl rfl string?_of_same
  have hasset : known.required "asset" (Asset.ofDatum? rules) = some o.asset :=
    hasset.required rfl rfl fun _ hy => Asset.ofDatum?_of_varies h.asset hy
  have hpolicy : known.orElse "policy" .null value? = some o.policy :=
    hpolicy.orElse rfl Option.some.inj (value?_of_varies h.policy)
  have hprovider : known.orElse "provider" none (nullable? Url.ofDatum?) = some o.provider :=
    hprovider.nullable rfl fun u hu => (h.provider u hu).nullable?
  simp only [List.map_cons, List.map_nil] at hknown
  simp [ofDatum?, hknown, hid, hasset, hpolicy, hprovider]

end Offer

namespace Catalog

def Sound (c : Catalog) : Prop := ∀ o ∈ c.offers, o.Sound

def variation : Variation :=
  .record [⟨"id", same, none⟩, ⟨"contract_offers", items Offer.variation, some (.arr [])⟩]

theorem variation_refl (c : Catalog) : variation c.toJson c.toJson := by
  refine record_refl (by simp) ?_
  simp only [List.forall_mem_cons, List.not_mem_nil, IsEmpty.forall_iff, implies_true, and_true]
  simp [Json.field?, items_refl fun o _ => Offer.variation_refl o]

theorem ofDatum?_of_varies {c : Catalog} (h : c.Sound) (hj : variation c.toJson j) :
    ofDatum? rules (ofJson j) = some c := by
  obtain ⟨known, hknown, hfind⟩ := record?_of_varies hj rules
  simp only [List.forall_mem_cons] at hfind
  obtain ⟨hid, hoffers, -⟩ := hfind
  have hid : known.required "id" string? = some c.id := hid.required rfl rfl string?_of_same
  have hoffers : known.orElse "contract_offers" [] (each? (Offer.ofDatum? rules)) =
      some c.offers :=
    hoffers.each rfl fun o ho _ hy => Offer.ofDatum?_of_varies (h o ho) hy
  simp only [List.map_cons, List.map_nil] at hknown
  simp [ofDatum?, hknown, hid, hoffers]

end Catalog

namespace Response

structure Sound (r : Response) : Prop where
  source : r.source.ReadsBack
  catalog : r.catalog.Sound

def variation : Variation :=
  .record [⟨"source", same, none⟩, ⟨"catalog", Catalog.variation, none⟩]

theorem variation_refl (r : Response) : variation r.toJson r.toJson := by
  refine record_refl (by simp) ?_
  simp only [List.forall_mem_cons, List.not_mem_nil, IsEmpty.forall_iff, implies_true, and_true]
  simp [Json.field?, Catalog.variation_refl]

theorem ofDatum?_of_varies {r : Response} (h : r.Sound) (hj : variation r.toJson j) :
    ofDatum? rules (ofJson j) = some r := by
  obtain ⟨known, hknown, hfind⟩ := record?_of_varies hj rules
  simp only [List.forall_mem_cons] at hfind
  obtain ⟨hsource, hcatalog, -⟩ := hfind
  have hsource : known.required "source" Url.ofDatum? = some r.source :=
    hsource.required rfl rfl h.source.ofDatum?
  have hcatalog : known.required "catalog" (Catalog.ofDatum? rules) = some r.catalog :=
    hcatalog.required rfl rfl fun _ hy => Catalog.ofDatum?_of_varies h.catalog hy
  simp only [List.map_cons, List.map_nil] at hknown
  simp [ofDatum?, hknown, hsource, hcatalog]

end Response

namespace WorkItem

structure Sound (item : WorkItem) : Prop where
  url : item.url.ReadsBack
  attempts : item.attempts < Number.word32

def variation : Variation :=
  .record [⟨"url", same, none⟩, ⟨"protocol", same, none⟩, ⟨"error", same, some .null⟩,
    ⟨"attempts", same, none⟩]

theorem variation_refl (item : WorkItem) : variation item.toJson item.toJson := by
  refine record_refl (by simp) ?_
  simp only [List.forall_mem_cons, List.not_mem_nil, IsEmpty.forall_iff, implies_true, and_true]
  simp [Json.field?]

theorem ofDatum?_of_varies {item : WorkItem} (h : item.Sound) (hj : variation item.toJson j) :
    ofDatum? rules (ofJson j) = some item := by
  obtain ⟨known, hknown, hfind⟩ := record?_of_varies hj rules
  simp only [List.forall_mem_cons] at hfind
  obtain ⟨hurl, hprotocol, herror, hattempts, -⟩ := hfind
  have hurl : known.required "url" Url.ofDatum? = some item.url :=
    hurl.required rfl rfl h.url.ofDatum?
  have hprotocol : known.required "protocol" string? = some item.protocol :=
    hprotocol.required rfl rfl string?_of_same
  have herror : known.orElse "error" none (nullable? string?) = some item.error :=
    herror.nullable rfl fun _ _ => rfl
  have hattempts : known.required "attempts" smallCount? = some item.attempts := by
    refine hattempts.required rfl rfl ?_
    rintro y rfl
    exact if_pos h.attempts
  simp only [List.map_cons, List.map_nil] at hknown
  simp [ofDatum?, hknown, hurl, hprotocol, herror, hattempts]

end WorkItem

namespace Node

def variation : Variation :=
  .record [⟨"name", same, none⟩, ⟨"target_url", same, none⟩,
    ⟨"supported_protocols", items same, some (.arr [])⟩]

theorem variation_refl (node : Node) : variation node.toJson node.toJson := by
  refine record_refl (by simp) ?_
  simp only [List.forall_mem_cons, List.not_mem_nil, IsEmpty.forall_iff, implies_true, and_true]
  simp [Json.field?, strings_refl]

theorem ofDatum?_of_varies {node : Node} (h : node.url.ReadsBack) (hj : variation node.toJson j) :
    ofDatum? rules (ofJson j) = some node := by
  obtain ⟨known, hknown, hfind⟩ := record?_of_varies hj rules
  simp only [List.forall_mem_cons] at hfind
  obtain ⟨hname, hurl, hprotocols, -⟩ := hfind
  have hname : known.required "name" string? = some node.name :=
    hname.required rfl rfl string?_of_same
  have hurl : known.required "target_url" Url.ofDatum? = some node.url :=
    hurl.required rfl rfl h.ofDatum?
  have hprotocols : known.orElse "supported_protocols" [] (each? string?) =
      some node.protocols :=
    hprotocols.each rfl fun _ _ => string?_of_same
  simp only [List.map_cons, List.map_nil] at hknown
  simp [ofDatum?, hknown, hname, hurl, hprotocols]

end Node

namespace Criterion

def variation : Variation :=
  .record [⟨"operand_left", same, none⟩, ⟨"operator", same, none⟩,
    ⟨"operand_right", shuffled, none⟩]

theorem variation_refl (c : Criterion) : variation c.toJson c.toJson := by
  refine record_refl (by simp) ?_
  simp only [List.forall_mem_cons, List.not_mem_nil, IsEmpty.forall_iff, implies_true, and_true]
  simp [Json.field?]

theorem ofDatum?_of_varies {c : Criterion} (h : c.right.Normal) (hj : variation c.toJson j) :
    ofDatum? rules (ofJson j) = some c := by
  obtain ⟨known, hknown, hfind⟩ := record?_of_varies hj rules
  simp only [List.forall_mem_cons] at hfind
  obtain ⟨hleft, hoperator, hright, -⟩ := hfind
  have hleft : known.required "operand_left" string? = some c.left :=
    hleft.required rfl rfl string?_of_same
  have hoperator : known.required "operator" string? = some c.operator :=
    hoperator.required rfl rfl string?_of_same
  have hright : known.required "operand_right" value? = some c.right :=
    hright.required rfl rfl (value?_of_varies h)
  simp only [List.map_cons, List.map_nil] at hknown
  simp [ofDatum?, hknown, hleft, hoperator, hright]

end Criterion

namespace Query

def Sound (q : Query) : Prop := ∀ c ∈ q.criteria, c.right.Normal

def variation : Variation := .record [⟨"criteria", items Criterion.variation, none⟩]

theorem variation_refl (q : Query) : variation q.toJson q.toJson := by
  refine record_refl (by simp) ?_
  simp only [List.forall_mem_cons, List.not_mem_nil, IsEmpty.forall_iff, implies_true, and_true]
  simp [Json.field?, items_refl fun c _ => Criterion.variation_refl c]

theorem ofDatum?_of_varies {q : Query} (h : q.Sound) (hj : variation q.toJson j) :
    ofDatum? rules (ofJson j) = some q := by
  obtain ⟨known, hknown, hfind⟩ := record?_of_varies hj rules
  simp only [List.forall_mem_cons] at hfind
  have hcriteria : known.required "criteria" (each? (Criterion.ofDatum? rules)) =
      some q.criteria :=
    hfind.1.required rfl rfl fun _ hy =>
      each?_of_varies (fun c hc _ hy => Criterion.ofDatum?_of_varies (h c hc) hy) hy
  simp only [List.map_cons, List.map_nil] at hknown
  simp [ofDatum?, hknown, hcriteria]

end Query

namespace QueryResponse

def Sound (r : QueryResponse) : Prop := ∀ o ∈ r.offers, o.Sound

def variation : Variation :=
  .record [⟨"status", same, none⟩, ⟨"offers", items Offer.variation, none⟩,
    ⟨"errors", items same, none⟩]

theorem variation_refl (r : QueryResponse) : variation r.toJson r.toJson := by
  refine record_refl (by simp) ?_
  simp only [List.forall_mem_cons, List.not_mem_nil, IsEmpty.forall_iff, implies_true, and_true]
  simp [Json.field?, items_refl fun o _ => Offer.variation_refl o, strings_refl]

theorem ofDatum?_of_varies {r : QueryResponse} (h : r.Sound) (hj : variation r.toJson j) :
    ofDatum? rules (ofJson j) = some r := by
  obtain ⟨known, hknown, hfind⟩ := record?_of_varies hj rules
  simp only [List.forall_mem_cons] at hfind
  obtain ⟨hstatus, hoffers, herrors, -⟩ := hfind
  have hstatus : known.required "status" QueryStatus.ofDatum? = some r.status := by
    refine hstatus.required rfl rfl ?_
    rintro y rfl
    cases r.status <;> rfl
  have hoffers : known.required "offers" (each? (Offer.ofDatum? rules)) = some r.offers :=
    hoffers.required rfl rfl fun _ hy =>
      each?_of_varies (fun o ho _ hy => Offer.ofDatum?_of_varies (h o ho) hy) hy
  have herrors : known.required "errors" (each? string?) = some r.errors :=
    herrors.required rfl rfl strings_of_varies
  simp only [List.map_cons, List.map_nil] at hknown
  simp [ofDatum?, hknown, hstatus, hoffers, herrors]

end QueryResponse

/-- What is written for a sound value is read as that value, and so is all that varies it. -/
structure Written.Survives (α : Type) [Written α] (Sound : α → Prop) (v : Variation) : Prop where
  asWritten : ∀ a : α, Sound a → ∀ rules,
    Written.ofDatum? rules (ofJson (Written.toJson a)) = some a
  varied : ∀ a : α, Sound a → ∀ rules j,
    v (Written.toJson a) j → Written.ofDatum? rules (ofJson j) = some a

theorem Written.survives {α : Type} [Written α] {Sound : α → Prop} {v : Variation}
    (hrefl : ∀ a : α, v (Written.toJson a) (Written.toJson a))
    (hread : ∀ (rules : Datum.Rules) (j : Json) (a : α), Sound a → v (Written.toJson a) j →
      Written.ofDatum? rules (ofJson j) = some a) : Written.Survives α Sound v := by
  constructor
  · exact fun a h rules => hread rules _ a h (hrefl a)
  · exact fun a h rules j hj => hread rules j a h hj

theorem records_survive :
    Written.Survives Asset Asset.Sound Asset.variation ∧
    Written.Survives Offer Offer.Sound Offer.variation ∧
    Written.Survives Catalog Catalog.Sound Catalog.variation ∧
    Written.Survives Response Response.Sound Response.variation ∧
    Written.Survives WorkItem WorkItem.Sound WorkItem.variation ∧
    Written.Survives Node (fun node => node.url.ReadsBack) Node.variation ∧
    Written.Survives Criterion (fun c => c.right.Normal) Criterion.variation ∧
    Written.Survives Query Query.Sound Query.variation ∧
    Written.Survives QueryResponse QueryResponse.Sound QueryResponse.variation := by
  refine ⟨?_, ?_, ?_, ?_, ?_, ?_, ?_, ?_, ?_⟩
  · exact Written.survives Asset.variation_refl fun _ _ _ => Asset.ofDatum?_of_varies
  · exact Written.survives Offer.variation_refl fun _ _ _ => Offer.ofDatum?_of_varies
  · exact Written.survives Catalog.variation_refl fun _ _ _ => Catalog.ofDatum?_of_varies
  · exact Written.survives Response.variation_refl fun _ _ _ => Response.ofDatum?_of_varies
  · exact Written.survives WorkItem.variation_refl fun _ _ _ => WorkItem.ofDatum?_of_varies
  · exact Written.survives Node.variation_refl fun _ _ _ => Node.ofDatum?_of_varies
  · exact Written.survives Criterion.variation_refl fun _ _ _ => Criterion.ofDatum?_of_varies
  · exact Written.survives Query.variation_refl fun _ _ _ => Query.ofDatum?_of_varies
  · exact Written.survives QueryResponse.variation_refl fun _ _ _ =>
      QueryResponse.ofDatum?_of_varies

section Example

def publisher : Url := ⟨"https", some ⟨"", "", .name "b.example", none⟩, "/", none, none⟩

def published : Catalog :=
  ⟨"c", [⟨"o", ⟨"a", [("size", .int 3), ("unit", .str "m")]⟩, .null, some publisher⟩]⟩

def republished : Json :=
  .obj [("contract_offers", .arr [.obj [("provider", .str "https://b.example/"),
    ("price", .int 9), ("asset", .obj [("properties", .obj [("unit", .str "m"), ("size", .int 3)]),
    ("id", .str "a")]), ("id", .str "o")]]), ("id", .str "c")]

theorem sound_published : published.Sound := by
  have hkeys : Json.Normal (.obj [("size", .int 3), ("unit", .str "m")]) := by
    refine ⟨by decide, trivial, trivial, trivial⟩
  intro o ho
  rw [List.mem_singleton.1 ho]
  refine ⟨hkeys, trivial, ?_⟩
  rintro u ⟨⟩
  decide +kernel

theorem varies_republished : Catalog.variation published.toJson republished := by
  have hproperties : Json.Shuffled (.obj [("size", .int 3), ("unit", .str "m")])
      (.obj [("unit", .str "m"), ("size", .int 3)]) :=
    .obj (Json.ShuffledFields.refl _) (List.Perm.swap _ _ _)
  have hasset : Asset.variation (.obj [("id", .str "a"), ("properties",
      .obj [("size", .int 3), ("unit", .str "m")])]) (.obj [("properties",
      .obj [("unit", .str "m"), ("size", .int 3)]), ("id", .str "a")]) := by
    refine List.forall_mem_cons.2 ⟨⟨by simp, .there _ _ rfl rfl rfl⟩, ?_⟩
    exact List.forall_mem_singleton.2 ⟨by simp, .there _ _ rfl rfl hproperties⟩
  refine List.forall_mem_cons.2 ⟨⟨by simp, .there _ _ rfl rfl rfl⟩, ?_⟩
  refine List.forall_mem_singleton.2 ⟨by simp, .there _ _ rfl rfl (.cons ?_ .nil)⟩
  refine List.forall_mem_cons.2 ⟨⟨by simp, .there _ _ rfl rfl rfl⟩, ?_⟩
  refine List.forall_mem_cons.2 ⟨⟨by simp, .there _ _ rfl rfl hasset⟩, ?_⟩
  refine List.forall_mem_cons.2 ⟨⟨by simp, .leftOut .null rfl rfl (by simp)⟩, ?_⟩
  have hurl : publisher.toJson = .str "https://b.example/" := congrArg Json.str (by decide)
  exact List.forall_mem_singleton.2 ⟨by simp, .there _ _ rfl rfl hurl.symm⟩

theorem records_survive_published :
    published.Sound ∧ Catalog.variation published.toJson republished ∧
      Catalog.ofDatum? ⟨false⟩ (ofJson published.toJson) = some published ∧
      Catalog.ofDatum? ⟨false⟩ (ofJson republished) = some published := by
  have hcatalog := records_survive.2.2.1
  exact ⟨sound_published, varies_republished, hcatalog.asWritten _ sound_published ⟨false⟩,
    hcatalog.varied _ sound_published ⟨false⟩ _ varies_republished⟩

end Example

end CatalogCrawl

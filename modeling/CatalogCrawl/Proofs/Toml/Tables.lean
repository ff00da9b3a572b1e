import CatalogCrawl.Proofs.Json.Fields
import CatalogCrawl.Proofs.Toml.Documents

namespace CatalogCrawl.Toml

namespace Table

variable {f g : Table → Option Table} {t : Table} {key : String} {dotted : Bool}

@[simp] theorem field?_put (t : Table) (key : String) (n : Node) :
    Json.field? key (t.put key n).entries = some n :=
  Json.field?_setField key n t.entries

@[simp] theorem field?_put_of_ne {k : String} (h : k ≠ key) (t : Table) (n : Node) :
    Json.field? k (t.put key n).entries = Json.field? k t.entries :=
  Json.field?_setField_of_ne h n t.entries

@[simp] theorem put_put (t : Table) (key : String) (n m : Node) :
    (t.put key n).put key m = t.put key m :=
  congrArg (Table.mk t.origin) (Json.setField_setField key m n t.entries)

theorem ascending_put (h : Json.Ascending t.entries) (key : String) (n : Node) :
    Json.Ascending (t.put key n).entries := h.setField key n

def Keeps (f : Table → Option Table) : Prop := ∀ t t', f t = some t' → t'.origin = t.origin

theorem Keeps.bind (hf : Keeps f) (hg : Keeps g) : Keeps fun t => (f t).bind g := by
  intro t t' h
  obtain ⟨u, hu, ht⟩ := Option.bind_eq_some_iff.1 h
  exact (hg u t' ht).trans (hf t u hu)

theorem Keeps.change (hf : Keeps f) (path : List String) : Keeps (change dotted f path) := by
  intro t t' h
  cases path with
  | nil => exact hf t t' h
  | cons key path =>
    unfold Table.change at h
    split at h
    · obtain ⟨child, -, ht⟩ := Option.bind_eq_some_iff.1 h
      cases ht
      rfl
    · split at h
      · cases h
      · obtain ⟨child, -, ht⟩ := Option.bind_eq_some_iff.1 h
        cases ht
        rfl
    · obtain ⟨child, -, ht⟩ := Option.bind_eq_some_iff.1 h
      cases ht
      rfl
    · cases h

theorem change_nil (t : Table) : t.change dotted f [] = f t := rfl

theorem change_append (path rest : List String) (t : Table) :
    t.change dotted f (path ++ rest) = t.change dotted (change dotted f rest) path := by
  induction path generalizing t with
  | nil => rfl
  | cons key path ih => simp only [List.cons_append, change, ih]

theorem change_put_node (t child : Table) (key : String) (path : List String) :
    (t.put key child.node).change false f (key :: path) =
      (child.change false f path).bind fun c => some (t.put key c.node) := by
  obtain ⟨origin, entries⟩ := child
  simp only [change, field?_put, node, Bool.false_and, Bool.false_eq_true, if_false, put_put]
  rfl

theorem change_put_series (t : Table) (last : List (String × Node))
    (earlier : List (List (String × Node))) (key : String) (path : List String) :
    (t.put key (.series (last :: earlier))).change false f (key :: path) =
      (change false f path ⟨.headed, last⟩).bind fun c =>
        some (t.put key (.series (c.entries :: earlier))) := by
  simp only [change, field?_put, put_put]
  rfl

theorem change_bind (hf : Keeps f) (path : List String) (t : Table) :
    (t.change false f path).bind (change false g path) =
      t.change false (fun t => (f t).bind g) path := by
  induction path generalizing t with
  | nil => rfl
  | cons key path ih =>
    rw [change.eq_def false f, change.eq_def false fun t => (f t).bind g]
    simp only
    split
    · rw [← ih]
      cases change false f path (empty (if false then .dotted else .passed)) with
      | none => rfl
      | some child => exact change_put_node t child key path
    · rename_i origin entries _
      rw [← ih]
      cases change false f path ⟨origin, entries⟩ with
      | none => rfl
      | some child => exact change_put_node t child key path
    · rename_i last earlier _
      rw [← ih]
      cases hc : change false f path ⟨.headed, last⟩ with
      | none => rfl
      | some child =>
        have ho : child.origin = .headed := hf.change path _ _ hc
        obtain ⟨origin, entries⟩ := child
        cases ho
        exact change_put_series t entries earlier key path
    · rfl

end Table

section Records

open Json (Ascending)
open Table

variable {f : Table → Option Table} {fields : List (String × Json)} {t : Table} {name : String}

def enterAll (fields : List (String × Json)) (t : Table) : Option Table :=
  fields.foldlM (fun t f => t.enter [] f.1 (.ofJson f.2)) t

def record (fields : List (String × Json)) : List (String × Node) :=
  fields.foldl (fun t f => Json.setField f.1 (.value (.ofJson f.2)) t) []

theorem enter_eq {key : String} (d : Datum) (ho : t.origin = .headed)
    (hk : Json.field? key t.entries = none) : t.enter [] key d = some (t.put key (.value d)) := by
  simp [enter, change, ho, hk]

theorem keeps_enter (key : String) (d : Datum) : Keeps (enter [] key d) := by
  intro t t' h
  simp only [enter, change, Option.ite_none_left_eq_some, Option.some.injEq] at h
  obtain ⟨-, -, rfl⟩ := h
  rfl

theorem enterAll_eq (hk : (fields.map Prod.fst).Nodup) {entries : List (String × Node)}
    (hn : ∀ f ∈ fields, Json.field? f.1 entries = none) :
    enterAll fields ⟨.headed, entries⟩ = some ⟨.headed,
      fields.foldl (fun t f => Json.setField f.1 (.value (.ofJson f.2)) t) entries⟩ := by
  induction fields generalizing entries with
  | nil => rfl
  | cons f fields ih =>
    rw [List.map_cons, List.nodup_cons] at hk
    have hfirst := @enter_eq ⟨.headed, entries⟩ f.1 (.ofJson f.2) rfl (hn f List.mem_cons_self)
    rw [enterAll, List.foldlM_cons, hfirst]
    refine ih hk.2 fun g hg => ?_
    have hne : g.1 ≠ f.1 := fun he => hk.1 (he ▸ List.mem_map_of_mem hg)
    change Json.field? g.1 (Json.setField f.1 _ entries) = none
    rw [Json.field?_setField_of_ne hne]
    exact hn g (List.mem_cons_of_mem _ hg)

theorem enterAll_empty (hk : (fields.map Prod.fst).Nodup) :
    enterAll fields ⟨.headed, []⟩ = some ⟨.headed, record fields⟩ :=
  enterAll_eq hk fun _ _ => rfl

def enterBelow (name : String) (fields : List (String × Json)) (t : Table) : Option Table :=
  fields.foldlM (fun t f => t.change false (enter [] f.1 (.ofJson f.2)) [name]) t

theorem enterBelow_node (child : Table) :
    enterBelow name fields (t.put name child.node) =
      (enterAll fields child).map fun c => t.put name c.node := by
  induction fields generalizing child with
  | nil => rfl
  | cons f fields ih =>
    rw [enterBelow, enterAll, List.foldlM_cons, List.foldlM_cons, change_put_node, change_nil]
    cases enter [] f.1 (.ofJson f.2) child with
    | none => rfl
    | some child => exact ih child

theorem enterBelow_series (last : List (String × Node)) (earlier : List (List (String × Node))) :
    enterBelow name fields (t.put name (.series (last :: earlier))) =
      (enterAll fields ⟨.headed, last⟩).map fun c =>
        t.put name (.series (c.entries :: earlier)) := by
  induction fields generalizing last with
  | nil => rfl
  | cons f fields ih =>
    rw [enterBelow, enterAll, List.foldlM_cons, List.foldlM_cons, change_put_series, change_nil]
    cases hc : enter [] f.1 (.ofJson f.2) ⟨.headed, last⟩ with
    | none => rfl
    | some child =>
      have ho : child.origin = .headed := keeps_enter f.1 (.ofJson f.2) _ _ hc
      obtain ⟨origin, entries⟩ := child
      cases ho
      exact ih entries

theorem add_entryLine (f : String × Json) (root : Table) (current : List String) :
    Draft.add ⟨root, current⟩ (entryLine f) =
      (root.change false (enter [] f.1 (.ofJson f.2)) current).bind fun r =>
        some ⟨r, current⟩ := rfl

theorem foldlM_entryLine (hf : Keeps f) (above : List String) (root : Table) :
    ((root.change false f above).bind fun r =>
        (fields.map entryLine).foldlM Draft.add ⟨r, above ++ [name]⟩) =
      (root.change false (fun t => (f t).bind (enterBelow name fields)) above).bind fun r =>
        some ⟨r, above ++ [name]⟩ := by
  induction fields generalizing f with
  | nil =>
    have hid : (fun t => (f t).bind (enterBelow name [])) = f := by
      funext t
      cases f t <;> rfl
    rw [hid]
    rfl
  | cons e fields ih =>
    obtain ⟨g, hg⟩ : ∃ g, g = change false (enter [] e.1 (.ofJson e.2)) [name] := ⟨_, rfl⟩
    have hkeeps : Keeps g := hg ▸ (keeps_enter e.1 (.ofJson e.2)).change [name]
    have hstep : (fun t => (f t).bind (enterBelow name (e :: fields))) =
        fun t => ((f t).bind g).bind (enterBelow name fields) := by
      funext t
      rw [hg, Option.bind_assoc]
      rfl
    rw [hstep, ← ih (hf.bind hkeeps), ← change_bind hf, Option.bind_assoc]
    refine congrArg (Option.bind _) (funext fun r => ?_)
    rw [List.map_cons, List.foldlM_cons, add_entryLine, change_append, hg, Option.bind_eq_bind,
      Option.bind_assoc]
    rfl

def headed (fields : List (String × Json)) : Table := ⟨.headed, record fields⟩

@[simp] theorem entries_headed (fields : List (String × Json)) :
    (headed fields).entries = record fields := rfl

@[simp] theorem datum_headed (fields : List (String × Json)) :
    (headed fields).node.datum = .table (entryData (record fields)) := by
  rw [Table.node, Node.datum]
  rfl

theorem ascending_record (fields : List (String × Json)) : Ascending (record fields) := by
  have h (entries : List (String × Node)) (ha : Ascending entries) : Ascending
      (fields.foldl (fun t f => Json.setField f.1 (.value (.ofJson f.2)) t) entries) := by
    induction fields generalizing entries with
    | nil => exact ha
    | cons f fields ih => exact ih _ (ha.setField f.1 _)
  exact h [] .nil

theorem field?_record (hk : (fields.map Prod.fst).Nodup) (key : String) :
    Json.field? key (record fields) =
      (Json.field? key fields).map fun x => .value (.ofJson x) := by
  have h (entries : List (String × Node)) : Json.field? key
      (fields.foldl (fun t f => Json.setField f.1 (.value (.ofJson f.2)) t) entries) =
        ((Json.field? key fields).map fun x => .value (.ofJson x)).or
          (Json.field? key entries) := by
    induction fields generalizing entries with
    | nil => rfl
    | cons f fields ih =>
      obtain ⟨k, x⟩ := f
      rw [List.map_cons, List.nodup_cons] at hk
      rw [List.foldl_cons, ih hk.2, Json.field?]
      by_cases he : k = key
      · subst he
        rw [Json.field?_eq_none hk.1, if_pos rfl, Json.field?_setField]
        rfl
      · rw [if_neg he, Json.field?_setField_of_ne (Ne.symm he)]
  exact (h []).trans Option.or_none

end Records

section Decoding

open Json (Ascending)

variable {names : List String} {entries : List (String × Node)} {fields : List (String × Json)}

theorem knownFields_entryData (h : (entries.map Prod.fst).Nodup) : ∃ known,
    Datum.knownFields names (entryData entries) = some known ∧ ∀ key, Json.field? key known =
      if key ∈ names then (Json.field? key entries).map Node.datum else none := by
  induction entries with
  | nil => exact ⟨[], rfl, fun key => by simp [Json.field?]⟩
  | cons e entries ih =>
    obtain ⟨k, n⟩ := e
    rw [List.map_cons, List.nodup_cons] at h
    obtain ⟨known, hknown, hfield⟩ := ih h.2
    by_cases hk : k ∈ names
    · refine ⟨(k, n.datum) :: known, ?_, fun key => ?_⟩
      · simp [entryData, Datum.knownFields, hknown, hfield, hk, Json.field?_eq_none h.1]
      · simp only [Json.field?, hfield]
        by_cases he : k = key
        · subst he
          simp [hk]
        · simp [he]
    · refine ⟨known, ?_, fun key => ?_⟩
      · simp [entryData, Datum.knownFields, hknown, hk]
      · rw [hfield, Json.field?]
        by_cases he : k = key
        · subst he
          simp [hk]
        · simp [he]

theorem record?_entryData (h : Ascending entries) (rules : Datum.Rules) (names : List String) :
    ∃ known, (Datum.table (entryData entries)).record? rules names = some known ∧
      ∀ key, Json.field? key known =
        if key ∈ names then (Json.field? key entries).map Node.datum else none :=
  knownFields_entryData h.keys_nodup

theorem record?_record (hk : (fields.map Prod.fst).Nodup) (rules : Datum.Rules)
    (names : List String) :
    ∃ known, (Datum.table (entryData (record fields))).record? rules names = some known ∧
      ∀ key, Json.field? key known =
        if key ∈ names then (Json.field? key fields).map Datum.ofJson else none := by
  obtain ⟨known, hknown, hfield⟩ := record?_entryData (ascending_record fields) rules names
  have hdatum : Node.datum ∘ (fun x => .value (.ofJson x)) = Datum.ofJson := by
    funext x
    rw [Function.comp_apply, Node.datum]
  refine ⟨known, hknown, fun key => ?_⟩
  rw [hfield, field?_record hk, Option.map_map, hdatum]

theorem tableData_eq (tables : List (List (String × Node))) :
    tableData tables = tables.map fun entries => .table (entryData entries) := by
  induction tables with
  | nil => rfl
  | cons entries tables ih => rw [tableData, ih, List.map_cons]

end Decoding

namespace Section

open Table

variable {s : Section} {t root root' : Table}

def place (s : Section) (t : Table) : Option Table :=
  match s.series, Json.field? s.name t.entries with
  | false, none => some (t.put s.name (.table .headed (record s.own)))
  | false, some (.table .passed entries) =>
    (enterAll s.own ⟨.headed, entries⟩).map fun c => t.put s.name c.node
  | true, none => some (t.put s.name (.series [record s.own]))
  | true, some (.series tables) => some (t.put s.name (.series (record s.own :: tables)))
  | _, _ => none

def opened (s : Section) (t : Table) : Option Table :=
  if s.series then t.openItem [] s.name else t.openTable [] s.name

theorem keeps_opened (s : Section) : Keeps s.opened := by
  intro t t' h
  simp only [opened, openItem, openTable, change_nil] at h
  split at h <;> split at h <;> cases h <;> rfl

theorem add_header (s : Section) (root : Table) (current : List String) :
    Draft.add ⟨root, current⟩ s.header =
      (root.change false s.opened s.above).bind fun r => some ⟨r, s.above ++ [s.name]⟩ := by
  unfold header opened
  split <;> rfl

theorem opened_bind (hk : (s.own.map Prod.fst).Nodup) (t : Table) :
    (s.opened t).bind (enterBelow s.name s.own) = s.place t := by
  have hnode (entries : List (String × Node)) :=
    @enterBelow_node s.own t s.name ⟨.headed, entries⟩
  have hseries := @enterBelow_series s.own t s.name []
  rw [enterAll_empty hk] at hseries
  have hempty := hnode []
  rw [enterAll_empty hk] at hempty
  unfold opened place openItem openTable
  cases s.series with
  | true =>
    rw [if_pos rfl, change_nil]
    cases Json.field? s.name t.entries with
    | none => exact hseries []
    | some n =>
      cases n with
      | value d => rfl
      | table origin entries => rfl
      | series tables => exact hseries tables
  | false =>
    rw [if_neg (by decide), change_nil]
    cases Json.field? s.name t.entries with
    | none => exact hempty
    | some n =>
      cases n with
      | value d => rfl
      | table origin entries =>
        cases origin with
        | headed => rfl
        | passed => exact hnode entries
        | dotted => rfl
      | series tables => rfl

theorem foldlM_lines (hk : (s.own.map Prod.fst).Nodup) (root : Table) (current : List String) :
    s.lines.foldlM Draft.add ⟨root, current⟩ =
      (root.change false s.place s.above).bind fun r => some ⟨r, s.above ++ [s.name]⟩ := by
  have hplace : (fun t => (s.opened t).bind (enterBelow s.name s.own)) = s.place :=
    funext (opened_bind hk)
  have hall := @foldlM_entryLine s.opened s.own s.name (keeps_opened s) s.above root
  rw [hplace] at hall
  rw [lines, List.foldlM_cons, add_header, ← hall, Option.bind_eq_bind, Option.bind_assoc]
  rfl

def add (root : Table) (s : Section) : Option Table := root.change false s.place s.above

theorem foldlM_root {ss : List Section} (hs : ∀ s ∈ ss, s.Legible) (root : Table)
    (current : List String) :
    ((ss.flatMap lines).foldlM Draft.add ⟨root, current⟩).map Draft.root = ss.foldlM add root := by
  induction ss generalizing root current with
  | nil => rfl
  | cons s ss ih =>
    rw [List.flatMap_cons, List.foldlM_append, foldlM_lines (hs s List.mem_cons_self).own.distinct,
      List.foldlM_cons, add]
    cases root.change false s.place s.above with
    | none => rfl
    | some next => exact ih (fun s' hs' => hs s' (List.mem_cons_of_mem _ hs')) next _

variable {name : String} {fields own : List (String × Json)}

theorem place_table {above : List String} (ho : (Section.mk false above name fields).own = own)
    (hn : Json.field? name t.entries = none) :
    (Section.mk false above name fields).place t = some (t.put name (headed own).node) := by
  simp only [place, hn, ho]
  rfl

theorem add_table (ho : (Section.mk false [] name fields).own = own)
    (hn : Json.field? name t.entries = none) :
    add t ⟨false, [], name, fields⟩ = some (t.put name (headed own).node) := by
  rw [add, change_nil, place_table ho hn]

theorem add_below {key : String} {child : Table}
    (ho : (Section.mk false [key] name fields).own = own)
    (hn : Json.field? name child.entries = none) :
    add (t.put key child.node) ⟨false, [key], name, fields⟩ =
      some (t.put key (child.put name (headed own).node).node) := by
  rw [add, change_put_node, change_nil, place_table ho hn]
  rfl

theorem add_item (hf : Flat fields) (earlier : List (List (String × Node))) :
    add (t.put name (.series earlier)) ⟨true, [], name, fields⟩ =
      some (t.put name (.series (record fields :: earlier))) := by
  rw [add, change_nil]
  simp only [place, field?_put, put_put, hf.own]

theorem foldlM_items {items : List (List (String × Json))} (hf : ∀ fields ∈ items, Flat fields)
    (earlier : List (List (String × Node))) :
    (items.map fun fields => Section.mk true [] name fields).foldlM add
        (t.put name (.series earlier)) =
      some (t.put name (.series ((items.map record).reverse ++ earlier))) := by
  induction items generalizing earlier with
  | nil => rfl
  | cons fields items ih =>
    rw [List.forall_mem_cons] at hf
    rw [List.map_cons, List.foldlM_cons, add_item hf.1, Option.bind_eq_bind, Option.bind_some,
      ih hf.2, List.map_cons, List.reverse_cons, List.append_assoc, List.singleton_append]

theorem foldlM_series {items : List (List (String × Json))} (hf : ∀ fields ∈ items, Flat fields)
    (hne : items ≠ []) (hn : Json.field? name t.entries = none) :
    (items.map fun fields => Section.mk true [] name fields).foldlM add t =
      some (t.put name (.series (items.map record).reverse)) := by
  obtain ⟨fields, items, rfl⟩ := List.exists_cons_of_ne_nil hne
  rw [List.forall_mem_cons] at hf
  have hfirst : add t ⟨true, [], name, fields⟩ = some (t.put name (.series [record fields])) := by
    rw [add, change_nil]
    simp only [place, hn, hf.1.own]
  rw [List.map_cons, List.foldlM_cons, hfirst, Option.bind_eq_bind, Option.bind_some,
    foldlM_items hf.2, List.map_cons, List.reverse_cons]

end Section

theorem read_document {ss : List Section} {texts : List String} {root : Table}
    (hs : ∀ s ∈ ss, s.Legible) (ht : ss.mapM Section.text? = some texts)
    (hr : ss.foldlM Section.add (Table.empty .headed) = some root) :
    read (String.intercalate "\n" texts) = some root.datum := by
  rw [← Section.foldlM_root hs _ [], Option.map_eq_some_iff] at hr
  obtain ⟨last, hlast, rfl⟩ := hr
  exact read_sections hs ht hlast

end CatalogCrawl.Toml

import CatalogCrawl.Proofs.Toml.Values

namespace CatalogCrawl.Toml

section Keys

variable {key : String} {rest : Text}

def Bare (key : String) : Prop := key.toList ≠ [] ∧ key.toList.all isBare = true

instance (key : String) : Decidable (Bare key) := inferInstanceAs (Decidable (_ ∧ _))

theorem keyText_bare (h : Bare key) : keyText key = key := by
  have he : key.isEmpty = false := by
    rw [Bool.eq_false_iff, ne_eq, String.isEmpty_iff]
    rintro rfl
    exact h.1 rfl
  refine if_neg ?_
  have hall : key.toList.all (fun c => c.isAlphanum || c == '-' || c == '_') = true := h.2
  rw [he, hall]
  decide

theorem Bare.exists_head (h : Bare key) : ∃ c more, key.toList = c :: more ∧ isBare c = true := by
  obtain ⟨c, more, hc⟩ := List.exists_cons_of_ne_nil h.1
  exact ⟨c, more, hc, List.all_eq_true.1 h.2 c (hc ▸ List.mem_cons_self)⟩

theorem isGap_of_isBare {c : Char} (h : isBare c = true) :
    isGap c = false ∧ c ≠ '#' ∧ c ≠ '\n' ∧ c ≠ '\r' ∧ c ≠ '[' ∧ c ≠ '"' ∧ c ≠ '\'' := by
  refine ⟨?_, ?_, ?_, ?_, ?_, ?_, ?_⟩
  · simp only [isGap, Bool.or_eq_false_iff, beq_eq_false_iff_ne]
    constructor <;> (rintro rfl; revert h; decide)
  all_goals rintro rfl; revert h; decide

theorem skipGap_bare (h : Bare key) : skipGap (key.toList ++ rest) = key.toList ++ rest := by
  obtain ⟨c, more, hc, hb⟩ := h.exists_head
  rw [hc, List.cons_append, skipGap, List.dropWhile_cons_of_neg]
  simp [(isGap_of_isBare hb).1]

theorem takeWhile_bare (h : Bare key) (hr : ∀ c ∈ rest.head?, isBare c = false) :
    (key.toList ++ rest).takeWhile isBare = key.toList ∧
      (key.toList ++ rest).dropWhile isBare = rest := by
  have hall := List.all_eq_true.1 h.2
  have hrest : rest.takeWhile isBare = [] ∧ rest.dropWhile isBare = rest := by
    cases rest with
    | nil => exact ⟨rfl, rfl⟩
    | cons c rest => simp [hr c rfl]
  rw [List.takeWhile_append_of_pos hall, List.dropWhile_append_of_pos hall, hrest.1, hrest.2,
    List.append_nil]
  exact ⟨rfl, rfl⟩

theorem readSimpleKey_bare (h : Bare key) (hr : ∀ c ∈ rest.head?, isBare c = false) :
    readSimpleKey (key.toList ++ rest) = some (key, rest) := by
  obtain ⟨htake, hdrop⟩ := takeWhile_bare h hr
  obtain ⟨c, more, hc, hb⟩ := h.exists_head
  obtain ⟨-, -, -, -, -, hquote, happ⟩ := isGap_of_isBare hb
  have hkey : String.ofList (c :: more) = key := by rw [← hc, String.ofList_toList]
  rw [hc, List.cons_append] at htake hdrop ⊢
  simp [readSimpleKey, hquote, happ, htake, hdrop, hkey]

theorem readNames_bare {names : List String} (hn : names ≠ []) (hb : ∀ k ∈ names, Bare k)
    (hr : ∀ c ∈ rest.head?, isBare c = false) (hd : ∀ c ∈ (skipGap rest).head?, c ≠ '.')
    {fuel : Nat} (hf : names.length ≤ fuel) :
    readNames fuel (['.'].intercalate (names.map String.toList) ++ rest) =
      some (names, skipGap rest) := by
  induction names generalizing fuel with
  | nil => exact absurd rfl hn
  | cons key names ih =>
    have hkey := hb key List.mem_cons_self
    cases fuel with
    | zero => cases hf
    | succ fuel =>
      cases names with
      | nil =>
        have hread := readSimpleKey_bare hkey hr
        simp only [List.map_cons, List.map_nil, List.intercalate_singleton, readNames,
          skipGap_bare hkey, hread, Option.bind_eq_bind, Option.bind_some]
        split
        · rename_i more he
          exact absurd rfl (hd '.' (by rw [he]; rfl))
        · rfl
      | cons next names =>
        have hnext := @ih (by simp) (fun k hk => hb k (List.mem_cons_of_mem _ hk)) fuel
          (Nat.le_of_succ_le_succ hf)
        obtain ⟨inner, hi⟩ : ∃ inner,
            ['.'].intercalate ((next :: names).map String.toList) = inner := ⟨_, rfl⟩
        have hdot : ∀ c ∈ ('.' :: (inner ++ rest)).head?, isBare c = false := by
          rintro c hc
          cases hc
          rfl
        have htext : ['.'].intercalate ((key :: next :: names).map String.toList) ++ rest =
            key.toList ++ '.' :: (inner ++ rest) := by
          rw [← hi]
          simp [List.intercalate_cons_cons]
        have hskip : skipGap ('.' :: (inner ++ rest)) = '.' :: (inner ++ rest) := rfl
        rw [hi] at hnext
        rw [htext, readNames, skipGap_bare hkey]
        simp [readSimpleKey_bare hkey hdot, hskip, hnext]

theorem readKey_bare {names : List String} (hn : names ≠ []) (hb : ∀ k ∈ names, Bare k)
    (hl : names.length < depthLimit) (hr : ∀ c ∈ rest.head?, isBare c = false)
    (hd : ∀ c ∈ (skipGap rest).head?, c ≠ '.') :
    readKey (['.'].intercalate (names.map String.toList) ++ rest) =
      some (⟨names.dropLast, names.getLast hn⟩, skipGap rest) := by
  have hf : names.length ≤ (['.'].intercalate (names.map String.toList) ++ rest).length + 1 := by
    have hjoined := Text.length_intercalate '.' (names.map String.toList)
    rw [List.length_map] at hjoined
    rw [List.length_append]
    omega
  rw [readKey, readNames_bare hn hb hr hd hf]
  simp [Nat.not_le.2 hl, List.getLast?_eq_some_getLast hn]

end Keys

section Lines

variable {key : String} {text rest : Text} {d : Datum} {line : Line} {draft next last : Draft}

structure Spells (text : Text) (line : Line) : Prop where
  start : ∃ c ∈ text.head?, isGap c = false ∧ c ≠ '#' ∧ c ≠ '\n' ∧ c ≠ '\r'
  read : ∀ rest, readStatement (text ++ rest) = some (line, rest)

theorem spells_entry (hk : Bare key) (ht : Reads text d) :
    Spells (key.toList ++ " = ".toList ++ text ++ ['\n']) (.entry ⟨[], key⟩ d) := by
  obtain ⟨c, more, hc, hb⟩ := hk.exists_head
  obtain ⟨hg, hh, hn, hr, hbracket, -, -⟩ := isGap_of_isBare hb
  refine ⟨⟨c, by rw [hc]; rfl, hg, hh, hn, hr⟩, fun rest => ?_⟩
  have hline : key.toList ++ " = ".toList ++ text ++ ['\n'] ++ rest =
      key.toList ++ (' ' :: '=' :: ' ' :: (text ++ '\n' :: rest)) := by
    simp
  have hkey := @readKey_bare (' ' :: '=' :: ' ' :: (text ++ '\n' :: rest)) [key] (by simp)
    (by simpa using hk) (by simp [depthLimit]) (by rintro c hc; cases hc; rfl)
    (by rintro c hc; cases hc; decide)
  have hskip : skipGap (' ' :: '=' :: ' ' :: (text ++ '\n' :: rest)) =
      '=' :: ' ' :: (text ++ '\n' :: rest) := rfl
  have hgap : skipGap (' ' :: (text ++ '\n' :: rest)) = text ++ '\n' :: rest := by
    obtain ⟨t, ht, hg⟩ := ht.start
    obtain ⟨more, rfl⟩ := List.head?_eq_some_iff.1 ht
    change (t :: (more ++ '\n' :: rest)).dropWhile isGap = _
    rw [List.dropWhile_cons_of_neg (by simp [hg])]
    rfl
  have hend : Delimited ('\n' :: rest) := by
    rintro c hc
    cases hc
    exact .inl rfl
  have hvalue := ht.read ('\n' :: rest) ('=' :: ' ' :: (text ++ '\n' :: rest)).length hend
    (by simp only [List.length_cons, List.length_append]; omega)
  rw [List.map_singleton, List.intercalate_singleton, hskip] at hkey
  rw [hline]
  rw [hc, List.cons_append] at hkey ⊢
  rw [readStatement]
  · simp only [hkey, readMark, hgap, hvalue, Option.bind_eq_bind, Option.bind_some,
      beq_self_eq_true, if_true]
    rfl
  · exact fun _ he => hbracket (List.cons.inj he).1
  · exact fun _ he => hbracket (List.cons.inj he).1

section Headers

variable {above : List String} {name : String}

theorem toList_headerText (opening closing : String) (hb : ∀ k ∈ above ++ [name], Bare k) :
    (headerText opening closing (above ++ [name])).toList =
      opening.toList ++ (['.'].intercalate ((above ++ [name]).map String.toList) ++
        (closing.toList ++ ['\n'])) := by
  have hkeys : (above ++ [name]).map keyText = above ++ [name] :=
    (List.map_congr_left fun k hk => keyText_bare (hb k hk)).trans (List.map_id _)
  simp only [headerText, hkeys, String.toList_append, String.toList_intercalate,
    List.append_assoc]
  rfl

theorem readKey_path (hb : ∀ k ∈ above ++ [name], Bare k) (hl : above.length + 1 < depthLimit)
    (rest : Text) :
    readKey (['.'].intercalate ((above ++ [name]).map String.toList) ++ ']' :: rest) =
      some (⟨above, name⟩, ']' :: rest) := by
  have hkey := @readKey_bare (']' :: rest) (above ++ [name]) (by simp) hb (by simpa using hl)
    (by rintro c hc; cases hc; rfl) (by rintro c hc; cases hc; decide)
  rw [List.dropLast_concat, List.getLast_concat] at hkey
  exact hkey

theorem exists_head_path (hb : ∀ k ∈ above ++ [name], Bare k) :
    ∃ c more, ['.'].intercalate ((above ++ [name]).map String.toList) = c :: more ∧ c ≠ '[' := by
  obtain ⟨key, names, hn⟩ : ∃ key names, above ++ [name] = key :: names :=
    List.exists_cons_of_ne_nil (by simp)
  rw [hn] at hb ⊢
  obtain ⟨c, more, hc, h⟩ := (hb key List.mem_cons_self).exists_head
  have hne : c ≠ '[' := (isGap_of_isBare h).2.2.2.2.1
  rw [List.map_cons, hc, List.intercalate_cons_cons_left]
  exact ⟨c, _, rfl, hne⟩

theorem spells_header (hb : ∀ k ∈ above ++ [name], Bare k) (hl : above.length + 1 < depthLimit) :
    Spells (headerText "[" "]" (above ++ [name])).toList (.header ⟨above, name⟩) := by
  rw [toList_headerText "[" "]" hb]
  refine ⟨⟨'[', rfl, by decide⟩, fun rest => ?_⟩
  have hkey := readKey_path hb hl ('\n' :: rest)
  obtain ⟨c, more, hc, hne⟩ := exists_head_path hb
  rw [hc] at hkey ⊢
  have htext : "[".toList ++ (c :: more ++ ("]".toList ++ ['\n'])) ++ rest =
      '[' :: c :: (more ++ ']' :: '\n' :: rest) := by
    simp
  rw [List.cons_append] at hkey
  rw [htext, readStatement]
  · simp only [hkey, readMark, Option.bind_eq_bind, Option.bind_some, beq_self_eq_true, if_true]
    rfl
  · exact fun _ he => hne (List.cons.inj he).1

theorem spells_item (hb : ∀ k ∈ above ++ [name], Bare k) (hl : above.length + 1 < depthLimit) :
    Spells (headerText "[[" "]]" (above ++ [name])).toList (.item ⟨above, name⟩) := by
  rw [toList_headerText "[[" "]]" hb]
  refine ⟨⟨'[', rfl, by decide⟩, fun rest => ?_⟩
  have hkey := readKey_path hb hl (']' :: '\n' :: rest)
  generalize ['.'].intercalate ((above ++ [name]).map String.toList) = path at hkey ⊢
  have htext : "[[".toList ++ (path ++ ("]]".toList ++ ['\n'])) ++ rest =
      '[' :: '[' :: (path ++ ']' :: ']' :: '\n' :: rest) := by
    simp
  rw [htext, readStatement, hkey]
  rfl

end Headers

section Drafts

def Leads (draft : Draft) (text : Text) (last : Draft) : Prop :=
  ∀ fuel, text.length < fuel → readDraft fuel draft text = some last

theorem leads_nil (draft : Draft) : Leads draft [] draft := by
  intro fuel hf
  cases fuel with
  | zero => cases hf
  | succ fuel => rfl

theorem leads_blank (h : Leads draft text last) : Leads draft ('\n' :: text) last := by
  intro fuel hf
  cases fuel with
  | zero => cases hf
  | succ fuel => exact h fuel (Nat.lt_of_succ_lt_succ hf)

theorem leads_line (hs : Spells text line) (ha : draft.add line = some next)
    (h : Leads next rest last) : Leads draft (text ++ rest) last := by
  intro fuel hf
  obtain ⟨c, hc, hg, hh, hn, hr⟩ := hs.start
  obtain ⟨more, rfl⟩ := List.head?_eq_some_iff.1 hc
  cases fuel with
  | zero => cases hf
  | succ fuel =>
    have hnext := h fuel (by simp only [List.length_append, List.length_cons] at hf; omega)
    have hread := hs.read rest
    have hskip : skipGap (c :: (more ++ rest)) = c :: (more ++ rest) :=
      List.dropWhile_cons_of_neg (by simp [hg])
    rw [List.cons_append] at hread ⊢
    simp [readDraft, hskip, hh, lineBreak?, hn, hr, hread, ha, hnext]

end Drafts

end Lines

section Sections

def Legible (x : Json) : Prop := ∀ t, valueText x = some t → Reads t.toList (.ofJson x)

theorem legible_count (n : Nat) : Legible (.int n) := by
  intro t ht
  rw [valueText, Option.ite_none_right_eq_some] at ht
  have hn : (n : Int) < Number.half64 := of_decide_eq_true (Bool.and_eq_true_iff.1 ht.1).2
  have htext : toString n = t := Option.some.inj ht.2
  exact htext ▸ reads_int (Int.ofNat_lt.1 hn)

theorem legible_string (s : String) : Legible (.str s) := by
  intro t ht
  cases ht
  exact reads_string s

theorem ofItems_strings (items : List String) :
    Datum.ofItems (items.map .str) = items.map .text := by
  induction items with
  | nil => rfl
  | cons s items ih => exact congrArg (Datum.text s :: ·) ih

theorem legible_strings (items : List String) : Legible (.arr (items.map .str)) := by
  intro t ht
  obtain ⟨text, hv, hr⟩ := reads_strings items
  obtain rfl : text = t := Option.some.inj (hv.symm.trans ht)
  rw [Datum.ofJson, ofItems_strings]
  exact hr

def entryLine (f : String × Json) : Line := .entry ⟨[], f.1⟩ (.ofJson f.2)

theorem leads_entries {fields : List (String × Json)} {texts : List String} {rest : Text}
    {draft next last : Draft} (ht : entryTexts fields = some texts)
    (hb : ∀ f ∈ fields, Bare f.1) (hl : ∀ f ∈ fields, Legible f.2)
    (hd : (fields.map entryLine).foldlM Draft.add draft = some next) (h : Leads next rest last) :
    Leads draft ((String.join (texts.map (· ++ "\n"))).toList ++ rest) last := by
  induction fields generalizing texts draft with
  | nil =>
    cases ht
    cases hd
    exact h
  | cons f fields ih =>
    obtain ⟨key, x⟩ := f
    have hkey : Bare key := hb (key, x) List.mem_cons_self
    simp only [entryTexts, Option.bind_eq_bind, Option.bind_eq_some_iff, Option.some.injEq,
      keyText_bare hkey] at ht
    obtain ⟨value, hv, more, hm, rfl⟩ := ht
    rw [List.map_cons, List.foldlM_cons, Option.bind_eq_bind, Option.bind_eq_some_iff] at hd
    obtain ⟨after, ha, hd⟩ := hd
    have hline := spells_entry hkey (hl (key, x) List.mem_cons_self value hv)
    have hrest := ih hm (fun f hf => hb f (List.mem_cons_of_mem _ hf))
      (fun f hf => hl f (List.mem_cons_of_mem _ hf)) hd
    have hleads := leads_line hline ha hrest
    simpa [String.toList_join] using hleads

structure Plain (fields : List (String × Json)) : Prop where
  distinct : (fields.map Prod.fst).Nodup
  keys : ∀ f ∈ fields, Bare f.1
  values : ∀ f ∈ fields, Legible f.2

theorem Plain.of_names {fields : List (String × Json)} (names : List String)
    (hn : fields.map Prod.fst = names) (hd : names.Nodup) (hk : ∀ k ∈ names, Bare k)
    (hv : ∀ f ∈ fields, Legible f.2) : Plain fields := by
  subst hn
  exact ⟨hd, fun f hf => hk f.1 (List.mem_map_of_mem hf), hv⟩

structure Section where
  series : Bool
  above : List String
  name : String
  fields : List (String × Json)

namespace Section

variable {s : Section}

def text? (s : Section) : Option String :=
  (ownLines s.fields).map fun lines =>
    (if s.series then headerText "[[" "]]" (s.above ++ [s.name])
      else headerText "[" "]" (s.above ++ [s.name])) ++ lines

def own (s : Section) : List (String × Json) := s.fields.filter fun f => !hasHeader f.2

def header (s : Section) : Line :=
  if s.series then .item ⟨s.above, s.name⟩ else .header ⟨s.above, s.name⟩

def lines (s : Section) : List Line := s.header :: s.own.map entryLine

structure Legible (s : Section) : Prop where
  path : ∀ k ∈ s.above ++ [s.name], Bare k
  shallow : s.above.length + 1 < depthLimit
  own : Plain s.own

theorem legible_of_own {series : Bool} {above : List String} {name : String}
    {fields own : List (String × Json)} (hp : ∀ k ∈ above ++ [name], Bare k)
    (hl : above.length + 1 < depthLimit) (ho : (Section.mk series above name fields).own = own)
    (h : Plain own) : (Section.mk series above name fields).Legible := by
  subst ho
  exact ⟨hp, hl, h⟩

theorem Legible.leads {t : String} {rest : Text} {draft next last : Draft} (hs : s.Legible)
    (ht : s.text? = some t) (hd : s.lines.foldlM Draft.add draft = some next)
    (h : Leads next rest last) : Leads draft (t.toList ++ rest) last := by
  rw [text?, Option.map_eq_some_iff] at ht
  obtain ⟨lines, hl, rfl⟩ := ht
  simp only [ownLines, Option.bind_eq_bind, Option.bind_eq_some_iff, Option.some.injEq] at hl
  obtain ⟨texts, hown, rfl⟩ := hl
  rw [Section.lines, List.foldlM_cons, Option.bind_eq_bind, Option.bind_eq_some_iff] at hd
  obtain ⟨opened, ho, hd⟩ := hd
  have hentries := leads_entries hown hs.own.keys hs.own.values hd h
  have hheader : Spells (if s.series then headerText "[[" "]]" (s.above ++ [s.name])
      else headerText "[" "]" (s.above ++ [s.name])).toList s.header := by
    unfold header
    split
    · exact spells_item hs.path hs.shallow
    · exact spells_header hs.path hs.shallow
  rw [String.toList_append, List.append_assoc]
  exact leads_line hheader ho hentries

theorem head?_text? {t : String} (ht : s.text? = some t) : t.toList.head? = some '[' := by
  rw [text?, Option.map_eq_some_iff] at ht
  obtain ⟨lines, -, rfl⟩ := ht
  split <;> simp [headerText]

end Section

section Writing

variable {s : Section}

theorem isSome_count {n : Nat} : (valueText (.int n)).isSome ↔ n < Number.half64 := by
  have hlow : -(Number.half64 : Int) ≤ n := by omega
  simp [valueText, hlow]

theorem isSome_strings (items : List String) : (valueText (.arr (items.map .str))).isSome := by
  obtain ⟨t, ht, -⟩ := exists_valueText_strings items
  rw [ht]
  rfl

theorem isSome_entryTexts {fields : List (String × Json)} :
    (entryTexts fields).isSome ↔ ∀ f ∈ fields, (valueText f.2).isSome := by
  induction fields with
  | nil => simp [entryTexts]
  | cons f fields ih =>
    rw [List.forall_mem_cons, ← ih, entryTexts]
    cases valueText f.2 <;> cases entryTexts fields <;> simp

theorem Section.isSome_text? : s.text?.isSome ↔ ∀ f ∈ s.own, (valueText f.2).isSome := by
  rw [← isSome_entryTexts, text?, ownLines, own, Option.isSome_map]
  cases entryTexts (s.fields.filter fun f => !hasHeader f.2) <;> simp

theorem isSome_mapM_text? {ss : List Section} :
    (ss.mapM Section.text?).isSome ↔ ∀ s ∈ ss, ∀ f ∈ s.own, (valueText f.2).isSome := by
  induction ss with
  | nil => simp
  | cons s ss ih =>
    rw [List.forall_mem_cons, ← ih, ← Section.isSome_text?, List.mapM_cons]
    cases s.text? <;> cases ss.mapM Section.text? <;> simp

end Writing

theorem leads_sections {ss : List Section} {texts : List String} {draft last : Draft}
    (hs : ∀ s ∈ ss, s.Legible) (ht : ss.mapM Section.text? = some texts)
    (hd : (ss.flatMap Section.lines).foldlM Draft.add draft = some last) :
    Leads draft (String.intercalate "\n" texts).toList last := by
  rw [String.toList_intercalate]
  induction ss generalizing texts draft with
  | nil =>
    cases ht
    cases hd
    exact leads_nil _
  | cons s ss ih =>
    simp only [List.mapM_cons, Option.bind_eq_bind, Option.bind_eq_some_iff, Option.pure_def,
      Option.some.injEq] at ht
    obtain ⟨text, hsection, more, hmore, rfl⟩ := ht
    rw [List.flatMap_cons, List.foldlM_append, Option.bind_eq_bind, Option.bind_eq_some_iff] at hd
    obtain ⟨after, ha, hd⟩ := hd
    have hfirst := hs s List.mem_cons_self
    have hrest := ih (fun s' hs' => hs s' (List.mem_cons_of_mem _ hs')) hmore hd
    cases more with
    | nil =>
      have hleads := hfirst.leads hsection ha hrest
      simpa using hleads
    | cons next more =>
      have hleads := hfirst.leads hsection ha (leads_blank hrest)
      simpa using hleads

theorem head?_sections {ss : List Section} {texts : List String}
    (ht : ss.mapM Section.text? = some texts) :
    ∀ c ∈ (String.intercalate "\n" texts).toList.head?, c = '[' := by
  rw [String.toList_intercalate]
  intro c hc
  cases ss with
  | nil =>
    cases ht
    cases hc
  | cons s ss =>
    simp only [List.mapM_cons, Option.bind_eq_bind, Option.bind_eq_some_iff, Option.pure_def,
      Option.some.injEq] at ht
    obtain ⟨text, hsection, more, -, rfl⟩ := ht
    obtain ⟨body, hb⟩ := List.head?_eq_some_iff.1 (Section.head?_text? hsection)
    rw [List.map_cons, hb, List.intercalate_cons_cons_left] at hc
    cases hc
    rfl

theorem read_sections {ss : List Section} {texts : List String} {last : Draft}
    (hs : ∀ s ∈ ss, s.Legible) (ht : ss.mapM Section.text? = some texts)
    (hd : (ss.flatMap Section.lines).foldlM Draft.add Draft.empty = some last) :
    read (String.intercalate "\n" texts) = some last.root.datum := by
  have hleads := leads_sections hs ht hd
  have hhead := head?_sections ht
  generalize String.intercalate "\n" texts = text at hleads hhead ⊢
  unfold read
  cases htext : text.toList with
  | nil =>
    rw [htext] at hleads
    simp [hleads 1 (by decide)]
  | cons c rest =>
    rw [htext] at hleads hhead
    obtain rfl : c = '[' := hhead c rfl
    -- no mark of the byte order stands first
    have hbom : ¬ '['.toNat = 0xFEFF := by decide
    have hread := hleads (('[' :: rest).length + 1) (Nat.lt_succ_self _)
    simp only [if_neg hbom, hread, Option.bind_eq_bind, Option.bind_some]

end Sections

section Blocks

variable {path : List String} {key : String} {fields rest : List (String × Json)}

theorem fieldBlocks_value {x : Json} (h : hasHeader x = false) :
    fieldBlocks path ((key, x) :: rest) = fieldBlocks path rest := by
  cases x with
  | obj => cases h
  | arr items =>
    simp only [fieldBlocks, h]
    cases fieldBlocks path rest <;> rfl
  | _ =>
    simp only [fieldBlocks]
    cases fieldBlocks path rest <;> rfl

def Flat (fields : List (String × Json)) : Prop := fields.all (fun f => !hasHeader f.2) = true

theorem Flat.hasHeader (h : Flat fields) {f : String × Json} (hf : f ∈ fields) :
    Toml.hasHeader f.2 = false := by
  simpa using List.all_eq_true.1 h f hf

theorem Flat.own (h : Flat fields) {series : Bool} {above : List String} {name : String} :
    (Section.mk series above name fields).own = fields :=
  List.filter_eq_self.2 fun _ hf => by simp [h.hasHeader hf]

theorem fieldBlocks_flat (h : Flat fields) : fieldBlocks path fields = some [] := by
  induction fields with
  | nil => rfl
  | cons f fields ih =>
    rw [fieldBlocks_value (h.hasHeader List.mem_cons_self)]
    refine ih (List.all_eq_true.2 fun g hg => ?_)
    simp [h.hasHeader (List.mem_cons_of_mem f hg)]

theorem isEmpty_ownLines {lines : String} (h : ∃ f ∈ fields, hasHeader f.2 = false)
    (hl : ownLines fields = some lines) : lines.isEmpty = false := by
  obtain ⟨f, hf, hv⟩ := h
  have hm : f ∈ fields.filter fun f => !hasHeader f.2 := List.mem_filter.2 ⟨hf, by simp [hv]⟩
  obtain ⟨g, more, hg⟩ := List.exists_cons_of_ne_nil (List.ne_nil_of_mem hm)
  simp only [ownLines, hg, entryTexts, Option.bind_eq_bind, Option.bind_eq_some_iff,
    Option.some.injEq] at hl
  obtain ⟨texts, ⟨value, -, others, -, rfl⟩, rfl⟩ := hl
  rw [Bool.eq_false_iff, ne_eq, String.isEmpty_iff, ← String.toList_inj, String.toList_join]
  simp

theorem fieldBlocks_table {within : List String} {below after : List Section}
    (h : ∃ f ∈ fields, hasHeader f.2 = false) (hw : path ++ [key] = within)
    (hb : fieldBlocks within fields = below.mapM Section.text?)
    (ha : fieldBlocks path rest = after.mapM Section.text?) :
    fieldBlocks path ((key, .obj fields) :: rest) =
      (⟨false, path, key, fields⟩ :: (below ++ after)).mapM Section.text? := by
  subst hw
  rw [fieldBlocks, hb, ha, List.mapM_cons, List.mapM_append, Section.text?]
  cases hl : ownLines fields with
  | none => rfl
  | some lines =>
    simp only [Option.bind_eq_bind, Option.bind_some, isEmpty_ownLines h hl, Bool.false_and,
      Bool.false_eq_true, if_false, Option.map_some, Option.pure_def, Option.bind_assoc]
    rfl

theorem fieldBlocks_leaf {after : List Section} (h : Flat fields)
    (ha : fieldBlocks path rest = after.mapM Section.text?) :
    fieldBlocks path ((key, .obj fields) :: rest) =
      (⟨false, path, key, fields⟩ :: after).mapM Section.text? := by
  cases fields with
  | nil =>
    rw [List.mapM_cons, ← ha]
    rfl
  | cons f fields =>
    exact @fieldBlocks_table path key _ _ _ [] _
      ⟨f, List.mem_cons_self, h.hasHeader List.mem_cons_self⟩ rfl (fieldBlocks_flat h) ha

theorem itemBlocks_eq {above : List String} {name : String} (tables : List (List (String × Json)))
    (h : ∀ fields ∈ tables, Flat fields) :
    itemBlocks (above ++ [name]) (tables.map .obj) =
      (tables.map fun fields => ⟨true, above, name, fields⟩).mapM Section.text? := by
  induction tables with
  | nil => rfl
  | cons fields tables ih =>
    have hrest := ih fun fields hf => h fields (List.mem_cons_of_mem _ hf)
    have hbelow : blocks (above ++ [name]) (.obj fields) = some [] :=
      fieldBlocks_flat (h fields List.mem_cons_self)
    rw [List.map_cons, itemBlocks, hbelow, hrest, List.map_cons, List.mapM_cons, Section.text?]
    cases ownLines fields <;> rfl

theorem print_tables (h : ∀ f ∈ fields, hasHeader f.2 = true) : print fields =
    (fieldBlocks [] fields).bind fun texts => some (String.intercalate "\n" texts) := by
  have hfilter : fields.filter (fun f => !hasHeader f.2) = [] := by
    rw [List.filter_eq_nil_iff]
    intro f hf
    simp [h f hf]
  have hown : ownLines fields = some "" := by
    change ((entryTexts (fields.filter fun f => !hasHeader f.2)).bind fun texts =>
      some (String.join (texts.map (· ++ "\n")))) = some ""
    rw [hfilter]
    rfl
  simp [print, hown]

end Blocks

end CatalogCrawl.Toml

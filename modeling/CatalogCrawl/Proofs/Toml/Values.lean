import CatalogCrawl.Proofs.Text.Numerals
import CatalogCrawl.Proofs.Toml.Strings

namespace CatalogCrawl.Toml

def Delimited (rest : Text) : Prop := ∀ c ∈ rest.head?, c = '\n' ∨ c = ',' ∨ c = ']'

structure Reads (text : Text) (d : Datum) : Prop where
  start : ∃ c ∈ text.head?, isGap c = false
  read : ∀ rest fuel, Delimited rest → text.length ≤ fuel →
    readValue (fuel + 1) 0 (text ++ rest) = some (d, rest)

section Digits

variable {digits rest : Text}

theorem isGap_of_isDigit {c : Char} (h : c.isDigit = true) : isGap c = false := by
  simp only [isGap, Bool.or_eq_false_iff, beq_eq_false_iff_ne]
  constructor <;> (rintro rfl; cases h)

def Ends (rest : Text) : Prop := ∀ c ∈ rest.head?, c.isDigit = false ∧ c ≠ '_'

theorem Delimited.ends (h : Delimited rest) : Ends rest := by
  intro c hc
  rcases h c hc with rfl | rfl | rfl <;> decide

theorem readRun_digits (hd : ∀ c ∈ digits, c.isDigit = true) (hr : Ends rest) :
    readRun Char.isDigit (digits ++ rest) = (digits, rest) := by
  induction digits with
  | nil =>
    cases rest with
    | nil => rfl
    | cons c rest =>
      rw [List.nil_append, readRun.eq_def]
      simp only [(hr c rfl).1, Bool.false_eq_true, if_false]
  | cons d digits ih =>
    have hrest := ih fun c hc => hd c (List.mem_cons_of_mem _ hc)
    have hnext : ∀ c more, digits ++ rest = '_' :: c :: more → False := by
      intro c more he
      cases digits with
      | nil => exact (hr '_' (by rw [List.nil_append] at he; simp [he])).2 rfl
      | cons e digits =>
        obtain rfl : e = '_' := (List.cons.inj he).1
        exact absurd (hd '_' (by simp)) (by decide)
    rw [List.cons_append, readRun, if_pos (hd d List.mem_cons_self), hrest]
    exact hnext

theorem value_digits (hd : ∀ c ∈ digits, c.isDigit = true) :
    value 10 digits = Nat.ofDigitChars 10 digits 0 := by
  have hfold (n : Nat) : digits.foldl (fun n c => n * 10 + (hexOf? c).getD 0) n =
      Nat.ofDigitChars 10 digits n := by
    induction digits generalizing n with
    | nil => exact Nat.ofDigitChars_nil.symm
    | cons c digits ih =>
      have hc : hexOf? c = some (c.toNat - '0'.toNat) := if_pos (hd c List.mem_cons_self)
      rw [List.foldl_cons, hc, Option.getD_some, Nat.ofDigitChars_cons, Nat.mul_comm]
      exact ih (fun d hm => hd d (List.mem_cons_of_mem _ hm)) _
  exact hfold 0

theorem readMark_of_readDigits {mark : Char} (hm : mark.isDigit = false)
    (hd : ∀ c ∈ digits, c.isDigit = true)
    (hr : ∀ c ∈ rest.head?, c.isDigit = false ∧ c ≠ mark) {count n : Nat} {p : Nat × Text}
    (h : readDigits count n (digits ++ rest) = some p) : readMark mark p.2 = none := by
  induction count generalizing digits n with
  | zero =>
    cases h
    cases digits with
    | nil =>
      cases rest with
      | nil => rfl
      | cons c rest => simp [readMark, (hr c rfl).2]
    | cons d digits =>
      have hne : d ≠ mark := by
        rintro rfl
        rw [hd d List.mem_cons_self] at hm
        cases hm
      simp [readMark, hne]
  | succ count ih =>
    cases digits with
    | nil =>
      cases rest with
      | nil => cases h
      | cons c rest =>
        rw [List.nil_append, readDigits, (hr c rfl).1] at h
        cases h
    | cons d digits =>
      rw [List.cons_append, readDigits, if_pos (hd d List.mem_cons_self)] at h
      exact ih (fun c hc => hd c (List.mem_cons_of_mem _ hc)) h

theorem readStamp_of_head {c : Char} (hc : c.isDigit = false) (rest : Text) :
    readStamp (c :: rest) = none := by
  simp [readStamp, readDate, readTime, readPart, readDigits, hc]

theorem readStamp_digits (hd : ∀ c ∈ digits, c.isDigit = true)
    (hr : ∀ c ∈ rest.head?, c.isDigit = false ∧ c ≠ '-' ∧ c ≠ ':') :
    readStamp (digits ++ rest) = none := by
  have hdate : readDate (digits ++ rest) = none := by
    cases h : readDigits 4 0 (digits ++ rest) with
    | none => simp [readDate, h]
    | some p =>
      have hm := readMark_of_readDigits rfl hd (fun c hc => ⟨(hr c hc).1, (hr c hc).2.1⟩) h
      simp [readDate, h, hm]
  have htime : readTime (digits ++ rest) = none := by
    cases h : readDigits 2 0 (digits ++ rest) with
    | none => simp [readTime, readPart, h]
    | some p =>
      have hm := readMark_of_readDigits rfl hd (fun c hc => ⟨(hr c hc).1, (hr c hc).2.2⟩) h
      by_cases hp : p.1 ≤ 23
      · simp [readTime, readPart, h, hp, hm]
      · simp [readTime, readPart, h, hp]
  rw [readStamp, hdate, htime]

end Digits

section Numbers

variable {digits places rest : Text} {negative : Bool}

structure Numeral (digits : Text) : Prop where
  digit : ∀ c ∈ digits, c.isDigit = true
  nonempty : digits ≠ []
  leading : digits = ['0'] ∨ digits.head? ≠ some '0'

theorem numeral_toDigits (n : Nat) : Numeral (Nat.toDigits 10 n) := by
  refine ⟨fun c hc => Text.isDigit_of_mem_toDigits hc, Nat.toDigits_ne_nil, ?_⟩
  rcases Nat.eq_zero_or_pos n with rfl | hn
  · exact .inl (Nat.toDigits_zero 10)
  · exact .inr (Text.head?_toDigits hn)

theorem Numeral.cases (h : Numeral digits) :
    digits = ['0'] ∨ ∃ d more, digits = d :: more ∧ d ≠ '0' := by
  refine h.leading.imp_right fun hl => ?_
  obtain ⟨d, more, rfl⟩ := List.exists_cons_of_ne_nil h.nonempty
  exact ⟨d, more, rfl, by simpa using hl⟩

theorem readDecimal_int (h : Numeral digits) (hr : Delimited rest)
    (hn : Nat.ofDigitChars 10 digits 0 < Number.half64) :
    readDecimal false (digits ++ rest) = some (.whole (Nat.ofDigitChars 10 digits 0), rest) := by
  have hrun := readRun_digits h.digit hr.ends
  have hvalue := value_digits h.digit
  have hlast (c : Char) (more : Text) (he : rest = c :: more) :
      c ≠ '.' ∧ c ≠ 'e' ∧ c ≠ 'E' := by
    rcases hr c (he ▸ rfl) with rfl | rfl | rfl <;> decide
  rcases h.cases with rfl | ⟨d, more, rfl, hd⟩
  · cases rest with
    | nil => rfl
    | cons c rest =>
      obtain ⟨h1, h2, h3⟩ := hlast c rest rfl
      simp [readDecimal, h1, h2, h3, hvalue, Nat.not_le.2 hn]
  · rw [List.cons_append] at hrun ⊢
    cases rest with
    | nil =>
      rw [List.append_nil] at hrun ⊢
      simp [readDecimal, hd, hrun, hvalue, Nat.not_le.2 hn]
    | cons c rest =>
      obtain ⟨h1, h2, h3⟩ := hlast c rest rfl
      simp [readDecimal, hd, hrun, h1, h2, h3, hvalue, Nat.not_le.2 hn]

theorem readDecimal_real (h : Numeral digits) (hp : ∀ c ∈ places, c.isDigit = true)
    (hn : places ≠ []) (hr : Delimited rest) :
    readDecimal negative (digits ++ '.' :: (places ++ rest)) =
      readReal negative digits places 0 rest := by
  have hpoint : Ends ('.' :: (places ++ rest)) := by
    intro c hc
    cases hc
    decide
  have hwhole := readRun_digits h.digit hpoint
  have hplaces := readRun_digits hp hr.ends
  have hlast (c : Char) (more : Text) (he : rest = c :: more) : c ≠ 'e' ∧ c ≠ 'E' := by
    rcases hr c (he ▸ rfl) with rfl | rfl | rfl <;> decide
  rcases h.cases with rfl | ⟨d, more, rfl, hd⟩
  · cases rest with
    | nil =>
      rw [List.append_nil] at hplaces ⊢
      simp [readDecimal, hplaces, hn]
    | cons c rest =>
      obtain ⟨h1, h2⟩ := hlast c rest rfl
      simp [readDecimal, hplaces, hn, h1, h2]
  · rw [List.cons_append] at hwhole ⊢
    cases rest with
    | nil =>
      rw [List.append_nil] at hplaces hwhole ⊢
      simp [readDecimal, hd, hwhole, hplaces, hn]
    | cons c rest =>
      obtain ⟨h1, h2⟩ := hlast c rest rfl
      simp [readDecimal, hd, hwhole, hplaces, hn, h1, h2]

theorem readSigned_numeral (h : Numeral digits) (rest : Text) :
    readSigned negative (digits ++ rest) = readDecimal negative (digits ++ rest) := by
  obtain ⟨d, more, rfl⟩ := List.exists_cons_of_ne_nil h.nonempty
  have hd := h.digit d List.mem_cons_self
  have hi : d ≠ 'i' := by rintro rfl; cases hd
  have hn : d ≠ 'n' := by rintro rfl; cases hd
  simp [readSigned, hi, hn]

theorem readNumber_numeral (h : Numeral digits)
    (hr : ∀ c ∈ rest.head?, c ≠ 'x' ∧ c ≠ 'o' ∧ c ≠ 'b') :
    readNumber (digits ++ rest) = readDecimal false (digits ++ rest) := by
  rw [← readSigned_numeral h]
  rcases h.cases with rfl | ⟨d, more, rfl, hd⟩
  · cases rest with
    | nil => rfl
    | cons c rest =>
      obtain ⟨h1, h2, h3⟩ := hr c rfl
      simp [readNumber, h1, h2, h3]
  · have hdigit := h.digit d List.mem_cons_self
    have hplus : d ≠ '+' := by rintro rfl; cases hdigit
    have hminus : d ≠ '-' := by rintro rfl; cases hdigit
    simp [readNumber, hd, hplus, hminus]

end Numbers

section Reading

variable {rest : Text}

theorem readValue_number {c : Char} (hc : c.isDigit = true ∨ c = '-' ∨ c = 'i') (fuel depth : Nat)
    (hs : readStamp (c :: rest) = none) :
    readValue (fuel + 1) depth (c :: rest) = readNumber (c :: rest) := by
  have hne : c ≠ '"' ∧ c ≠ '\'' ∧ c ≠ '[' ∧ c ≠ '\x7b' ∧ c ≠ 't' ∧ c ≠ 'f' := by
    rcases hc with hc | rfl | rfl
    · refine ⟨?_, ?_, ?_, ?_, ?_, ?_⟩ <;> (rintro rfl; cases hc)
    · decide
    · decide
  obtain ⟨h1, h2, h3, h4, h5, h6⟩ := hne
  simp [readValue, h1, h2, h3, h4, h5, h6, hs]

theorem reads_of_readNumber {c : Char} {more : Text} {d : Datum}
    (hc : c.isDigit = true ∨ c = '-' ∨ c = 'i')
    (hs : ∀ rest, Delimited rest → readStamp (c :: more ++ rest) = none)
    (hn : ∀ rest, Delimited rest → readNumber (c :: more ++ rest) = some (d, rest)) :
    Reads (c :: more) d := by
  refine ⟨⟨c, rfl, ?_⟩, fun rest fuel hr _ => ?_⟩
  · rcases hc with hc | rfl | rfl
    · exact isGap_of_isDigit hc
    · rfl
    · rfl
  · rw [← hn rest hr]
    exact readValue_number hc fuel 0 (hs rest hr)

theorem reads_int {n : Nat} (hn : n < Number.half64) : Reads (toString n).toList (.whole n) := by
  have hnum := numeral_toDigits n
  have htext : (toString n).toList = Nat.toDigits 10 n := Nat.toList_repr
  have hvalue : Nat.ofDigitChars 10 (Nat.toDigits 10 n) 0 = n := Nat.ofDigitChars_ten_toDigits
  obtain ⟨d, more, hd⟩ := List.exists_cons_of_ne_nil hnum.nonempty
  rw [htext, hd]
  refine reads_of_readNumber (.inl (hnum.digit d (hd ▸ List.mem_cons_self))) ?_ ?_
  · intro rest hr
    rw [← hd]
    refine readStamp_digits hnum.digit fun c hc => ?_
    rcases hr c hc with rfl | rfl | rfl <;> decide
  · intro rest hr
    have hbase : ∀ c ∈ rest.head?, c ≠ 'x' ∧ c ≠ 'o' ∧ c ≠ 'b' := by
      intro c hc
      rcases hr c hc with rfl | rfl | rfl <;> decide
    rw [← hd, readNumber_numeral hnum hbase, readDecimal_int hnum hr (hvalue.symm ▸ hn), hvalue]

theorem readValue_stringText (s : String) (hr : Delimited rest) (fuel depth : Nat) :
    readValue (fuel + 1) depth ((stringText s).toList ++ rest) = some (.text s, rest) := by
  obtain ⟨mark, body, hm, ht, hread⟩ := readString_stringText s
  have hne : rest.head? ≠ some mark := by
    intro he
    rcases hm with rfl | rfl <;> rcases hr _ he with h | h | h <;> cases h
  rw [ht, List.cons_append]
  rcases hm with rfl | rfl <;> simp [readValue, hread rest hne]

theorem head?_stringText (s : String) :
    ∃ c ∈ (stringText s).toList.head?, c = '"' ∨ c = '\'' := by
  obtain ⟨mark, body, hm, ht, -⟩ := readString_stringText s
  exact ⟨mark, by rw [ht]; rfl, hm⟩

theorem reads_string (s : String) : Reads (stringText s).toList (.text s) := by
  obtain ⟨c, hc, hm⟩ := head?_stringText s
  refine ⟨⟨c, hc, ?_⟩, fun rest fuel hr _ => readValue_stringText s hr fuel 0⟩
  rcases hm with rfl | rfl <;> rfl

end Reading

section Lists

variable {rest : Text}

theorem skipLines_of_head {c : Char} (hg : isGap c = false) (hc : c ≠ '#') (hn : c ≠ '\n')
    (hr : c ≠ '\r') (fuel : Nat) : skipLines fuel (c :: rest) = c :: rest := by
  cases fuel with
  | zero => rfl
  | succ fuel => simp [skipLines, skipGap, hg, hc, lineBreak?, hn, hr]

theorem skipLines_stringText (s : String) (fuel : Nat) :
    skipLines fuel ((stringText s).toList ++ rest) = (stringText s).toList ++ rest := by
  obtain ⟨mark, body, hm, ht, -⟩ := readString_stringText s
  rw [ht, List.cons_append]
  rcases hm with rfl | rfl <;>
    exact skipLines_of_head rfl (by decide) (by decide) (by decide) fuel

def itemLines : List String → Text
  | [] => ['\n', ']']
  | s :: rest => '\n' :: ' ' :: ' ' :: ' ' :: ' ' :: (stringText s).toList ++ ',' :: itemLines rest

theorem delimited_comma (rest : Text) : Delimited (',' :: rest) := by
  rintro c hc
  cases hc
  exact .inr (.inl rfl)

theorem delimited_bracket (rest : Text) : Delimited (']' :: rest) := by
  rintro c hc
  cases hc
  exact .inr (.inr rfl)

theorem readItems_comma (s : String) {fuel depth : Nat} {text next left : Text}
    {items : List Datum}
    (ht : skipLines (text.length + 1) text = (stringText s).toList ++ ',' :: next)
    (hn : readItems (fuel + 1) depth next = some (items, left)) :
    readItems (fuel + 2) depth text = some (.text s :: items, left) := by
  obtain ⟨mark, body, hm, hs, -⟩ := readString_stringText s
  have hread := readValue_stringText s (delimited_comma next) fuel depth
  have hskip : skipLines (next.length + 1 + 1) (',' :: next) = ',' :: next :=
    skipLines_of_head rfl (by decide) (by decide) (by decide) _
  rw [hs, List.cons_append] at ht hread
  have hb : mark ≠ ']' := by rcases hm with rfl | rfl <;> decide
  rw [readItems, ht]
  simp [hb, hread, hskip, hn]

theorem readItems_last (s : String) {fuel depth : Nat} {text : Text}
    (ht : skipLines (text.length + 1) text = (stringText s).toList ++ ']' :: rest) :
    readItems (fuel + 2) depth text = some ([.text s], rest) := by
  obtain ⟨mark, body, hm, hs, -⟩ := readString_stringText s
  have hread := readValue_stringText s (delimited_bracket rest) fuel depth
  have hskip : skipLines (rest.length + 1 + 1) (']' :: rest) = ']' :: rest :=
    skipLines_of_head rfl (by decide) (by decide) (by decide) _
  rw [hs, List.cons_append] at ht hread
  have hb : mark ≠ ']' := by rcases hm with rfl | rfl <;> decide
  simp [readItems, ht, hb, hread, hskip]

theorem skipLines_indent (n : Nat) (text : Text) :
    skipLines (n + 2) ('\n' :: ' ' :: ' ' :: ' ' :: ' ' :: text) = skipLines (n + 1) text := rfl

theorem readItems_lines (items : List String) (rest : Text) {fuel : Nat}
    (hf : items.length + 1 < fuel) (depth : Nat) :
    readItems fuel depth (itemLines items ++ rest) = some (items.map .text, rest) := by
  induction items generalizing fuel with
  | nil =>
    obtain ⟨left, rfl⟩ : ∃ left, fuel = left + 1 := ⟨fuel - 1, by omega⟩
    simp [readItems, itemLines, skipLines, skipGap, isGap, lineBreak?]
  | cons s items ih =>
    obtain ⟨left, rfl⟩ : ∃ left, fuel = left + 2 := ⟨fuel - 2, by omega⟩
    have hnext := @ih (left + 1) (by rw [List.length_cons] at hf; omega)
    refine readItems_comma s ?_ hnext
    simp only [itemLines, List.cons_append, List.append_assoc, List.length_cons]
    rw [skipLines_indent, skipLines_stringText]

theorem itemTexts_strings (items : List String) :
    itemTexts (items.map .str) = some (items.map stringText) := by
  induction items with
  | nil => rfl
  | cons s items ih => simp [itemTexts, valueText, ih]

theorem itemLines_eq (items : List String) :
    itemLines items =
      '\n' :: (items.flatMap (fun s => ("    " ++ stringText s ++ ",\n").toList) ++ [']']) := by
  induction items with
  | nil => rfl
  | cons s items ih => simp [itemLines, ih]

theorem exists_valueText_strings (items : List String) : ∃ t, valueText (.arr (items.map .str)) =
    some t ∧ t.toList = '[' :: match items with
      | [] => [']']
      | [s] => (stringText s).toList ++ [']']
      | items => itemLines items := by
  unfold valueText
  rw [itemTexts_strings]
  match items with
  | [] => exact ⟨_, rfl, rfl⟩
  | [s] => exact ⟨_, rfl, by simp⟩
  | s :: s' :: items =>
    refine ⟨_, rfl, ?_⟩
    simp only [itemLines_eq, String.toList_append, String.toList_join, List.flatMap_map,
      List.map_cons, List.flatMap_cons]
    rfl

theorem reads_strings (items : List String) : ∃ t, valueText (.arr (items.map .str)) = some t ∧
    Reads t.toList (.list (items.map .text)) := by
  obtain ⟨t, hv, ht⟩ := exists_valueText_strings items
  refine ⟨t, hv, ⟨'[', by rw [ht]; rfl, rfl⟩, fun rest fuel hr hf => ?_⟩
  have hlist {inner : Text} {found : List Datum} (hi : t.toList = '[' :: inner)
      (h : readItems fuel 1 (inner ++ rest) = some (found, rest)) :
      readValue (fuel + 1) 0 (t.toList ++ rest) = some (.list found, rest) := by
    rw [hi, List.cons_append]
    simp [readValue, depthLimit, h]
  rw [ht] at hf
  match items with
  | [] =>
    refine hlist ht ?_
    obtain ⟨left, rfl⟩ : ∃ left, fuel = left + 1 := ⟨fuel - 1, by simp at hf; omega⟩
    simp [readItems, skipLines, skipGap, isGap, lineBreak?]
  | [s] =>
    refine hlist ht ?_
    obtain ⟨left, rfl⟩ : ∃ left, fuel = left + 2 := ⟨fuel - 2, by simp at hf; omega⟩
    rw [List.append_assoc]
    exact readItems_last s (skipLines_stringText s _)
  | s :: s' :: items =>
    refine hlist ht (readItems_lines _ rest ?_ 1)
    have hlength (items : List String) : items.length + 2 ≤ (itemLines items).length := by
      induction items with
      | nil => exact Nat.le_refl _
      | cons s items ih =>
        simp only [itemLines, List.length_cons, List.length_append]
        omega
    have hle := hlength (s :: s' :: items)
    simp only [List.length_cons] at hf hle ⊢
    omega

end Lists

end CatalogCrawl.Toml

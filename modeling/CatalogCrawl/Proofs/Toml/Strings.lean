import CatalogCrawl.Toml.Printer
import CatalogCrawl.Toml.Reader
import Mathlib.Data.String.Basic

namespace CatalogCrawl.Toml

inductive Spelling (mark : Char) (allowed : Nat) (lines : Bool) : Nat → Text → Text → Prop
  | nil (run : Nat) : Spelling mark allowed lines run [] []
  | mark {run : Nat} {content text : Text} (hr : run < allowed)
      (h : Spelling mark allowed lines (run + 1) content text) :
      Spelling mark allowed lines run (mark :: content) (mark :: text)
  | plain (run : Nat) {c : Char} {content text : Text} (hm : c ≠ mark) (hp : isPlain c = true)
      (hb : ¬(c = '\\' ∧ mark = '"')) (h : Spelling mark allowed lines 0 content text) :
      Spelling mark allowed lines run (c :: content) (c :: text)
  | newline (run : Nat) {content text : Text} (hl : lines = true)
      (h : Spelling mark allowed lines 0 content text) :
      Spelling mark allowed lines run ('\n' :: content) ('\n' :: text)
  | escape (run : Nat) {c : Char} (d : Char) (code : Text) {content text : Text} (hm : mark = '"')
      (hc : ∀ rest, readEscape (d :: code ++ rest) = some (c, rest)) 
      (hg : ∀ rest, continued? (d :: rest) = none)
      (h : Spelling mark allowed lines 0 content text) :
      Spelling mark allowed lines run (c :: content) ('\\' :: d :: code ++ text)

section Writing

variable {lines : Bool} {allowed run : Nat}

theorem isPlain_of_not_isControl {c : Char} (h : isControl c = false) (hn : c ≠ '\n') :
    isPlain c = true := by
  simp only [isControl, Bool.and_eq_false_iff, bne_eq_false_iff_eq, Bool.or_eq_false_iff,
    decide_eq_false_iff_not, beq_eq_false_iff_ne, hn, or_false] at h
  rcases h with rfl | ⟨hlow, hdel⟩
  · rfl
  · simp [isPlain, hdel, Nat.le_of_not_lt hlow]

theorem hexOf?_upperHex : ∀ n < 16, hexOf? (upperHex n) = some n := by
  decide

theorem readEscape_code {c : Char} (h : c.toNat < 256) (rest : Text) :
    readEscape ('u' :: '0' :: '0' :: upperHex (c.toNat / 16) :: upperHex (c.toNat % 16) :: rest) =
      some (c, rest) := by
  have hhigh := hexOf?_upperHex (c.toNat / 16) (by omega)
  have hlow := hexOf?_upperHex (c.toNat % 16) (Nat.mod_lt _ (by decide))
  have hzero : hexOf? '0' = some 0 := rfl
  have hsum : c.toNat / 16 * 16 + c.toNat % 16 = c.toNat := Nat.div_add_mod' _ _
  have hcode : c.toNat < 0xD800 := Nat.lt_trans h (by decide)
  simp [readEscape, readCode, hzero, hhigh, hlow, hsum, hcode]

theorem spelling_escape? {c : Char} {code content text : Text} (h : escape? lines c = some code)
    (ht : Spelling '"' allowed lines 0 content text) :
    Spelling '"' allowed lines run (c :: content) (code ++ text) := by
  unfold escape? at h
  split at h
  · rename_i hc
    cases h
    subst hc
    exact .escape run 't' [] rfl (fun _ => rfl) (fun _ => rfl) ht
  split at h
  · rename_i hc
    subst hc
    split at h
    · cases h
    · cases h
      exact .escape run 'n' [] rfl (fun _ => rfl) (fun _ => rfl) ht
  split at h
  · rename_i hc
    cases h
    subst hc
    exact .escape run 'r' [] rfl (fun _ => rfl) (fun _ => rfl) ht
  split at h
  · rename_i hc
    cases h
    subst hc
    exact .escape run '\\' [] rfl (fun _ => rfl) (fun _ => rfl) ht
  split at h
  · rename_i hc
    cases h
    obtain rfl : c = Char.ofNat 8 := hc ▸ (Char.ofNat_toNat c).symm
    exact .escape run 'b' [] rfl (fun _ => rfl) (fun _ => rfl) ht
  split at h
  · rename_i hc
    cases h
    obtain rfl : c = Char.ofNat 12 := hc ▸ (Char.ofNat_toNat c).symm
    exact .escape run 'f' [] rfl (fun _ => rfl) (fun _ => rfl) ht
  split at h
  · rename_i hc
    cases h
    have hn : c.toNat < 256 := by
      simp only [isControl, Bool.and_eq_true, Bool.or_eq_true, decide_eq_true_eq,
        beq_iff_eq] at hc
      omega
    exact .escape run 'u' ['0', '0', upperHex (c.toNat / 16), upperHex (c.toNat % 16)] rfl
      (readEscape_code hn) (fun _ => rfl) ht
  · cases h

theorem spelling_of_escape?_eq_none {c : Char} {content text : Text} (hq : c ≠ '"')
    (h : escape? lines c = none) (ht : Spelling '"' allowed lines 0 content text) :
    Spelling '"' allowed lines run (c :: content) (c :: text) := by
  unfold escape? at h
  split at h
  · cases h
  split at h
  · rename_i hc
    subst hc
    split at h
    · rename_i hl
      exact .newline run hl ht
    · cases h
  rename_i hn
  split at h
  · cases h
  split at h
  · cases h
  rename_i hb
  split at h
  · cases h
  split at h
  · cases h
  split at h
  · cases h
  rename_i hcontrol
  exact .plain run hq (isPlain_of_not_isControl (Bool.not_eq_true _ ▸ hcontrol) hn)
    (fun h => hb h.1) ht

theorem spelling_escaped (lines : Bool) (allowed run : Nat) (content : Text) :
    Spelling '"' allowed lines run content (escaped lines allowed run content) := by
  induction content generalizing run with
  | nil => exact .nil run
  | cons c rest ih =>
    by_cases hq : c = '"'
    · subst hq
      by_cases ha : allowed ≤ run
      · rw [escaped, if_pos rfl, if_pos ha]
        exact .escape run '"' [] rfl (fun _ => rfl) (fun _ => rfl) (ih 0)
      · rw [escaped, if_pos rfl, if_neg ha]
        exact .mark (Nat.lt_of_not_le ha) (ih (run + 1))
    · rw [escaped, if_neg hq]
      cases he : escape? lines c with
      | some code => exact spelling_escape? he (ih 0)
      | none => exact spelling_of_escape?_eq_none hq he (ih 0)

theorem le_longestRun (c : Char) (best run : Nat) (content : Text) :
    best ≤ longestRun c best run content := by
  induction content generalizing best run with
  | nil => exact Nat.le_refl _
  | cons d rest ih =>
    unfold longestRun
    split
    · exact Nat.le_trans (Nat.le_max_left _ _) (ih _ _)
    · exact ih _ _

theorem spelling_literal {best : Nat} {content : Text}
    (h : longestRun '\'' best run content ≤ allowed) (hc : ∀ c ∈ content, isControl c = false)
    (hl : lines = true ∨ '\n' ∉ content) : Spelling '\'' allowed lines run content content := by
  induction content generalizing best run with
  | nil => exact .nil run
  | cons c rest ih =>
    have hrest : ∀ c ∈ rest, isControl c = false := fun d hd => hc d (List.mem_cons_of_mem _ hd)
    have hlines : lines = true ∨ '\n' ∉ rest :=
      hl.imp_right fun hn hm => hn (List.mem_cons_of_mem _ hm)
    unfold longestRun at h
    split at h
    · rename_i hm
      subst hm
      have hr : run + 1 ≤ allowed :=
        Nat.le_trans (Nat.le_max_right _ _) (Nat.le_trans (le_longestRun _ _ _ _) h)
      exact .mark hr (ih h hrest hlines)
    · rename_i hm
      by_cases hn : c = '\n'
      · subst hn
        exact .newline run (hl.resolve_right fun hn => hn List.mem_cons_self) (ih h hrest hlines)
      · have hp := isPlain_of_not_isControl (hc c List.mem_cons_self) hn
        exact .plain run hm hp (fun hb => absurd hb.2 (by decide)) (ih h hrest hlines)

end Writing

section Reading

variable {mark : Char} {content text : Text} {run fuel : Nat}

theorem readLine_spelling (h : Spelling mark 0 false run content text)
    (hf : content.length < fuel) (rest : Text) :
    readLine mark fuel (text ++ mark :: rest) = some (content, rest) := by
  induction h generalizing fuel with
  | nil run =>
    cases fuel with
    | zero => cases hf
    | succ fuel => simp [readLine]
  | mark hr => cases hr
  | newline run hl => cases hl
  | @plain run c content text hm hp hb h ih =>
    cases fuel with
    | zero => cases hf
    | succ fuel =>
      have hrest := ih (Nat.lt_of_succ_lt_succ hf)
      simp [readLine, hm, hp, hb, hrest]
  | @escape run c d code content text hm hc hg h ih =>
    cases fuel with
    | zero => cases hf
    | succ fuel =>
      have hrest := ih (Nat.lt_of_succ_lt_succ hf)
      subst hm
      have hcode := hc (text ++ '"' :: rest)
      simp only [List.cons_append, List.append_assoc] at hcode ⊢
      simp [readLine, hcode, hrest]

theorem takeWhile_marks (mark : Char) (n : Nat) {rest : Text} (h : rest.head? ≠ some mark) :
    (List.replicate n mark ++ rest).takeWhile (· == mark) = List.replicate n mark := by
  have hrest : rest.takeWhile (· == mark) = [] := by
    cases rest with
    | nil => rfl
    | cons c rest =>
      have hc : c ≠ mark := fun he => h (he ▸ rfl)
      simp [hc]
  rw [List.takeWhile_append_of_pos (by simp), hrest, List.append_nil]

theorem readLines_marks (hr : run < 3) {c : Char} (hc : c ≠ mark) {n : Nat}
    {more rest : Text}
    (h : ∀ fuel, n < fuel → readLines mark fuel (c :: text) = some (more, rest))
    (hn : run + n < fuel) :
    readLines mark fuel (List.replicate run mark ++ c :: text) =
      some (List.replicate run mark ++ more, rest) := by
  cases run with
  | zero => exact h fuel (by omega)
  | succ run =>
    obtain ⟨left, rfl⟩ : ∃ left, fuel = left + 1 := ⟨fuel - 1, by omega⟩
    have hhead : (c :: text).head? ≠ some mark := by simpa using hc
    have htake := takeWhile_marks mark (run + 1) hhead
    have hrest := h left (by omega)
    rw [List.replicate_succ, List.cons_append] at htake ⊢
    have hdrop : (mark :: (List.replicate run mark ++ c :: text)).drop (run + 1) = c :: text := by
      simp
    simp only [readLines, beq_self_eq_true, if_true, htake, List.length_cons,
      List.length_replicate, hdrop, if_pos hr, hrest, Option.bind_eq_bind, Option.bind_some,
      List.replicate_succ]

theorem readLines_closing (hr : run < 3) {rest : Text} (h : rest.head? ≠ some mark) :
    readLines mark (fuel + 1) (List.replicate run mark ++ mark :: mark :: mark :: rest) =
      some (List.replicate run mark, rest) := by
  have htext : List.replicate run mark ++ mark :: mark :: mark :: rest =
      mark :: (List.replicate (run + 2) mark ++ rest) := by
    change List.replicate run mark ++ (List.replicate 3 mark ++ rest) =
      List.replicate (run + 3) mark ++ rest
    rw [← List.append_assoc, List.replicate_append_replicate]
  have htake := takeWhile_marks mark (run + 3) h
  rw [List.replicate_succ, List.cons_append] at htake
  have hdrop : (mark :: (List.replicate (run + 2) mark ++ rest)).drop (run + 3) = rest := by simp
  have hlow : ¬run + 3 < 3 := by omega
  have hhigh : run + 3 ≤ 5 := by omega
  rw [htext]
  simp only [readLines, beq_self_eq_true, if_true, htake, List.length_cons, List.length_replicate,
    hdrop, if_neg hlow, if_pos hhigh]
  rfl

theorem readLines_spelling (h : Spelling mark 2 true run content text) (hr : run < 3)
    (hmark : mark ≠ '\n' ∧ mark ≠ '\\') (hf : run + content.length < fuel) {rest : Text}
    (hrest : rest.head? ≠ some mark) :
    readLines mark fuel (List.replicate run mark ++ (text ++ mark :: mark :: mark :: rest)) =
      some (List.replicate run mark ++ content, rest) := by
  induction h generalizing fuel with
  | nil run =>
    cases fuel with
    | zero => cases hf
    | succ fuel => simpa using readLines_closing hr hrest
  | @mark run content text hlt h ih =>
    rw [List.length_cons] at hf
    have hnext := @ih fuel (by omega) (by omega)
    simpa [List.replicate_succ'] using hnext
  | @plain run c content text hm hp hb h ih =>
    have hline : lineBreak? (c :: (text ++ mark :: mark :: mark :: rest)) = none := by
      have hn : c ≠ '\n' := fun he => absurd (he ▸ hp) (by decide)
      have hr : c ≠ '\r' := fun he => absurd (he ▸ hp) (by decide)
      simp [lineBreak?, hn, hr]
    refine readLines_marks hr hm (fun fuel hn => ?_) hf
    cases fuel with
    | zero => cases hn
    | succ fuel =>
      have hnext := @ih fuel (by decide) (by simpa using hn)
      rw [List.replicate_zero, List.nil_append, List.nil_append] at hnext
      simp [readLines, hm, hb, hline, hp, hnext]
  | @newline run content text hl h ih =>
    refine readLines_marks hr hmark.1.symm (fun fuel hn => ?_) hf
    cases fuel with
    | zero => cases hn
    | succ fuel =>
      have hnext := @ih fuel (by decide) (by simpa using hn)
      rw [List.replicate_zero, List.nil_append, List.nil_append] at hnext
      simp [readLines, hmark.1.symm, lineBreak?, hnext]
  | @escape run c d code content text hm hc hg h ih =>
    refine readLines_marks hr hmark.2.symm (fun fuel hn => ?_) hf
    cases fuel with
    | zero => cases hn
    | succ fuel =>
      have hnext := @ih fuel (by decide) (by simpa using hn)
      rw [List.replicate_zero, List.nil_append, List.nil_append] at hnext
      subst hm
      have hcode := hc (text ++ '"' :: '"' :: '"' :: rest)
      rw [List.cons_append] at hcode
      simp [readLines, hg, hcode, hnext]

theorem Spelling.length_le {allowed : Nat} {lines : Bool}
    (h : Spelling mark allowed lines run content text) : content.length ≤ text.length := by
  induction h with
  | nil => exact Nat.le_refl _
  | mark _ _ ih => exact Nat.succ_le_succ ih
  | plain _ _ _ _ _ ih => exact Nat.succ_le_succ ih
  | newline _ _ _ ih => exact Nat.succ_le_succ ih
  | escape =>
    simp only [List.length_cons, List.length_append]
    omega

theorem lineBreak?_spelling {allowed : Nat} {lines : Bool}
    (h : Spelling mark allowed lines run content text) (hn : '\n' ∉ content)
    (hm : mark ≠ '\n' ∧ mark ≠ '\r') (rest : Text) :
    lineBreak? (text ++ mark :: rest) = none := by
  cases h with
  | nil => simp [lineBreak?, hm.1, hm.2]
  | mark => simp [lineBreak?, hm.1, hm.2]
  | newline => exact absurd List.mem_cons_self hn
  | @plain run c content text hne hp =>
    have hr : c ≠ '\r' := fun he => absurd (he ▸ hp) (by decide)
    have hl : c ≠ '\n' := fun he => hn (he ▸ List.mem_cons_self)
    simp [lineBreak?, hr, hl]
  | escape => simp [lineBreak?]

theorem readString_of_ne {c : Char} (hc : c ≠ mark) (rest : Text) :
    readString mark (c :: rest) = (readLine mark (rest.length + 2) (c :: rest)).map fun found =>
      (String.ofList found.1, found.2) := by
  have hb : (c == mark) = false := beq_false_of_ne hc
  cases rest with
  | nil =>
    simp only [readString]
    cases readLine mark 2 [c] <;> rfl
  | cons d rest =>
    simp only [readString, hb, Bool.false_and, Bool.false_eq_true, if_false]
    cases readLine mark ((c :: d :: rest).length + 1) (c :: d :: rest) <;> rfl

theorem readString_line (h : Spelling mark 0 false 0 content text) (hb : mark ≠ '\\') {rest : Text}
    (hrest : rest.head? ≠ some mark) :
    readString mark (text ++ mark :: rest) = some (String.ofList content, rest) := by
  have hlength : content.length < (text ++ mark :: rest).length + 1 := by
    have hle := h.length_le
    rw [List.length_append]
    omega
  have hline := readLine_spelling h hlength rest
  cases h with
  | nil =>
    cases rest with
    | nil => simp_all [readString]
    | cons c rest =>
      have hc : c ≠ mark := by simpa using hrest
      simp_all [readString]
  | mark hr => cases hr
  | newline _ hl => cases hl
  | plain _ hm =>
    rw [List.cons_append] at hline ⊢
    rw [readString_of_ne hm]
    exact congrArg _ hline
  | escape =>
    rw [List.append_assoc, List.cons_append] at hline ⊢
    rw [readString_of_ne hb.symm]
    exact congrArg _ hline

theorem readString_marks (mark : Char) (rest : Text) :
    readString mark (mark :: mark :: rest) =
      (readLines mark (rest.length + 1) ((lineBreak? rest).getD rest)).map fun found =>
        (String.ofList found.1, found.2) := by
  simp only [readString, beq_self_eq_true, Bool.and_self, if_true]
  cases readLines mark (rest.length + 1) ((lineBreak? rest).getD rest) <;> rfl

theorem readString_lines (h : Spelling mark 2 true 0 content text)
    (hmark : mark ≠ '\n' ∧ mark ≠ '\r' ∧ mark ≠ '\\') {rest : Text}
    (hrest : rest.head? ≠ some mark) :
    readString mark (mark :: mark :: ((if content.contains '\n' then ['\n'] else []) ++
        (text ++ mark :: mark :: mark :: rest))) =
      some (String.ofList content, rest) := by
  have hlength : content.length ≤ (text ++ mark :: mark :: mark :: rest).length := by
    have hle := h.length_le
    rw [List.length_append]
    omega
  have hlines (fuel : Nat) (hf : content.length < fuel) :
      readLines mark fuel (text ++ mark :: mark :: mark :: rest) = some (content, rest) :=
    readLines_spelling h (by decide) ⟨hmark.1, hmark.2.2⟩ (by rwa [Nat.zero_add]) hrest
  rw [readString_marks]
  split
  · rw [List.cons_append, List.nil_append, lineBreak?, Option.getD_some, List.length_cons,
      hlines _ (by omega), Option.map_some]
  · rename_i hn
    rw [List.nil_append, lineBreak?_spelling h (by simpa using hn) ⟨hmark.1, hmark.2.1⟩,
      Option.getD_none, hlines _ (by omega), Option.map_some]

end Reading

section Styles

def Style.quote : Style → Char
  | .basic | .basicLines => '"'
  | .literal | .literalLines => '\''

def Style.allowed (style : Style) : Nat := if style.isLines then 2 else 0

def Style.body (style : Style) (content : Text) : Text :=
  if style.hasEscapes then escaped style.isLines style.allowed 0 content else content

theorem toList_stringText (s : String) :
    (stringText s).toList =
      (Content.of s.toList).style.mark.toList ++
        ((if (Content.of s.toList).style.isLines && s.toList.contains '\n' then ['\n'] else []) ++
          ((Content.of s.toList).style.body s.toList ++
            (Content.of s.toList).style.mark.toList)) := by
  have hcontains : (Content.of s.toList).newline = s.toList.contains '\n' := rfl
  simp only [stringText, String.toList_append, String.toList_ofList, List.append_assoc,
    Style.body, Style.allowed, hcontains]
  congr 2
  split <;> rfl

theorem spelling_style (content : Text) :
    Spelling (Content.of content).style.quote (Content.of content).style.allowed
      (Content.of content).style.isLines 0 content ((Content.of content).style.body content) := by
  have hescaped (style : Style) (h : style.hasEscapes = true) (hq : style.quote = '"') :
      Spelling style.quote style.allowed style.isLines 0 content (style.body content) := by
    rw [Style.body, if_pos h, hq]
    exact spelling_escaped style.isLines style.allowed 0 content
  have hliteral (style : Style) (h : style.hasEscapes = false) (hq : style.quote = '\'')
      (hc : (Content.of content).control = false)
      (ha : (Content.of content).apostrophes ≤ style.allowed)
      (hl : style.isLines = true ∨ (Content.of content).newline = false) :
      Spelling style.quote style.allowed style.isLines 0 content (style.body content) := by
    rw [Style.body, if_neg (by simp [h]), hq]
    refine spelling_literal ha (fun c hm => ?_) (hl.imp_right fun hn => ?_)
    · exact Bool.eq_false_iff.2 (List.any_eq_false.1 hc c hm)
    · simpa [Content.of] using hn
  unfold Content.style
  split
  · exact hescaped .basic rfl rfl
  split
  · rename_i h
    simp only [Bool.and_eq_true, Bool.not_eq_true', decide_eq_true_eq] at h
    exact hliteral .literal rfl rfl h.1.1 (Nat.le_of_eq h.1.2) (.inr h.2)
  split
  · exact hescaped .basicLines rfl rfl
  split
  · rename_i h
    simp only [Bool.and_eq_true, Bool.not_eq_true', decide_eq_true_eq] at h
    exact hliteral .literalLines rfl rfl h.1 h.2 (.inl rfl)
  split
  · exact hescaped .basicLines rfl rfl
  · exact hescaped .basic rfl rfl

theorem readString_stringText (s : String) : ∃ mark body, (mark = '"' ∨ mark = '\'') ∧
    (stringText s).toList = mark :: body ∧
      ∀ rest : Text, rest.head? ≠ some mark → readString mark (body ++ rest) = some (s, rest) := by
  have hspell := spelling_style s.toList
  have htext := toList_stringText s
  generalize (Content.of s.toList).style = style at *
  have hquote : style.quote = '"' ∨ style.quote = '\'' := by cases style <;> simp [Style.quote]
  have hmark : style.quote ≠ '\n' ∧ style.quote ≠ '\r' ∧ style.quote ≠ '\\' := by
    cases style <;> decide
  cases hl : style.isLines with
  | false =>
    have hm : style.mark.toList = [style.quote] := by cases style <;> first | rfl | cases hl
    have ha : style.allowed = 0 := by rw [Style.allowed, hl]; rfl
    rw [hl, ha] at hspell
    rw [hl, hm, Bool.false_and, if_neg (by decide), List.nil_append] at htext
    refine ⟨style.quote, _, hquote, htext, fun rest hrest => ?_⟩
    have hread := readString_line hspell hmark.2.2 hrest
    rw [String.ofList_toList] at hread
    simpa using hread
  | true =>
    have hm : style.mark.toList = [style.quote, style.quote, style.quote] := by
      cases style <;> first | rfl | cases hl
    have ha : style.allowed = 2 := by rw [Style.allowed, hl]; rfl
    rw [hl, ha] at hspell
    rw [hl, hm, Bool.true_and] at htext
    refine ⟨style.quote, _, hquote, htext, fun rest hrest => ?_⟩
    have hread := readString_lines hspell hmark hrest
    rw [String.ofList_toList] at hread
    simpa using hread

end Styles

end CatalogCrawl.Toml

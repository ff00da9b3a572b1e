import CatalogCrawl.Proofs.Text.Numerals
import CatalogCrawl.Span.Units
import Mathlib.Tactic.Linarith
import Mathlib.Tactic.Ring

namespace CatalogCrawl.Span

open Number (word64)

def TimeUnit.size (u : TimeUnit) : Nat := u.nanos.getD (u.secs * nanosInSec)

section Sums

variable {s : Span}

theorem add?_eq (secs nanos : Nat) (hn : nanos < nanosInSec)
    (h : InRange ⟨s.nanos + (secs * nanosInSec + nanos)⟩) :
    s.add? secs nanos = some ⟨s.nanos + (secs * nanosInSec + nanos)⟩ := by
  simp only [InRange, Span.secs, secsLimit, nanosInSec, word64] at h hn
  have hs : s.subsec + nanos < word64 := by simp only [subsec, nanosInSec, word64]; omega
  have hc : secs + (s.subsec + nanos) / nanosInSec < word64 := by
    simp only [subsec, nanosInSec, word64]; omega
  have ht : s.secs + (secs + (s.subsec + nanos) / nanosInSec) < word64 := by
    simp only [Span.secs, subsec, nanosInSec, word64]; omega
  simp only [add?, inWord, if_pos hs, if_pos hc, if_pos ht, Option.bind_eq_bind, Option.bind_some,
    ofParts, Option.some.injEq, Span.mk.injEq]
  simp only [Span.secs, subsec, nanosInSec]
  omega

theorem addWhole?_eq {n : Nat} {u : TimeUnit} (hn : u.nanos.isSome → n * u.size < nanosInSec)
    (h : InRange ⟨s.nanos + n * u.size⟩) :
    s.addWhole? n u = some ⟨s.nanos + n * u.size⟩ := by
  cases hu : u.nanos with
  | some scale =>
    have hs : u.size = scale := by rw [TimeUnit.size, hu, Option.getD_some]
    rw [hu, hs] at hn
    have hlt : n * scale < nanosInSec := hn rfl
    have hw : n * scale < word64 := Nat.lt_trans hlt (by decide)
    have hr := add?_eq (s := s) 0 _ hlt (by simpa [hs] using h)
    simpa [addWhole?, hu, hs, inWord, hw] using hr
  | none =>
    have hs : n * u.size = n * u.secs * nanosInSec := by
      rw [TimeUnit.size, hu, Option.getD_none, Nat.mul_assoc]
    have hw : n * u.secs < word64 := by
      simp only [InRange, Span.secs, secsLimit, hs, nanosInSec] at h
      omega
    have hr := add?_eq (s := s) (n * u.secs) 0 (by decide) (by simpa [hs] using h)
    simpa [addWhole?, hu, hs, inWord, hw] using hr

end Sums

structure Piece where
  count : Nat
  unit : TimeUnit
  letters : List Char

namespace Piece

def text (p : Piece) : List Char := Nat.toDigits 10 p.count ++ p.letters

structure Legible (p : Piece) : Prop where
  inWord : p.count < word64
  nonempty : p.letters ≠ []
  spelled : ∀ c ∈ p.letters, isUnitLetter c = true
  named : TimeUnit.ofName? (String.ofList p.letters) = some p.unit

def size (p : Piece) : Nat := p.count * p.unit.size

def Carriesless (p : Piece) : Prop := p.unit.nanos.isSome → p.size < nanosInSec

end Piece

def sum (pieces : List Piece) : Nat := (pieces.map Piece.size).sum

def addPieces? (total : Span) (pieces : List Piece) : Option Span :=
  pieces.foldlM (fun total p => total.addWhole? p.count p.unit) total

theorem addPieces?_eq {pieces : List Piece} {total : Span} (hp : ∀ p ∈ pieces, p.Carriesless)
    (h : InRange ⟨total.nanos + sum pieces⟩) :
    addPieces? total pieces = some ⟨total.nanos + sum pieces⟩ := by
  induction pieces generalizing total with
  | nil => rfl
  | cons p rest ih =>
    have hsum : total.nanos + sum (p :: rest) = total.nanos + p.size + sum rest := by
      rw [sum, List.map_cons, List.sum_cons, ← Nat.add_assoc]
      rfl
    rw [hsum] at h
    have hle : InRange ⟨total.nanos + p.size⟩ :=
      Nat.lt_of_le_of_lt (Nat.div_le_div_right (Nat.le_add_right _ _)) h
    have hfirst : total.addWhole? p.count p.unit = some ⟨total.nanos + p.size⟩ :=
      addWhole?_eq (hp p List.mem_cons_self) hle
    have hrest := @ih ⟨total.nanos + p.size⟩
      (fun q hq => hp q (List.mem_cons_of_mem _ hq)) h
    rw [addPieces?, List.foldlM_cons, hfirst, hsum]
    exact hrest

section Reading

variable {p : Piece} {fuel : Nat} {total : Span}

theorem digitOf?_of_isDigit {c : Char} (h : c.isDigit = true) :
    digitOf? c = some (c.toNat - '0'.toNat) := by
  rw [digitOf?, if_pos h]
  rfl

theorem toNat_of_isUnitLetter {c : Char} (h : isUnitLetter c = true) :
    65 ≤ c.toNat ∧ c.toNat ≤ 122 ∨ c.toNat = 181 := by
  have hc : (decide (65 ≤ c.val ∧ c.val ≤ 90) || decide (97 ≤ c.val) && decide (c.val ≤ 122) ||
      c == 'µ') = true := h
  simp only [Bool.or_eq_true, Bool.and_eq_true, decide_eq_true_eq, beq_iff_eq,
    UInt32.le_iff_toNat_le] at hc
  rcases hc with hc | rfl
  · change (65 ≤ c.toNat ∧ c.toNat ≤ 90) ∨ 97 ≤ c.toNat ∧ c.toNat ≤ 122 at hc
    omega
  · exact .inr rfl

theorem digitOf?_of_isUnitLetter {c : Char} (h : isUnitLetter c = true) : digitOf? c = none := by
  refine if_neg fun hd => ?_
  have hl := toNat_of_isUnitLetter h
  have hr := Text.toNat_of_isDigit hd
  omega

theorem isBlank_eq_false {c : Char} (h : c.isDigit = true ∨ isUnitLetter c = true) :
    Text.isBlank c = false := by
  have hn : 48 ≤ c.toNat ∧ c.toNat ≤ 122 ∨ c.toNat = 181 := by
    rcases h with h | h
    · have := Text.toNat_of_isDigit h
      omega
    · have := toNat_of_isUnitLetter h
      omega
  simp only [Text.isBlank, Bool.or_eq_false_iff, Bool.and_eq_false_iff, decide_eq_false_iff_not,
    beq_eq_false_iff_ne]
  omega

theorem readCount_digits {digits : List Char} (rest : List Char) {n : Nat} {c : Char}
    (hd : ∀ d ∈ digits, d.isDigit = true) (hc : isUnitLetter c = true)
    (hn : Nat.ofDigitChars 10 digits n < word64) :
    readCount n (digits ++ c :: rest) =
      some (⟨Nat.ofDigitChars 10 digits n, none⟩, c :: rest) := by
  induction digits generalizing n with
  | nil =>
    simp [readCount, digitOf?_of_isUnitLetter hc, isBlank_eq_false (.inr hc), hc]
  | cons d digits ih =>
    rw [Nat.ofDigitChars_cons] at hn ⊢
    have hw : n * 10 + (d.toNat - '0'.toNat) < word64 := by
      rw [Nat.mul_comm]
      exact Nat.lt_of_le_of_lt (Text.le_ofDigitChars _ _) hn
    have hrest := ih (fun x hx => hd x (List.mem_cons_of_mem _ hx)) hn
    rw [List.cons_append, readCount, digitOf?_of_isDigit (hd d List.mem_cons_self)]
    simp only [inWord, if_pos hw, Option.bind_eq_bind, Option.bind_some]
    rw [Nat.mul_comm n 10]
    exact hrest

theorem readUnit_letters {letters rest : List Char} (hl : ∀ c ∈ letters, isUnitLetter c = true) :
    readUnit (letters ++ ' ' :: rest) = some (letters, rest) := by
  induction letters with
  | nil => rfl
  | cons c letters ih =>
    have hrest := ih fun x hx => hl x (List.mem_cons_of_mem _ hx)
    simp [readUnit, hl c List.mem_cons_self, hrest]

theorem readUnit_last {letters : List Char} (hl : ∀ c ∈ letters, isUnitLetter c = true) :
    readUnit letters = some (letters, []) := by
  induction letters with
  | nil => rfl
  | cons c letters ih =>
    have hrest := ih fun x hx => hl x (List.mem_cons_of_mem _ hx)
    simp [readUnit, hl c List.mem_cons_self, hrest]

theorem readCounts_piece (fuel : Nat) (total : Span) {rest next : List Char} (hp : p.Legible)
    (hr : rest = [] ∧ next = [] ∨ rest = ' ' :: next) :
    readCounts (fuel + 1) total (p.text ++ rest) =
      (total.addWhole? p.count p.unit).bind fun t => readCounts fuel t next := by
  obtain ⟨d, digits, hd⟩ : ∃ d digits, Nat.toDigits 10 p.count = d :: digits :=
    List.exists_cons_of_ne_nil Nat.toDigits_ne_nil
  obtain ⟨c, letters, hc⟩ := List.exists_cons_of_ne_nil hp.nonempty
  have digit (x : Char) (hx : x ∈ d :: digits) : x.isDigit = true :=
    Text.isDigit_of_mem_toDigits (hd ▸ hx)
  have hcount : Nat.ofDigitChars 10 digits (d.toNat - '0'.toNat) = p.count := by
    have h : Nat.ofDigitChars 10 (d :: digits) 0 = p.count := hd ▸ Nat.ofDigitChars_ten_toDigits
    rwa [Nat.ofDigitChars_cons, Nat.mul_zero, Nat.zero_add] at h
  have hread := readCount_digits (letters ++ rest)
    (fun x hx => digit x (List.mem_cons_of_mem _ hx)) (hp.spelled c (hc ▸ List.mem_cons_self))
    (hcount.symm ▸ hp.inWord)
  have hunit : readUnit (p.letters ++ rest) = some (p.letters, next) := by
    rcases hr with ⟨rfl, rfl⟩ | rfl
    · rw [List.append_nil]
      exact readUnit_last hp.spelled
    · exact readUnit_letters hp.spelled
  have hblank : Text.isBlank d = false := isBlank_eq_false (.inl (digit d List.mem_cons_self))
  have htext : p.text ++ rest = d :: (digits ++ c :: (letters ++ rest)) := by
    rw [Piece.text, hd, hc]
    simp
  rw [hcount] at hread
  rw [hc, List.cons_append] at hunit
  rw [htext, readCounts, List.dropWhile_cons_of_neg (by simp [hblank])]
  simp only [digitOf?_of_isDigit (digit d List.mem_cons_self), hread, hunit, ← hc, hp.named,
    Option.bind_eq_bind, Option.bind_some]
  simp only [addCount?]
  cases total.addWhole? p.count p.unit <;> rfl

theorem readCounts_pieces {pieces : List Piece} (hp : ∀ p ∈ pieces, p.Legible)
    (hf : pieces.length < fuel) :
    readCounts fuel total ([' '].intercalate (pieces.map Piece.text)) =
      addPieces? total pieces := by
  induction pieces generalizing fuel total with
  | nil =>
    cases fuel with
    | zero => cases hf
    | succ fuel => rfl
  | cons p rest ih =>
    cases fuel with
    | zero => cases hf
    | succ fuel =>
      have hrest (t : Span) := @ih fuel t (fun q hq => hp q (List.mem_cons_of_mem _ hq))
        (Nat.lt_of_succ_lt_succ hf)
      have hstep : readCounts (fuel + 1) total ([' '].intercalate ((p :: rest).map Piece.text)) =
          (total.addWhole? p.count p.unit).bind fun t =>
            readCounts fuel t ([' '].intercalate (rest.map Piece.text)) := by
        cases rest with
        | nil =>
          have h := readCounts_piece fuel total
            (hp p List.mem_cons_self) (.inl ⟨rfl, rfl⟩)
          simpa using h
        | cons q rest =>
          have h := readCounts_piece fuel total (hp p List.mem_cons_self)
            (.inr (rfl : ' ' :: [' '].intercalate ((q :: rest).map Piece.text) = _))
          simpa [List.intercalate_cons_cons] using h
      rw [hstep, addPieces?, List.foldlM_cons]
      exact congrArg _ (funext hrest)

end Reading

section Writing

variable {s : Span}

def Piece.ofWord (count : Nat) (unit : TimeUnit) (word : String) (plural : Bool) : Piece :=
  ⟨count, unit, (word ++ (if plural && count > 1 then "s" else "")).toList⟩

def wording (year month day hour minute second milli micro nano : Nat) : List Piece :=
  [.ofWord year .year "year" true, .ofWord month .month "month" true, .ofWord day .day "day" true,
    .ofWord hour .hour "h" false, .ofWord minute .minute "m" false,
    .ofWord second .second "s" false, .ofWord milli .millisecond "ms" false,
    .ofWord micro .microsecond "us" false, .ofWord nano .nanosecond "ns" false]

def amounts (s : Span) : List Piece :=
  let inYear := s.secs % 31557600
  let inMonth := inYear % 2630016
  let inDay := inMonth % 86400
  wording (s.secs / 31557600) (inYear / 2630016) (inMonth / 86400) (inDay / 3600)
    (inDay % 3600 / 60) (inDay % 60) (s.subsec / 1000000) (s.subsec / 1000 % 1000)
    (s.subsec % 1000)

def pieces (s : Span) : List Piece := s.amounts.filter (0 < ·.count)

theorem item_eq (count : Nat) (unit : TimeUnit) (word : String) (plural : Bool) :
    (item count word plural).map String.toList =
      ([Piece.ofWord count unit word plural].filter (0 < ·.count)).map Piece.text := by
  by_cases h : count = 0
  · simp [item, Piece.ofWord, h]
  · simp [item, Piece.ofWord, Piece.text, h, Nat.pos_of_ne_zero h]

theorem items_eq (s : Span) : s.items.map String.toList = s.pieces.map Piece.text := by
  simp only [items, pieces, amounts, wording, List.map_append, item_eq _ .year "year",
    item_eq _ .month "month", item_eq _ .day "day", item_eq _ .hour "h", item_eq _ .minute "m",
    item_eq _ .second "s", item_eq _ .millisecond "ms", item_eq _ .microsecond "us",
    item_eq _ .nanosecond "ns"]
  simp only [← List.map_append, ← List.filter_append, List.cons_append, List.nil_append]

theorem sum_filter (pieces : List Piece) : sum (pieces.filter (0 < ·.count)) = sum pieces := by
  induction pieces with
  | nil => rfl
  | cons p rest ih =>
    by_cases h : p.count = 0
    · simpa [sum, h, Piece.size] using ih
    · simpa [sum, Nat.pos_of_ne_zero h, Piece.size] using ih

theorem secs_eq (n : Nat) :
    n / 31557600 * 31557600 + n % 31557600 / 2630016 * 2630016 +
      n % 31557600 % 2630016 / 86400 * 86400 + n % 31557600 % 2630016 % 86400 / 3600 * 3600 +
      n % 31557600 % 2630016 % 86400 % 3600 / 60 * 60 +
      n % 31557600 % 2630016 % 86400 % 60 = n := by
  have year := Nat.div_add_mod' n 31557600
  have month := Nat.div_add_mod' (n % 31557600) 2630016
  have day := Nat.div_add_mod' (n % 31557600 % 2630016) 86400
  have hour := Nat.div_add_mod' (n % 31557600 % 2630016 % 86400) 3600
  have minute := Nat.div_add_mod' (n % 31557600 % 2630016 % 86400 % 3600) 60
  rw [Nat.mod_mod_of_dvd (n % 31557600 % 2630016 % 86400) (by decide : 60 ∣ 3600)] at minute
  linarith only [year, month, day, hour, minute]

theorem sum_cons (p : Piece) (rest : List Piece) : sum (p :: rest) = p.size + sum rest := by
  rw [sum, List.map_cons, List.sum_cons, sum]

theorem size_ofWord (count : Nat) (u : TimeUnit) (word : String) (plural : Bool) :
    (Piece.ofWord count u word plural).size = count * u.size := by
  rw [Piece.size, Piece.ofWord]

theorem sum_wording (year month day hour minute second milli micro nano : Nat) :
    sum (wording year month day hour minute second milli micro nano) =
      (year * 31557600 + month * 2630016 + day * 86400 + hour * 3600 + minute * 60 + second) *
        nanosInSec + (milli * 1000000 + micro * 1000 + nano) := by
  have hyear : TimeUnit.year.size = 31557600 * nanosInSec := rfl
  have hmonth : TimeUnit.month.size = 2630016 * nanosInSec := rfl
  have hday : TimeUnit.day.size = 86400 * nanosInSec := rfl
  have hhour : TimeUnit.hour.size = 3600 * nanosInSec := rfl
  have hminute : TimeUnit.minute.size = 60 * nanosInSec := rfl
  have hsecond : TimeUnit.second.size = 1 * nanosInSec := rfl
  have hmilli : TimeUnit.millisecond.size = 1000000 := rfl
  have hmicro : TimeUnit.microsecond.size = 1000 := rfl
  have hnano : TimeUnit.nanosecond.size = 1 := rfl
  have hnil : sum [] = 0 := rfl
  rw [wording]
  simp only [sum_cons, size_ofWord, hnil, hyear, hmonth, hday, hhour, hminute, hsecond, hmilli,
    hmicro, hnano]
  ring

theorem sum_pieces (s : Span) : sum s.pieces = s.nanos := by
  have hsub : s.subsec / 1000000 * 1000000 + s.subsec / 1000 % 1000 * 1000 + s.subsec % 1000 =
      s.subsec := by
    omega
  rw [pieces, sum_filter, amounts, sum_wording, secs_eq, hsub]
  exact Nat.div_add_mod' _ _

def TimeUnit.Named (u : TimeUnit) (word : String) : Prop :=
  word.toList ≠ [] ∧ word.toList.all isUnitLetter = true ∧ ofName? word = some u

instance (u : TimeUnit) (word : String) : Decidable (u.Named word) :=
  inferInstanceAs (Decidable (_ ∧ _ ∧ _))

theorem legible_ofWord {count : Nat} {u : TimeUnit} {word : String} {plural : Bool}
    (hc : count < word64) (hw : u.Named word) (hp : plural = true → u.Named (word ++ "s")) :
    (Piece.ofWord count u word plural).Legible := by
  have hn : u.Named (word ++ (if plural && count > 1 then "s" else "")) := by
    split
    · rename_i h
      exact hp (Bool.and_eq_true_iff.1 h).1
    · rwa [String.append_empty]
  obtain ⟨nonempty, spelled, named⟩ := hn
  exact ⟨hc, nonempty, List.all_eq_true.1 spelled, by rwa [Piece.ofWord, String.ofList_toList]⟩

theorem legible_of_mem_pieces (h : s.InRange) : ∀ p ∈ s.pieces, p.Legible := by
  have hall : ∀ p ∈ s.amounts, p.Legible := by
    simp only [InRange, secsLimit] at h
    have hs : s.subsec < word64 := Nat.lt_trans (Nat.mod_lt _ (by decide)) (by decide)
    simp only [amounts, wording, List.forall_mem_cons, List.not_mem_nil, false_implies,
      implies_true, and_true]
    refine ⟨legible_ofWord ?_ (by decide) (by decide), legible_ofWord ?_ (by decide) (by decide),
      legible_ofWord ?_ (by decide) (by decide), legible_ofWord ?_ (by decide) (by decide),
      legible_ofWord ?_ (by decide) (by decide), legible_ofWord ?_ (by decide) (by decide),
      legible_ofWord ?_ (by decide) (by decide), legible_ofWord ?_ (by decide) (by decide),
      legible_ofWord ?_ (by decide) (by decide)⟩ <;> omega
  exact fun p hp => hall p (List.mem_of_mem_filter hp)

theorem carriesless_of_mem_pieces (s : Span) : ∀ p ∈ s.pieces, p.Carriesless := by
  have hall : ∀ p ∈ s.amounts, p.Carriesless := by
    simp only [amounts, wording, List.forall_mem_cons, List.not_mem_nil, false_implies,
      implies_true, and_true, true_and, Piece.Carriesless, Piece.ofWord, Piece.size, TimeUnit.size,
      TimeUnit.nanos, Option.isSome_none, Option.isSome_some, Option.getD_some, Bool.false_eq_true,
      true_implies, subsec, nanosInSec]
    omega
  exact fun p hp => hall p (List.mem_of_mem_filter hp)

end Writing

theorem toList_render {s : Span} (h : s.nanos ≠ 0) :
    s.render.toList = [' '].intercalate (s.pieces.map Piece.text) := by
  rw [render, if_neg h, String.toList_intercalate, items_eq]
  rfl

theorem pieces_ne_nil {s : Span} (h : s.nanos ≠ 0) : s.pieces ≠ [] := by
  intro hn
  have hsum := sum_pieces s
  rw [hn] at hsum
  exact h hsum.symm

theorem Piece.Legible.length_text {p : Piece} (h : p.Legible) : 1 < p.text.length := by
  have hd := List.length_pos_of_ne_nil (Nat.toDigits_ne_nil (n := p.count) (b := 10))
  have hl := List.length_pos_of_ne_nil h.nonempty
  rw [Piece.text, List.length_append]
  omega

theorem length_lt_intercalate {pieces : List Piece} (hn : pieces ≠ [])
    (hp : ∀ p ∈ pieces, p.Legible) :
    pieces.length < ([' '].intercalate (pieces.map Piece.text)).length := by
  obtain ⟨p, rest, rfl⟩ := List.exists_cons_of_ne_nil hn
  have hfirst := (hp p List.mem_cons_self).length_text
  have hjoined := Text.length_intercalate ' ' ((p :: rest).map Piece.text)
  have hsum : p.text.length ≤ ((((p :: rest).map Piece.text).map List.length)).sum := by
    simp only [List.map_cons, List.sum_cons]
    exact Nat.le_add_right _ _
  rw [List.length_map] at hjoined
  omega

theorem parse?_render {s : Span} (h : s.InRange) : parse? s.render = some s := by
  by_cases h0 : s.nanos = 0
  · obtain ⟨nanos⟩ := s
    subst h0
    decide
  · have htext := toList_render h0
    have hlegible := legible_of_mem_pieces h
    have hlength := length_lt_intercalate (pieces_ne_nil h0) hlegible
    rw [← htext, String.length_toList] at hlength
    have hzero : s.render ≠ "0" := by
      intro he
      have hpieces := List.length_pos_of_ne_nil (pieces_ne_nil h0)
      have hone : s.render.length = 1 := he ▸ rfl
      omega
    have hblank : s.render.toList.all Text.isBlank = false := by
      obtain ⟨p, rest, hp⟩ := List.exists_cons_of_ne_nil (pieces_ne_nil h0)
      obtain ⟨d, digits, hd⟩ := List.exists_cons_of_ne_nil
        (Nat.toDigits_ne_nil (n := p.count) (b := 10))
      have hdigit : d.isDigit = true :=
        Text.isDigit_of_mem_toDigits (hd ▸ List.mem_cons_self)
      have hstart : ∃ tail, s.render.toList = d :: tail := by
        rw [htext, hp, List.map_cons, Piece.text, hd]
        cases rest <;> simp
      obtain ⟨tail, ht⟩ := hstart
      rw [ht, List.all_cons, isBlank_eq_false (.inl hdigit), Bool.false_and]
    have htotal : zero.nanos + sum s.pieces = s.nanos := by
      rw [sum_pieces]
      exact Nat.zero_add _
    rw [parse?, if_neg hzero, if_neg (by simp [hblank]), htext,
      readCounts_pieces hlegible (Nat.lt_succ_of_lt hlength),
      addPieces?_eq (carriesless_of_mem_pieces s) (by rwa [htotal]), htotal]

end CatalogCrawl.Span

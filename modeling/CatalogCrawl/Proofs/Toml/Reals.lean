import CatalogCrawl.Proofs.Number.Shortest
import CatalogCrawl.Proofs.Toml.Values

namespace CatalogCrawl.Toml

open Number (shape Decimal)

variable {x : Float} {rest : Text}

section Positional

structure Places (text whole places : Text) (v : ℚ) : Prop where
  text : text = whole ++ '.' :: places
  numeral : Numeral whole
  digit : ∀ c ∈ places, c.isDigit = true
  nonempty : places ≠ []
  value : (Nat.ofDigitChars 10 (whole ++ places) 0 : ℚ) / 10 ^ places.length = v

theorem isDigit_of_mem_zeros {n : ℕ} {c : Char} (h : c ∈ List.replicate n '0') :
    c.isDigit = true := by
  rw [(List.mem_replicate.1 h).2]
  rfl

variable {digits : Text} {n p : ℕ}

theorem places_before (h : Numeral digits) (hv : Nat.ofDigitChars 10 digits 0 = n) (k : ℕ) :
    Places ('0' :: '.' :: (List.replicate k '0' ++ digits)) ['0'] (List.replicate k '0' ++ digits)
      (n * 10 ^ (-(k + digits.length : ℕ) : ℤ)) where
  text := rfl
  numeral := ⟨by simp, by simp, .inl rfl⟩
  digit c hc := (List.mem_append.1 hc).elim isDigit_of_mem_zeros (h.digit c)
  nonempty := by simp [h.nonempty]
  value := by
    have hzero : Nat.ofDigitChars 10 ['0'] 0 = 0 := rfl
    rw [Nat.ofDigitChars_append, hzero, Nat.ofDigitChars_append, Nat.ofDigitChars_replicate_zero,
      mul_zero, hv, zpow_neg, zpow_natCast, List.length_append, List.length_replicate,
      div_eq_mul_inv]

theorem places_after (h : Numeral digits) (hh : digits.head? ≠ some '0')
    (hv : Nat.ofDigitChars 10 digits 0 = n) (k : ℕ) :
    Places (digits ++ List.replicate k '0' ++ ['.', '0']) (digits ++ List.replicate k '0') ['0']
      (n * 10 ^ (k : ℤ)) where
  text := by simp
  numeral :=
    { digit := fun c hc => (List.mem_append.1 hc).elim (h.digit c) isDigit_of_mem_zeros
      nonempty := by simp [h.nonempty]
      leading := .inr (by rwa [List.head?_append_of_ne_nil _ h.nonempty]) }
  digit := by simp
  nonempty := by simp
  value := by
    have hlast (n : ℕ) : Nat.ofDigitChars 10 ['0'] n = 10 * n := rfl
    rw [Nat.ofDigitChars_append, hlast, Nat.ofDigitChars_append, Nat.ofDigitChars_replicate_zero,
      hv, zpow_natCast]
    push_cast
    simp
    ring

theorem places_within (h : Numeral digits) (hh : digits.head? ≠ some '0')
    (hv : Nat.ofDigitChars 10 digits 0 = n) (h0 : 0 < p) (hp : p < digits.length) :
    Places (digits.take p ++ '.' :: digits.drop p) (digits.take p) (digits.drop p)
      (n * 10 ^ (-(digits.length - p : ℕ) : ℤ)) where
  text := rfl
  numeral :=
    { digit := fun c hc => h.digit c (List.mem_of_mem_take hc)
      nonempty := by simp [h.nonempty, h0.ne']
      leading := .inr (by rwa [List.head?_take, if_neg h0.ne']) }
  digit c hc := h.digit c (List.mem_of_mem_drop hc)
  nonempty := by simp [hp]
  value := by
    rw [List.take_append_drop, hv, List.length_drop, zpow_neg, zpow_natCast, div_eq_mul_inv]

theorem exists_places (d : Decimal) (hd : 0 < d.digits) :
    ∃ whole places, Places d.positional.toList whole places (d.digits * 10 ^ d.exponent) := by
  have hnumeral := numeral_toDigits d.digits
  have hvalue : Nat.ofDigitChars 10 (Nat.toDigits 10 d.digits) 0 = d.digits :=
    Nat.ofDigitChars_ten_toDigits
  have hhead := Text.head?_toDigits hd
  unfold Decimal.positional
  generalize Nat.toDigits 10 d.digits = digits at *
  have hlen : 0 < digits.length := List.length_pos_of_ne_nil hnumeral.nonempty
  simp only
  split
  · obtain ⟨k, hk⟩ : ∃ k : ℕ, -((digits.length : ℤ) + d.exponent) = k :=
      ⟨_, (Int.toNat_of_nonneg (by omega)).symm⟩
    have hexp : d.exponent = -((k + digits.length : ℕ) : ℤ) := by omega
    rw [hk, Int.toNat_natCast, hexp]
    exact ⟨_, _, by simpa using places_before hnumeral hvalue k⟩
  · obtain ⟨p, hpoint⟩ : ∃ p : ℕ, (digits.length : ℤ) + d.exponent = p :=
      ⟨_, (Int.toNat_of_nonneg (by omega)).symm⟩
    rw [hpoint, Int.toNat_natCast]
    split
    · have hexp : d.exponent = (p - digits.length : ℕ) := by omega
      rw [hexp]
      exact ⟨_, _, by simpa using places_after hnumeral hhead hvalue (p - digits.length)⟩
    · have hexp : d.exponent = -((digits.length - p : ℕ) : ℤ) := by omega
      have hp := @places_within digits _ p hnumeral hhead hvalue (by omega) (by omega)
      rw [hexp]
      exact ⟨_, _, by simpa using hp⟩

end Positional

section Reading

variable {text : Text} {negative : Bool}

theorem readReal_eq {whole places : Text} (hw : ∀ c ∈ whole ++ places, c.isDigit = true)
    (hx : Number.ofDecimal negative (Nat.ofDigitChars 10 (whole ++ places) 0)
      (-(places.length : ℤ)) = x) (hf : (x == 1.0 / 0.0) = false) (rest : Text) :
    readReal negative whole places 0 rest = some (.real x, rest) := by
  unfold readReal
  rw [value_digits hw, zero_sub, hx]
  simp only [hf]
  rfl

theorem reads_places {whole places : Text} (hw : Numeral whole)
    (hp : ∀ c ∈ places, c.isDigit = true) (hne : places ≠ [])
    (hx : Number.ofDecimal negative (Nat.ofDigitChars 10 (whole ++ places) 0)
      (-(places.length : ℤ)) = x) (hf : (x == 1.0 / 0.0) = false) :
    Reads ((if negative then ['-'] else []) ++ (whole ++ '.' :: places)) (.real x) := by
  have hdigits : ∀ c ∈ whole ++ places, c.isDigit = true := fun c hc =>
    (List.mem_append.1 hc).elim (hw.digit c) (hp c)
  have hread (rest : Text) (hr : Delimited rest) :
      readDecimal negative (whole ++ '.' :: (places ++ rest)) = some (.real x, rest) :=
    (readDecimal_real hw hp hne hr).trans (readReal_eq hdigits hx hf rest)
  have htext (rest : Text) : whole ++ '.' :: places ++ rest = whole ++ '.' :: (places ++ rest) := by
    simp
  cases negative with
  | true =>
    rw [if_pos rfl, List.singleton_append]
    refine reads_of_readNumber (.inr (.inl rfl)) (fun rest _ => readStamp_of_head rfl _) ?_
    intro rest hr
    have hsigned : readNumber ('-' :: (whole ++ '.' :: (places ++ rest))) =
        readSigned true (whole ++ '.' :: (places ++ rest)) := rfl
    rw [List.cons_append, htext, hsigned, readSigned_numeral hw]
    exact hread rest hr
  | false =>
    obtain ⟨c, more, hc⟩ := List.exists_cons_of_ne_nil hw.nonempty
    have hstart : c.isDigit = true := hw.digit c (hc ▸ List.mem_cons_self)
    have hall : c :: (more ++ '.' :: places) = whole ++ '.' :: places := by
      rw [hc, List.cons_append]
    rw [if_neg Bool.false_ne_true, List.nil_append, ← hall]
    refine reads_of_readNumber (.inl hstart) (fun rest _ => ?_) fun rest hr => ?_
    · rw [hall, htext]
      refine readStamp_digits hw.digit fun c hc => ?_
      cases hc
      decide
    · rw [hall, htext, readNumber_numeral hw]
      · exact hread rest hr
      · intro c hc
        cases hc
        decide

theorem reads_infinity : Reads "inf".toList (.real (1.0 / 0.0)) :=
  reads_of_readNumber (.inr (.inr rfl)) (fun _ _ => readStamp_of_head rfl _) fun _ _ => rfl

theorem reads_negInfinity : Reads "-inf".toList (.real (-1.0 / 0.0)) :=
  reads_of_readNumber (.inr (.inl rfl)) (fun _ _ => readStamp_of_head rfl _) fun _ _ => rfl

theorem reads_finite {d : Number.Dyadic} (h : shape x = .finite d) :
    Reads d.positional.toList (.real x) := by
  have hf := Double.beq_infinity h
  have hsign : (if d.negative then "-" else "").toList = if d.negative then ['-'] else [] := by
    cases d.negative <;> rfl
  rw [Number.Dyadic.positional, String.toList_append, hsign]
  rcases Nat.eq_zero_or_pos d.mantissa with hz | hd
  · have hzero : Numeral ['0'] := ⟨by simp, by simp, .inl rfl⟩
    rw [if_pos hz]
    refine reads_places hzero hzero.digit hzero.nonempty ?_ hf
    rw [Double.eq_zero_of_shape h hz]
    cases d.negative <;> rfl
  · have hc := Double.canonical_of_shape h
    have hwithin := Number.within_shortest hd hc
    have hpos : (0 : ℚ) < d.shortest.digits * 10 ^ d.shortest.exponent :=
      lt_of_lt_of_le (by positivity) (hwithin.lower hd hc)
    have hdigits : 0 < d.shortest.digits := by
      have hq : (0 : ℚ) < d.shortest.digits := pos_of_mul_pos_left hpos (by positivity)
      exact_mod_cast hq
    obtain ⟨whole, places, hp⟩ := exists_places d.shortest hdigits
    have hplaces : 0 < places.length := List.length_pos_of_ne_nil hp.nonempty
    have hn : 0 < Nat.ofDigitChars 10 (whole ++ places) 0 := by
      rw [← hp.value] at hpos
      exact_mod_cast (div_pos_iff_of_pos_right (by positivity)).1 hpos
    rw [← hp.value] at hwithin
    rw [if_neg hd.ne', hp.text]
    exact reads_places hp.numeral hp.digit hp.nonempty
      (Double.ofDecimal_of_within h hd hn hplaces hwithin) hf

theorem reads_real (h : shape x ≠ .nan) : Reads (realText x).toList (.real x) := by
  unfold realText
  cases hs : shape x with
  | nan => exact absurd hs h
  | infinite negative =>
    cases negative with
    | true =>
      rw [Double.eq_of_shape (hs.trans Double.shape_negInfinity.symm) h]
      exact reads_negInfinity
    | false =>
      rw [Double.eq_of_shape (hs.trans Double.shape_infinity.symm) h]
      exact reads_infinity
  | finite d => exact reads_finite hs

end Reading

end CatalogCrawl.Toml

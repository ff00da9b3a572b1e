import CatalogCrawl.Number.Shortest
import CatalogCrawl.Proofs.Number.Decimal

namespace CatalogCrawl.Number

open Double (Canonical Within reach)

variable {d : Dyadic} {r : Rounding} {num den count : ℕ} {unit top : ℤ}

section Grids

theorem inUnits_eq (num : ℕ) (hden : 0 < den) (unit : ℤ) : 0 < (inUnits num den unit).2 ∧
    ((inUnits num den unit).1 : ℚ) / (inUnits num den unit).2 = num / den / 10 ^ unit := by
  unfold inUnits
  split
  · rename_i u
    refine ⟨Nat.mul_pos hden (Nat.pow_pos (by norm_num)), ?_⟩
    simp only [Nat.pow_eq, Int.ofNat_eq_natCast, zpow_natCast]
    push_cast
    rw [div_div]
  · rename_i u
    refine ⟨hden, ?_⟩
    simp only [Nat.pow_eq, zpow_negSucc]
    push_cast
    rw [div_inv_eq_mul, mul_div_right_comm]

theorem inUnits_le (num count : ℕ) (hden : 0 < den) (unit : ℤ) :
    (inUnits num den unit).1 ≤ count * (inUnits num den unit).2 ↔
      (num : ℚ) / den ≤ count * 10 ^ unit := by
  obtain ⟨hpos, heq⟩ := inUnits_eq num hden unit
  have hpos' : (0 : ℚ) < (inUnits num den unit).2 := by exact_mod_cast hpos
  rw [← div_le_iff₀ (by positivity), ← heq, div_le_iff₀ hpos']
  norm_cast

theorem le_inUnits (num count : ℕ) (hden : 0 < den) (unit : ℤ) :
    count * (inUnits num den unit).2 ≤ (inUnits num den unit).1 ↔
      (count : ℚ) * 10 ^ unit ≤ num / den := by
  obtain ⟨hpos, heq⟩ := inUnits_eq num hden unit
  have hpos' : (0 : ℚ) < (inUnits num den unit).2 := by exact_mod_cast hpos
  rw [← le_div_iff₀ (by positivity), ← heq, le_div_iff₀ hpos']
  norm_cast

theorem inUnits_snd (num num' den : ℕ) (unit : ℤ) :
    (inUnits num den unit).2 = (inUnits num' den unit).2 := by
  unfold inUnits
  split <;> rfl

theorem pow_digitCount_le {n : ℕ} (hn : 0 < n) : 10 ^ (digitCount n - 1) ≤ n := by
  have hpos : 0 < digitCount n := Nat.length_toDigits_pos
  rcases Nat.eq_zero_or_pos (digitCount n - 1) with h | h
  · rw [h]
    exact hn
  · by_contra! hlt
    have hle : digitCount n ≤ digitCount n - 1 :=
      (Nat.length_toDigits_le_iff (by norm_num) h).2 hlt
    omega

theorem magnitude_le (hnum : 0 < num) (hden : 0 < den) :
    (10 : ℚ) ^ (magnitude num den - 1) ≤ num / den := by
  have hnum' : (0 : ℚ) < num := by exact_mod_cast hnum
  have hden' : (0 : ℚ) < den := by exact_mod_cast hden
  unfold magnitude
  split
  · rename_i h
    have hcount : 0 < digitCount (num / den) := Nat.length_toDigits_pos
    have hle := pow_digitCount_le (Nat.div_pos h hden)
    have hexp : (digitCount (num / den) : ℤ) - 1 = (digitCount (num / den) - 1 : ℕ) := by omega
    rw [hexp, zpow_natCast, le_div_iff₀ hden']
    exact_mod_cast (Nat.mul_le_mul_right den hle).trans (Nat.div_mul_le_self num den)
  · have hcount : 0 < digitCount (den / num) := Nat.length_toDigits_pos
    simp only
    split
    · rename_i h
      rw [Nat.pow_eq] at h
      have hexp : 2 - (digitCount (den / num) : ℤ) - 1 = -(digitCount (den / num) - 1 : ℕ) := by
        omega
      generalize digitCount (den / num) - 1 = k at h hexp
      rw [hexp, zpow_neg, zpow_natCast, h]
      push_cast
      rw [div_mul_cancel_left₀ hnum'.ne']
    · have hlt : den / num < 10 ^ digitCount (den / num) := Text.lt_pow_length_toDigits _
      have hexp : 1 - (digitCount (den / num) : ℤ) - 1 = -(digitCount (den / num) : ℤ) := by omega
      generalize digitCount (den / num) = k at hlt hexp
      rw [hexp, zpow_neg, zpow_natCast, inv_le_iff_one_le_mul₀ (by positivity), div_mul_eq_mul_div,
        one_le_div hden']
      have := (Nat.div_lt_iff_lt_mul hnum).1 hlt
      rw [mul_comm]
      exact_mod_cast this.le

end Grids

section Intervals

structure Rounding.Describes (r : Rounding) (m : ℕ) (e : ℤ) : Prop where
  den : 0 < r.den
  low : (r.low : ℚ) / r.den = (m - reach m e) * 2 ^ e
  value : (r.value : ℚ) / r.den = m * 2 ^ e
  high : (r.high : ℚ) / r.den = (m + 1 / 2) * 2 ^ e
  closed : r.closed = true ↔ m % 2 = 0

theorem Rounding.Describes.holds_iff {m : ℕ} {e : ℤ} (h : r.Describes m e) :
    r.holds count unit = true ↔ Within m e (count * 10 ^ unit) := by
  have hsnd := inUnits_snd r.high r.low r.den unit
  have hlow := inUnits_le r.low count h.den unit
  have hhigh := le_inUnits r.high count h.den unit
  have hlow' := not_congr (le_inUnits r.low count h.den unit)
  have hhigh' := not_congr (inUnits_le r.high count h.den unit)
  rw [not_le, not_le] at hlow' hhigh'
  rw [hsnd] at hhigh hhigh'
  rw [h.low] at hlow hlow'
  rw [h.high] at hhigh hhigh'
  unfold holds
  simp only
  split
  · rename_i hc
    have heven := h.closed.1 hc
    rw [decide_eq_true_eq, hlow, hhigh]
    exact ⟨fun hw => ⟨hw.1, hw.2, fun ho => by omega⟩, fun hw => ⟨hw.low, hw.high⟩⟩
  · rename_i hc
    have hodd : m % 2 = 1 := by
      have := mt h.closed.2 hc
      omega
    rw [decide_eq_true_eq, hlow', hhigh']
    exact ⟨fun hw => ⟨hw.1.le, hw.2.le, fun _ => hw⟩, fun hw => hw.inner hodd⟩

theorem exists_quotient (d : Dyadic) : ∃ unit : ℕ, d.quotient.1 = d.mantissa * unit ∧
    (unit : ℚ) / d.quotient.2 = 2 ^ d.exponent := by
  unfold Dyadic.quotient
  split
  · rename_i k hk
    refine ⟨2 ^ k, rfl, ?_⟩
    rw [hk]
    simp
  · rename_i k hk
    refine ⟨1, (mul_one _).symm, ?_⟩
    rw [hk, zpow_negSucc]
    simp

def quarters (d : Dyadic) : ℕ := if d.mantissa = fractionSize && d.exponent ≠ -1074 then 1 else 2

theorem quarters_le (d : Dyadic) : quarters d ≤ 2 := by
  unfold quarters
  split <;> decide

theorem quarters_eq (d : Dyadic) : (quarters d : ℚ) = 4 * reach d.mantissa d.exponent := by
  have hiff : (decide (d.mantissa = fractionSize) && decide (d.exponent ≠ -1074)) = true ↔
      d.mantissa = 2 ^ 52 ∧ d.exponent ≠ -1074 := by
    rw [Bool.and_eq_true, decide_eq_true_eq, decide_eq_true_eq]
    rfl
  rw [quarters, reach]
  by_cases h : d.mantissa = 2 ^ 52 ∧ d.exponent ≠ -1074
  · rw [if_pos (hiff.2 h), if_pos h]
    norm_num
  · rw [if_neg (mt hiff.1 h), if_neg h]
    norm_num

theorem describes_rounding (hm : 0 < d.mantissa) : d.rounding.Describes d.mantissa d.exponent := by
  obtain ⟨unit, hnum, hunit⟩ := exists_quotient d
  have hden := d.quotient_pos
  have hden' : (0 : ℚ) < d.quotient.2 := by exact_mod_cast hden
  have hdiv : d.quotient.1 / d.mantissa = unit := by rw [hnum, Nat.mul_div_cancel_left unit hm]
  have hsub : quarters d * unit ≤ 4 * (d.mantissa * unit) := by
    have hle : unit ≤ d.mantissa * unit := Nat.le_mul_of_pos_left unit hm
    calc quarters d * unit ≤ 2 * unit := Nat.mul_le_mul_right _ (quarters_le d)
      _ ≤ 4 * (d.mantissa * unit) := by omega
  have hrounding : d.rounding = ⟨4 * (d.mantissa * unit) - quarters d * unit,
      4 * (d.mantissa * unit), 4 * (d.mantissa * unit) + 2 * unit, 4 * d.quotient.2,
      decide (d.mantissa % 2 = 0)⟩ := by
    rw [← hnum, ← hdiv]
    rfl
  rw [hrounding]
  generalize d.quotient.2 = den at *
  refine ⟨by simpa using hden, ?_, ?_, ?_, decide_eq_true_iff⟩
  · rw [Nat.cast_sub hsub, ← hunit]
    push_cast
    rw [quarters_eq]
    field_simp
  · rw [← hunit]
    push_cast
    field_simp
  · rw [← hunit]
    push_cast
    field_simp
    ring

end Intervals

section Search

variable {m : ℕ} {e : ℤ}

theorem within_of_near {q : ℚ} (h : |q - m * 2 ^ e| < reach m e * 2 ^ e) : Within m e q := by
  have hreach : reach m e * 2 ^ e ≤ 1 / 2 * 2 ^ e :=
    mul_le_mul_of_nonneg_right (Double.reach_le m e) (by positivity)
  obtain ⟨hlo, hhi⟩ := abs_lt.1 h
  have hlow : (m - reach m e) * 2 ^ e < q := by rw [sub_mul]; linarith
  have hhigh : q < (m + 1 / 2) * 2 ^ e := by rw [add_mul]; linarith
  exact ⟨hlow.le, hhigh.le, fun _ => ⟨hlow, hhigh⟩⟩

theorem Rounding.Describes.onGrid? (h : r.Describes m e) (hs : r.onGrid? unit = some count) :
    Within m e (count * 10 ^ unit) := by
  unfold Rounding.onGrid? at hs
  simp only at hs
  split at hs
  · rename_i h1 h2
    split at hs <;> cases hs
    · exact h.holds_iff.1 h1
    · exact h.holds_iff.1 h2
  · rename_i h1 h2
    cases hs
    exact h.holds_iff.1 h1
  · rename_i h1 h2
    cases hs
    exact h.holds_iff.1 h2
  · cases hs

theorem exists_near {y : ℚ} {n : ℕ} (hlo : (n : ℚ) ≤ y) (hhi : y < n + 1) :
    ∃ c, (c = n ∨ c = n + 1) ∧ |(c : ℚ) - y| ≤ 1 / 2 := by
  rcases le_total (y - n) (1 / 2) with h | h
  · refine ⟨n, .inl rfl, ?_⟩
    rw [abs_sub_comm, abs_of_nonneg (by linarith)]
    exact h
  · refine ⟨n + 1, .inr rfl, ?_⟩
    push_cast
    rw [abs_of_nonneg (by linarith)]
    linarith

theorem within_of_near_grid {c : ℕ} (hnear : |(c : ℚ) - m * 2 ^ e / 10 ^ unit| ≤ 1 / 2)
    (hfine : 10 ^ unit / 2 < reach m e * 2 ^ e) : Within m e (c * 10 ^ unit) := by
  have hunit : (0 : ℚ) < 10 ^ unit := by positivity
  have hscale : (c : ℚ) * 10 ^ unit - m * 2 ^ e = (c - m * 2 ^ e / 10 ^ unit) * 10 ^ unit := by
    field_simp
  refine within_of_near (lt_of_le_of_lt ?_ hfine)
  rw [hscale, abs_mul, abs_of_pos hunit]
  calc |(c : ℚ) - m * 2 ^ e / 10 ^ unit| * 10 ^ unit ≤ 1 / 2 * 10 ^ unit := by gcongr
    _ = 10 ^ unit / 2 := by ring

theorem Rounding.isSome_onGrid?_of_holds {n c : ℕ}
    (hn : (inUnits r.value r.den unit).1 / (inUnits r.value r.den unit).2 = n)
    (hc : c = n ∨ c = n + 1) (h : r.holds c unit = true) : (r.onGrid? unit).isSome := by
  unfold Rounding.onGrid?
  simp only [hn]
  rcases hc with rfl | rfl
  · rw [h]
    cases r.holds (c + 1) unit with
    | false => rfl
    | true =>
      simp only
      split <;> rfl
  · rw [h]
    cases r.holds n unit with
    | false => rfl
    | true =>
      simp only
      split <;> rfl

theorem Rounding.Describes.isSome_onGrid? (h : r.Describes m e)
    (hfine : 10 ^ unit / 2 < reach m e * 2 ^ e) : (r.onGrid? unit).isSome := by
  obtain ⟨hpos, heq⟩ := inUnits_eq r.value h.den unit
  rw [h.value] at heq
  have hpos' : (0 : ℚ) < (inUnits r.value r.den unit).2 := by exact_mod_cast hpos
  obtain ⟨n, hn⟩ : ∃ n, (inUnits r.value r.den unit).1 / (inUnits r.value r.den unit).2 = n :=
    ⟨_, rfl⟩
  have hlo : (n : ℚ) ≤ m * 2 ^ e / 10 ^ unit := by
    rw [← heq, le_div_iff₀ hpos']
    exact_mod_cast hn ▸ Nat.div_mul_le_self _ _
  have hhi : (m : ℚ) * 2 ^ e / 10 ^ unit < n + 1 := by
    rw [← heq, div_lt_iff₀ hpos']
    exact_mod_cast (Nat.div_lt_iff_lt_mul hpos).1 (Nat.lt_succ_of_le hn.le)
  obtain ⟨c, hc, hnear⟩ := exists_near hlo hhi
  exact isSome_onGrid?_of_holds hn hc (h.holds_iff.2 (within_of_near_grid hnear hfine))

theorem Rounding.Describes.search (h : r.Describes m e) {last : ℕ}
    (hlast : (r.onGrid? (top - last)).isSome) (fuel places : ℕ) (hp : places ≤ last)
    (hf : last < places + fuel) : Within m e
      ((r.search top fuel places).digits * 10 ^ (r.search top fuel places).exponent) := by
  induction fuel generalizing places with
  | zero => omega
  | succ fuel ih =>
    unfold Rounding.search
    cases hs : r.onGrid? (top - places) with
    | some count => exact h.onGrid? hs
    | none =>
      have hne : places ≠ last := by
        rintro rfl
        rw [hs] at hlast
        cases hlast
      exact ih (places + 1) (by omega) (by omega)

theorem Decimal.trim_eq (fuel : ℕ) (d : Decimal) :
    ((d.trim fuel).digits : ℚ) * 10 ^ (d.trim fuel).exponent = d.digits * 10 ^ d.exponent := by
  induction fuel generalizing d with
  | zero => rfl
  | succ fuel ih =>
    unfold Decimal.trim
    split
    · rename_i h
      have hdigits : (d.digits : ℚ) = (d.digits / 10 : ℕ) * 10 := by
        exact_mod_cast (Nat.div_mul_cancel (Nat.dvd_of_mod_eq_zero h.2)).symm
      rw [ih, hdigits, zpow_add_one₀ (by norm_num)]
      ring
    · rfl

theorem lt_reach (hc : Canonical m e) (htop : (10 : ℚ) ^ (top - 1) ≤ m * 2 ^ e) :
    (10 : ℚ) ^ (top - 17) / 2 < reach m e * 2 ^ e := by
  have hten : (10 : ℚ) ^ (top - 17) = 10 ^ (top - 1) / 10 ^ 16 := by
    rw [show top - 17 = top - 1 - 16 by ring, zpow_sub₀ (by norm_num)]
    norm_num
  have hreach : (m : ℚ) / (2 * 10 ^ 16) < reach m e := by
    unfold reach
    split
    · rename_i h
      rw [h.1]
      norm_num
    · have hm : (m : ℚ) < 2 ^ 53 := by exact_mod_cast hc.lt
      rw [div_lt_iff₀ (by norm_num)]
      exact hm.trans_le (by norm_num)
  calc (10 : ℚ) ^ (top - 17) / 2 ≤ m * 2 ^ e / 10 ^ 16 / 2 := by
        rw [hten]
        gcongr
    _ = m / (2 * 10 ^ 16) * 2 ^ e := by ring
    _ < reach m e * 2 ^ e := by gcongr

theorem within_shortest (hm : 0 < d.mantissa) (hc : Canonical d.mantissa d.exponent) :
    Within d.mantissa d.exponent (d.shortest.digits * 10 ^ d.shortest.exponent) := by
  have hd := describes_rounding hm
  have hvalue : 0 < d.rounding.value := by
    have hq : (0 : ℚ) < d.rounding.value / d.rounding.den := by
      have : (0 : ℚ) < d.mantissa := by exact_mod_cast hm
      rw [hd.value]
      positivity
    have hden : (0 : ℚ) < d.rounding.den := by exact_mod_cast hd.den
    exact_mod_cast (div_pos_iff_of_pos_right hden).1 hq
  have htop := magnitude_le hvalue hd.den
  rw [hd.value] at htop
  have hlast := hd.isSome_onGrid? (lt_reach hc htop)
  have hsearch := @Rounding.Describes.search _ _ _ _ hd 17 hlast 17 1 (by norm_num) (by norm_num)
  unfold Dyadic.shortest
  simp only [if_neg hm.ne', Decimal.trim_eq]
  exact hsearch

end Search

end CatalogCrawl.Number

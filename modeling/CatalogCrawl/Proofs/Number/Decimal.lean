import CatalogCrawl.Proofs.Number.Bits
import CatalogCrawl.Proofs.Number.Nearest
import CatalogCrawl.Proofs.Text.Numerals

namespace CatalogCrawl.Double

open Float.Model UnpackedFloat
open Number (shape)

variable {x : Float} {d : Number.Dyadic} {u : UnpackedFloat} {v : ℚ} {k n : ℕ}

section Powers

theorem powers_eq : ∀ k : Fin Float.exactlyRepresentablePowersOfTen.size,
    Float.exactlyRepresentablePowersOfTen[k].toModel = .pack (.finite .positive
      (5 ^ k.val * 2 ^ (52 - (5 ^ k.val).log2)) (k.val + (5 ^ k.val).log2 - 52)
      (by positivity)) := by
  decide +kernel

theorem log2_powers : ∀ k < Float.exactlyRepresentablePowersOfTen.size, (5 ^ k).log2 ≤ 52 := by
  decide +kernel

theorem is_powerOfTen (hk : k < Float.exactlyRepresentablePowersOfTen.size) :
    Is Float.exactlyRepresentablePowersOfTen[k] (10 ^ k) := by
  have hsize : k < 23 := hk
  have hlog5 := log2_powers k hk
  obtain ⟨l, hl⟩ : ∃ l : ℕ, (5 ^ k).log2 + l = 52 := ⟨52 - (5 ^ k).log2, by omega⟩
  have hpow : 0 < 5 ^ k := by positivity
  have hm : 0 < 5 ^ k * 2 ^ l := by positivity
  have hlog : (5 ^ k * 2 ^ l).log2 = 52 := (log2_mul_two_pow hpow l).trans hl
  obtain ⟨hlo, hhi⟩ := (Nat.log2_eq_iff hm.ne').1 hlog
  have hc : Canonical (5 ^ k * 2 ^ l) (k - l) := ⟨hhi, by omega, .inl hlo⟩
  have hv : (10 : ℚ) ^ k = (5 ^ k * 2 ^ l : ℕ) * 2 ^ (k - l : ℤ) := by
    rw [zpow_sub₀ two_ne_zero, zpow_natCast, zpow_natCast]
    push_cast
    field_simp
    rw [← mul_pow]
    norm_num
  have hsub : 52 - (5 ^ k).log2 = l := by omega
  have hexp : (k : ℤ) + ((5 ^ k).log2 : ℕ) - 52 = k - l := by omega
  have heq := powers_eq ⟨k, hk⟩
  simp only [hsub, hexp, Fin.getElem_fin] at heq
  rw [Is, heq, unpack_pack_of_normal .positive hm hlo hc (by omega), hv]
  exact .finite hm hc

end Powers

section Quotients

theorem Holds.exists_finite (h : Holds u v) (hv : 0 < v) : ∃ (m : ℕ) (e : ℤ) (hm : 0 < m),
    u = .finite .positive m e hm ∧ v = m * 2 ^ e := by
  cases h with
  | zero => exact absurd hv (lt_irrefl 0)
  | @finite m e hm _ => exact ⟨m, e, hm, rfl, rfl⟩

theorem not_mul_le {n k : ℕ} {b c : ℚ} (hlow : (2 : ℚ) ^ (-1076 : ℤ) ≤ n / 10 ^ k) (hb : 0 < b)
    (hn : n < b) (hc : 2 ^ 1076 ≤ c) : ¬ b * c ≤ 10 ^ k := by
  intro hten
  have hpos : (0 : ℚ) < c := lt_of_lt_of_le (by positivity) hc
  have hsmall : (n : ℚ) / 10 ^ k < b / (b * c) :=
    div_lt_div₀ hn hten (by positivity) (by positivity)
  have hinv : c⁻¹ ≤ (2 : ℚ) ^ (-1076 : ℤ) := by
    rw [zpow_neg, zpow_ofNat]
    exact inv_anti₀ (by positivity) hc
  rw [div_mul_cancel_left₀ hb.ne'] at hsmall
  exact absurd (hlow.trans_lt (hsmall.trans_le hinv)) (lt_irrefl _)

theorem exponent_le {n k : ℕ} (hlow : (2 : ℚ) ^ (-1076 : ℤ) ≤ n / 10 ^ k) : k ≤ 2048 + n.log2 := by
  by_contra! h
  have hn : (n : ℚ) < 2 ^ (n.log2 + 1) := by exact_mod_cast Nat.lt_log2_self
  have hc : (2 : ℚ) ^ 1076 ≤ 2 ^ 2048 := pow_le_pow_right₀ one_le_two (by norm_num)
  refine not_mul_le hlow (by positivity) hn hc ?_
  rw [← pow_add]
  calc (2 : ℚ) ^ (n.log2 + 1 + 2048) ≤ 2 ^ k := pow_le_pow_right₀ one_le_two (by omega)
    _ ≤ 10 ^ k := pow_le_pow_left₀ (by norm_num) (by norm_num) k

theorem exists_ofScientific {n k : ℕ} (hn : 0 < n) (hk : 0 < k)
    (hlow : (2 : ℚ) ^ (-1076 : ℤ) ≤ n / 10 ^ k) : ∃ (u : UnpackedFloat) (m : ℕ) (t : ℤ) (y : ℚ),
      Float.ofScientific n true k = .ofModel (.pack u) ∧ Holds u (m * 2 ^ t) ∧ Nearest m t y ∧
      y * 2 ^ t = n / 10 ^ k := by
  unfold Float.ofScientific
  split
  · rename_i h
    have hx := is_natCast h.1.le
    have hy := is_powerOfTen (Nat.lt_succ_of_le h.2)
    have hn' : (0 : ℚ) < n := by exact_mod_cast hn
    obtain ⟨m, e, hm, hu, hv⟩ := hx.exists_finite hn'
    obtain ⟨l, f, hl, hz, hw⟩ := hy.exists_finite (by positivity)
    obtain ⟨a, t, y, ha, hnear, hval⟩ := exists_nearest_div hm hl e f
    refine ⟨_, a, t, y, ?_, ha, hnear, ?_⟩
    · rw [← hu, ← hz]
      rfl
    · rw [hval, ← hv, ← hw]
  · have hten : 0 < 10 ^ k := by positivity
    obtain ⟨a, t, y, ha, hnear, hval⟩ := exists_nearest_div hn hten 0 0
    refine ⟨_, a, t, y, ?_, ha, hnear, ?_⟩
    · have he : Int.negOfNat k = -(k : ℤ) := by cases k <;> rfl
      have hlim := exponent_le hlow
      change Float.ofModel (.pack (UnpackedFloat.ofScientific .binary64 n (Int.negOfNat k))) = _
      rw [UnpackedFloat.ofScientific, he, dif_neg hn.ne', if_neg, if_neg, if_neg]
      · simp only [neg_neg, Int.toNat_natCast]
      · omega
      · have h2 : (2 : ℤ) ^ Format.binary64.exponentBits = 2048 := by decide
        omega
      · have h2 : (2 : ℤ) ^ Format.binary64.exponentBits = 2048 := by decide
        omega
    · rw [hval]
      push_cast
      simp

end Quotients

section Reading

variable {m k n : ℕ} {e : ℤ}

theorem Holds.eq_finite (hm : 0 < m) (hc : Canonical m e) (h : Holds u (m * 2 ^ e)) :
    u = .finite .positive m e hm := by
  have hv : (0 : ℚ) < m * 2 ^ e := by
    have : (0 : ℚ) < m := by exact_mod_cast hm
    positivity
  generalize hw : (m : ℚ) * 2 ^ e = w at h
  cases h with
  | zero s => exact absurd (hw ▸ hv) (lt_irrefl 0)
  | @finite l f hl hl' =>
    rcases lt_trichotomy e f with h | rfl | h
    · exact absurd hw (lt_of_exponent_lt hc hl' h).ne
    · have hlm : (m : ℚ) = l := mul_right_cancel₀ (by positivity) hw
      obtain rfl : m = l := by exact_mod_cast hlm
      rfl
    · exact absurd hw (lt_of_exponent_lt hl' hc h).ne'

theorem Within.lower (hm : 0 < m) (hc : Canonical m e) {q : ℚ} (hw : Within m e q) :
    (2 : ℚ) ^ (-1076 : ℤ) ≤ q := by
  have hm' : (1 : ℚ) ≤ m := by exact_mod_cast hm
  have hreach := reach_le m e
  have he : (2 : ℚ) ^ (-1074 : ℤ) ≤ 2 ^ e := zpow_le_zpow_right₀ one_le_two hc.ge
  calc (2 : ℚ) ^ (-1076 : ℤ) = 1 / 4 * 2 ^ (-1074 : ℤ) := by
        rw [show (-1076 : ℤ) = -2 + -1074 by norm_num, zpow_add₀ two_ne_zero]
        norm_num
    _ ≤ (m - reach m e) * 2 ^ e := by
        refine mul_le_mul (by linarith) he (by positivity) (by linarith)
    _ ≤ q := hw.low

theorem size_ge {n k : ℕ} (hlow : (2 : ℚ) ^ (-1076 : ℤ) ≤ n / 10 ^ k) :
    ¬ (-(k : ℤ) + ((Nat.toDigits 10 n).length : ℤ) < -400) := by
  intro h
  have hlt := Text.lt_pow_length_toDigits n
  generalize (Nat.toDigits 10 n).length = size at h hlt
  have hn : (n : ℚ) < 10 ^ size := by exact_mod_cast hlt
  have hc : (2 : ℚ) ^ 1076 ≤ 10 ^ 400 := by
    calc (2 : ℚ) ^ 1076 ≤ 2 ^ (3 * 400) := pow_le_pow_right₀ one_le_two (by norm_num)
      _ = (2 ^ 3) ^ 400 := pow_mul _ _ _
      _ ≤ 10 ^ 400 := pow_le_pow_left₀ (by norm_num) (by norm_num) _
  refine not_mul_le hlow (by positivity) hn hc ?_
  rw [← pow_add]
  exact pow_le_pow_right₀ (by norm_num) (by omega)

theorem ofDecimal_of_within (hx : shape x = .finite d) (hd : 0 < d.mantissa) (hn : 0 < n)
    (hk : 0 < k) (hw : Within d.mantissa d.exponent (n / 10 ^ k)) :
    Number.ofDecimal d.negative n (-(k : ℤ)) = x := by
  have hc := canonical_of_shape hx
  have he := exponent_le_of_shape hx
  have hlow := hw.lower hd hc
  obtain ⟨u, m, t, y, hread, hu, hnear, hval⟩ := exists_ofScientific hn hk hlow
  rw [hnear.eq_of_within hc (hval.symm ▸ hw)] at hu
  obtain rfl := hu.eq_finite hd hc
  have hsize := size_ge hlow
  obtain ⟨j, rfl⟩ : ∃ j, k = j + 1 := ⟨k - 1, by omega⟩
  have hdecimal : Number.ofDecimal d.negative n (-(j + 1 : ℕ)) =
      if d.negative then -Float.ofScientific n true (j + 1)
      else Float.ofScientific n true (j + 1) := by
    have hcut : ¬ (decide (n = 0) || decide (-((j + 1 : ℕ) : ℤ) +
        ((Nat.toDigits 10 n).length : ℤ) < -400)) = true := by
      simp only [Bool.or_eq_true, decide_eq_true_eq, not_or]
      exact ⟨hn.ne', hsize⟩
    unfold Number.ofDecimal
    simp only [if_neg hcut]
    rfl
  have hneg : -(Float.ofModel (.pack (.finite .positive d.mantissa d.exponent hd))) =
      .ofModel (.pack (.finite .negative d.mantissa d.exponent hd)) := by
    change Float.ofModel (.pack (UnpackedFloat.neg (Float.Model.unpack _))) = _
    rw [unpack_pack_of_canonical _ hd hc he]
    rfl
  have hshape : shape (Number.ofDecimal d.negative n (-(j + 1 : ℕ))) = shape x := by
    obtain ⟨negative, m, e⟩ := d
    rw [hdecimal, hread, hx]
    cases negative with
    | true =>
      rw [if_pos rfl, hneg, shape_pack _ hd hc he]
      rfl
    | false =>
      rw [if_neg Bool.false_ne_true, shape_pack _ hd hc he]
      rfl
  exact eq_of_shape hshape fun hnan => by rw [hshape, hx] at hnan; cases hnan

end Reading

end CatalogCrawl.Double

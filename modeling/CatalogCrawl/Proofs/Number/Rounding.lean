import Mathlib

namespace CatalogCrawl.Double

open Float.Model UnpackedFloat

def IsDouble (v : ℚ) : Prop := ∃ (m : ℕ) (e : ℤ), m < 2 ^ 53 ∧ -1074 ≤ e ∧ v = m * 2 ^ e

structure Rounds (r v : ℚ) : Prop where
  isDouble : IsDouble r
  nearest : ∀ w, IsDouble w → |r - v| ≤ |w - v|

variable {r v w x y : ℚ} {m n : ℕ} {e t : ℤ}

theorem isDouble_mul_zpow (h : n ≤ 2 ^ 53) (ht : -1074 ≤ t) : IsDouble (n * 2 ^ t) := by
  rcases Nat.lt_or_ge n (2 ^ 53) with hlt | hge
  · exact ⟨n, t, hlt, ht, rfl⟩
  · refine ⟨2 ^ 52, t + 1, by norm_num, by omega, ?_⟩
    rw [Nat.le_antisymm h hge, zpow_add_one₀ two_ne_zero]
    push_cast
    ring

theorem isDouble_natCast (h : n ≤ 2 ^ 53) : IsDouble n := by
  simpa using isDouble_mul_zpow (t := 0) h (by norm_num)

theorem isDouble_zero : IsDouble 0 := by simpa using isDouble_natCast (Nat.zero_le _)

theorem isDouble_two_pow (n : ℕ) : IsDouble (2 ^ n) := by
  simpa using isDouble_mul_zpow (n := 1) (t := n) (by norm_num) (by omega)

namespace Rounds

theorem le (h : Rounds r v) (hw : IsDouble w) (hv : v ≤ w) : r ≤ w := by
  have hn := h.nearest w hw
  rw [abs_of_nonneg (sub_nonneg.2 hv)] at hn
  have := le_abs_self (r - v)
  linarith

theorem ge (h : Rounds r v) (hw : IsDouble w) (hv : w ≤ v) : w ≤ r := by
  have hn := h.nearest w hw
  rw [abs_of_nonpos (sub_nonpos.2 hv)] at hn
  have := neg_abs_le (r - v)
  linarith

theorem eq (h : Rounds r v) (hv : IsDouble v) : r = v :=
  le_antisymm (h.le hv le_rfl) (h.ge hv le_rfl)

theorem refl (hv : IsDouble v) : Rounds v v :=
  ⟨hv, fun w _ => by rw [sub_self, abs_zero]; exact abs_nonneg _⟩

end Rounds

theorem nearest_nat {k : ℕ} (h : |(n : ℚ) - y| ≤ 1 / 2) : |(n : ℚ) - y| ≤ |(k : ℚ) - y| := by
  rcases eq_or_ne k n with rfl | hk
  · exact le_rfl
  · have hone : (1 : ℚ) ≤ |(k : ℚ) - n| := by
      have hz : (1 : ℤ) ≤ |(k : ℤ) - n| := Int.one_le_abs (by omega)
      exact_mod_cast hz
    have htri := abs_sub_le (k : ℚ) y n
    rw [abs_sub_comm y n] at htri
    linarith

theorem rounds_of_near (h : |(n : ℚ) - y| ≤ 1 / 2) (hn : n ≤ 2 ^ 53) (ht : -1074 ≤ t)
    (hy : t = -1074 ∨ 2 ^ 52 ≤ y) : Rounds (n * 2 ^ t) (y * 2 ^ t) := by
  have hpos : (0 : ℚ) < 2 ^ t := by positivity
  have scaled (k : ℚ) : |k * 2 ^ t - y * 2 ^ t| = |k - y| * 2 ^ t := by
    rw [← sub_mul, abs_mul, abs_of_pos hpos]
  refine ⟨isDouble_mul_zpow hn ht, ?_⟩
  rintro w ⟨k, e, hk, he, rfl⟩
  rcases le_or_gt t e with hte | hte
  · -- a double with a larger exponent is a multiple of the same power
    have hw : (k : ℚ) * 2 ^ e = (k * 2 ^ (e - t).toNat : ℕ) * 2 ^ t := by
      push_cast
      rw [mul_assoc, ← zpow_natCast, ← zpow_add₀ two_ne_zero]
      congr 2
      omega
    rw [hw, scaled, scaled]
    exact mul_le_mul_of_nonneg_right (nearest_nat h) hpos.le
  · -- one with a smaller exponent lies below all that have this one
    have hy' : (2 : ℚ) ^ 52 ≤ y := hy.resolve_left (by omega)
    have hbelow : (k : ℚ) * 2 ^ e ≤ 2 ^ 52 * 2 ^ t := by
      have he' : (2 : ℚ) ^ e ≤ 2 ^ (t - 1) := zpow_le_zpow_right₀ (by norm_num) (by omega)
      have hk' : (k : ℚ) ≤ 2 ^ 53 := by exact_mod_cast hk.le
      calc (k : ℚ) * 2 ^ e ≤ 2 ^ 53 * 2 ^ (t - 1) := by gcongr
        _ = 2 ^ 52 * 2 ^ t := by rw [zpow_sub_one₀ two_ne_zero]; ring
    have hleast : |(n : ℚ) - y| ≤ y - 2 ^ 52 := by
      have hleast := nearest_nat (k := 2 ^ 52) h
      have hneg : ((2 ^ 52 : ℕ) : ℚ) - y ≤ 0 := by push_cast; linarith
      rw [abs_of_nonpos hneg] at hleast
      push_cast at hleast
      linarith
    have hvy : (2 : ℚ) ^ 52 * 2 ^ t ≤ y * 2 ^ t := mul_le_mul_of_nonneg_right hy' hpos.le
    calc |(n : ℚ) * 2 ^ t - y * 2 ^ t| = |(n : ℚ) - y| * 2 ^ t := scaled n
      _ ≤ (y - 2 ^ 52) * 2 ^ t := mul_le_mul_of_nonneg_right hleast hpos.le
      _ ≤ y * 2 ^ t - k * 2 ^ e := by rw [sub_mul]; linarith
      _ ≤ |(k : ℚ) * 2 ^ e - y * 2 ^ t| := by rw [abs_sub_comm]; exact le_abs_self _

/-- The form in which doubles are kept: the exponent is the least one possible. -/
structure Canonical (m : ℕ) (e : ℤ) : Prop where
  lt : m < 2 ^ 53
  ge : -1074 ≤ e
  least : 2 ^ 52 ≤ m ∨ e = -1074

theorem targetExponent_eq (m : ℕ) (e : ℤ) :
    Format.binary64.targetExponent (totalExponent m e) = max (m.log2 + 1 + e - 53) (-1074) := by
  simp [Format.targetExponent, totalExponent, Format.mantissaBits, Format.minExponent]

theorem Canonical.targetExponent (h : Canonical m e) :
    Format.binary64.targetExponent (totalExponent m e) = e := by
  rw [targetExponent_eq]
  have hge := h.ge
  rcases Nat.eq_zero_or_pos m with rfl | hm
  · have he := h.least.resolve_left (by norm_num)
    simp only [Nat.log2_zero, he]
    norm_num
  · have hlog : m.log2 < 53 := (Nat.log2_lt hm.ne').2 h.lt
    rcases h.least with hl | rfl
    · have : 52 ≤ m.log2 := (Nat.le_log2 hm.ne').2 hl
      omega
    · omega

inductive Holds : UnpackedFloat → ℚ → Prop
  | zero (s : Sign) : Holds (.zero s) 0
  | finite {m : ℕ} {e : ℤ} (hm : 0 < m) (h : Canonical m e) :
    Holds (.finite .positive m e hm) (m * 2 ^ e)

/-- A mantissa with two more digits stands for a number: the first of them says on which side of the
middle it lies, the second whether anything is left. -/
def Represents (em : ExtendedMantissa) (x : ℚ) : Prop :=
  match em.roundBit, em.stickyBit with
  | false, false => x = em.mantissa
  | false, true => em.mantissa < x ∧ x < em.mantissa + 1 / 2
  | true, false => x = em.mantissa + 1 / 2
  | true, true => em.mantissa + 1 / 2 < x ∧ x < em.mantissa + 1

theorem Represents.bounds {em : ExtendedMantissa} (h : Represents em x) :
    em.mantissa ≤ x ∧ x < em.mantissa + 1 := by
  obtain ⟨m, roundBit, stickyBit⟩ := em
  cases roundBit <;> cases stickyBit <;> simp only [Represents] at h ⊢ <;>
    constructor <;> linarith

theorem Represents.shiftRightOne {em : ExtendedMantissa} (h : Represents em x) :
    Represents em.shiftRightOne (x / 2) := by
  obtain ⟨m, roundBit, stickyBit⟩ := em
  have hm : (m : ℚ) = 2 * (m / 2 : ℕ) + (m % 2 : ℕ) := by exact_mod_cast (Nat.div_add_mod m 2).symm
  rcases Nat.mod_two_eq_zero_or_one m with hp | hp <;> rw [hp] at hm <;> push_cast at hm <;>
    cases roundBit <;> cases stickyBit <;>
    simp [Represents, ExtendedMantissa.shiftRightOne, hp] at h ⊢ <;>
    first | (constructor <;> linarith) | linarith

theorem Represents.shiftRight {em : ExtendedMantissa} (h : Represents em x) (n : ℕ) :
    Represents (em >>> n) (x / 2 ^ n) := by
  induction n with
  | zero =>
    rw [pow_zero, div_one]
    exact h
  | succ n ih =>
    rw [pow_succ, ← div_div]
    exact ih.shiftRightOne

theorem Represents.near {em : ExtendedMantissa} (h : Represents em x) :
    |(em.roundedMantissa : ℚ) - x| ≤ 1 / 2 := by
  obtain ⟨m, roundBit, stickyBit⟩ := em
  rw [abs_le]
  cases roundBit <;> cases stickyBit <;>
    simp [Represents, ExtendedMantissa.roundedMantissa, ExtendedMantissa.accuracy,
      Accuracy.roundToNearestEven] at h ⊢
  · simp [h]
  · constructor <;> linarith
  · rcases Nat.mod_two_eq_zero_or_one m with hp | hp <;> rw [hp] <;> push_cast <;>
      constructor <;> linarith
  · constructor <;> linarith

theorem Represents.even {em : ExtendedMantissa} (h : Represents em x)
    (hx : |(em.roundedMantissa : ℚ) - x| = 1 / 2) : em.roundedMantissa % 2 = 0 := by
  obtain ⟨m, roundBit, stickyBit⟩ := em
  rw [abs_eq (by norm_num)] at hx
  cases roundBit <;> cases stickyBit <;>
    simp [Represents, ExtendedMantissa.roundedMantissa, ExtendedMantissa.accuracy,
      Accuracy.roundToNearestEven] at h hx ⊢
  · rw [h] at hx
    norm_num at hx
  · rcases hx with hx | hx <;> linarith
  · omega
  · rcases hx with hx | hx <;> linarith

theorem magnitude (hlo : (m : ℚ) ≤ x) (hhi : x < m + 1) :
    (m = 0 ∨ (2 : ℚ) ^ m.log2 ≤ x) ∧ x < 2 ^ (m.log2 + 1) := by
  constructor
  · rcases Nat.eq_zero_or_pos m with rfl | hm
    · exact .inl rfl
    · have hle : ((2 ^ m.log2 : ℕ) : ℚ) ≤ m := by exact_mod_cast Nat.log2_self_le hm.ne'
      push_cast at hle
      exact .inr (hle.trans hlo)
  · have hle : ((m + 1 : ℕ) : ℚ) ≤ (2 ^ (m.log2 + 1) : ℕ) := by exact_mod_cast Nat.lt_log2_self
    push_cast at hle
    linarith

theorem shifted_bounds (hlo : (m : ℚ) ≤ x) (hhi : x < m + 1)
    (ht : max (m.log2 + 1 + e - 53) (-1074) = e + n) :
    x / 2 ^ n < 2 ^ 53 ∧ (e + n = -1074 ∨ (2 : ℚ) ^ 52 ≤ x / 2 ^ n) := by
  obtain ⟨hmlo, hmhi⟩ := magnitude hlo hhi
  constructor
  · rw [div_lt_iff₀ (by positivity), ← pow_add]
    exact hmhi.trans_le (pow_le_pow_right₀ (by norm_num) (by omega))
  · rcases eq_or_ne (e + n) (-1074) with h1074 | h1074
    · exact .inl h1074
    · have hlog : 52 + n = m.log2 := by omega
      have hm : m ≠ 0 := by
        rintro rfl
        rw [Nat.log2_zero] at hlog
        omega
      rw [le_div_iff₀ (by positivity), ← pow_add, hlog]
      exact .inr (hmlo.resolve_left hm)

theorem canonical_of_near (h : |(n : ℚ) - y| ≤ 1 / 2) (hhi : y < 2 ^ 53)
    (hlo : t = -1074 ∨ 2 ^ 52 ≤ y) (ht : -1074 ≤ t) : Canonical n t ∨ n = 2 ^ 53 := by
  rw [abs_le] at h
  have hle : n ≤ 2 ^ 53 := by
    have hq : (n : ℚ) < (2 ^ 53 + 1 : ℕ) := by push_cast; linarith
    exact Nat.lt_succ_iff.1 (by exact_mod_cast hq)
  have hge : 2 ^ 52 ≤ n ∨ t = -1074 := by
    refine hlo.symm.imp_left fun hl => ?_
    have hq : ((2 ^ 52 : ℕ) : ℚ) < n + 1 := by push_cast; linarith
    exact Nat.lt_succ_iff.1 (by exact_mod_cast hq)
  rcases Nat.lt_or_ge n (2 ^ 53) with hlt | hge'
  · exact .inl ⟨hlt, ht, hge⟩
  · exact .inr (Nat.le_antisymm hle hge')

theorem shiftToTargetExponent_of_canonical (h : Canonical m e) :
    shiftToTargetExponent .binary64 m e .exact = (⟨m, false, false⟩, e) := by
  simp only [shiftToTargetExponent, h.targetExponent, shiftToExponent, sub_self, Int.toNat_zero,
    Nat.cast_zero, add_zero]
  rfl

theorem shiftToTargetExponent_of_carry (he : -1074 ≤ e) :
    shiftToTargetExponent .binary64 (2 ^ 53) e .exact = (⟨2 ^ 52, false, false⟩, e + 1) := by
  have ht : Format.binary64.targetExponent (totalExponent (2 ^ 53) e) = e + 1 := by
    rw [targetExponent_eq, Nat.log2_two_pow]
    omega
  have hs : (e + 1 - e).toNat = 1 := by omega
  simp only [shiftToTargetExponent, ht, shiftToExponent, hs]
  rfl

theorem exists_holds {acc : Accuracy} {em : ExtendedMantissa} {t : ℤ}
    (h : shiftToTargetExponent .binary64 m e acc = (em, t))
    (hc : Canonical em.roundedMantissa t ∨ em.roundedMantissa = 2 ^ 53) (ht : -1074 ≤ t) :
    Holds (roundWithAccuracy .binary64 .positive m e acc) (em.roundedMantissa * 2 ^ t) := by
  unfold roundWithAccuracy
  rw [h]
  simp only
  rcases hc with hc | hc
  · rw [shiftToTargetExponent_of_canonical hc]
    simp only
    split
    · rename_i hz
      rw [hz, Nat.cast_zero, zero_mul]
      exact .zero .positive
    · exact .finite _ hc
  · -- rounding has made the mantissa one digit longer
    rw [hc, shiftToTargetExponent_of_carry ht]
    simp only
    rw [dif_neg (by norm_num)]
    have hv : ((2 ^ 53 : ℕ) : ℚ) * 2 ^ t = (2 ^ 52 : ℕ) * 2 ^ (t + 1) := by
      rw [zpow_add_one₀ two_ne_zero]
      push_cast
      ring
    rw [hv]
    exact .finite _ ⟨by norm_num, by omega, .inl (by norm_num)⟩

structure Nearest (n : ℕ) (t : ℤ) (y : ℚ) : Prop where
  ge : -1074 ≤ t
  upper : y < 2 ^ 53
  lower : t = -1074 ∨ 2 ^ 52 ≤ y
  near : |(n : ℚ) - y| ≤ 1 / 2
  even : |(n : ℚ) - y| = 1 / 2 → n % 2 = 0

theorem Nearest.rounds (h : Nearest n t y) : Rounds (n * 2 ^ t) (y * 2 ^ t) := by
  have hc := canonical_of_near h.near h.upper h.lower h.ge
  exact rounds_of_near h.near (hc.elim (fun hc => hc.lt.le) fun hc => hc.le) h.ge h.lower

theorem exists_nearest {acc : Accuracy}
    (h : Represents (.ofMantissaAndAccuracy m acc) x)
    (he : e ≤ Format.binary64.targetExponent (totalExponent m e)) :
    ∃ (n : ℕ) (t : ℤ) (y : ℚ),
      Holds (roundWithAccuracy .binary64 .positive m e acc) (n * 2 ^ t) ∧ Nearest n t y ∧
      y * 2 ^ t = x * 2 ^ e := by
  have hmant : (ExtendedMantissa.ofMantissaAndAccuracy m acc).mantissa = m := by
    rcases acc with _ | _ | _ | _ <;> rfl
  obtain ⟨hlo, hhi⟩ := h.bounds
  rw [hmant] at hlo hhi
  rw [targetExponent_eq] at he
  obtain ⟨n, hn⟩ : ∃ n : ℕ, max (m.log2 + 1 + e - 53) (-1074) = e + n :=
    ⟨(max (m.log2 + 1 + e - 53) (-1074) - e).toNat, by omega⟩
  obtain ⟨hupper, hlower⟩ := shifted_bounds hlo hhi hn
  obtain ⟨em, hem⟩ : ∃ em, ExtendedMantissa.ofMantissaAndAccuracy m acc >>> n = em := ⟨_, rfl⟩
  have hrep : Represents em (x / 2 ^ n) := hem ▸ h.shiftRight n
  have ht : -1074 ≤ e + n := by omega
  have hfirst : shiftToTargetExponent .binary64 m e acc = (em, e + n) := by
    have hshift : (e + n - e).toNat = n := by omega
    simp only [shiftToTargetExponent, targetExponent_eq, hn, shiftToExponent, hshift, hem]
  refine ⟨em.roundedMantissa, e + n, x / 2 ^ n,
    exists_holds hfirst (canonical_of_near hrep.near hupper hlower ht) ht,
    ⟨ht, hupper, hlower, hrep.near, hrep.even⟩, ?_⟩
  rw [zpow_add₀ two_ne_zero, zpow_natCast]
  field_simp

theorem holds_roundWithAccuracy {acc : Accuracy}
    (h : Represents (.ofMantissaAndAccuracy m acc) x)
    (he : e ≤ Format.binary64.targetExponent (totalExponent m e)) :
    ∃ r, Holds (roundWithAccuracy .binary64 .positive m e acc) r ∧ Rounds r (x * 2 ^ e) := by
  obtain ⟨n, t, y, hn, hy, hval⟩ := exists_nearest h he
  exact ⟨_, hn, hval ▸ hy.rounds⟩

end CatalogCrawl.Double

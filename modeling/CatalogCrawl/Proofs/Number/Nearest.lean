import CatalogCrawl.Proofs.Number.Rounding

namespace CatalogCrawl.Double

variable {y : ℚ} {m n : ℕ} {e t : ℤ}

/-- How far below a double the numbers reach that are rounded to it, in units of its last place. -/
def reach (m : ℕ) (e : ℤ) : ℚ := if m = 2 ^ 52 ∧ e ≠ -1074 then 1 / 4 else 1 / 2

/-- The numbers that are rounded to a double; the ends of their interval are if its mantissa is
even. -/
structure Within (m : ℕ) (e : ℤ) (q : ℚ) : Prop where
  low : (m - reach m e) * 2 ^ e ≤ q
  high : q ≤ (m + 1 / 2) * 2 ^ e
  inner : m % 2 = 1 → (m - reach m e) * 2 ^ e < q ∧ q < (m + 1 / 2) * 2 ^ e

theorem reach_le (m : ℕ) (e : ℤ) : reach m e ≤ 1 / 2 := by
  unfold reach
  split <;> norm_num

namespace Nearest

theorem near_of_odd (hn : Nearest n t y) (h : n % 2 = 1) : |(n : ℚ) - y| < 1 / 2 := by
  refine lt_of_le_of_ne hn.near fun htie => ?_
  have heven := hn.even htie
  omega

theorem eq_of_same (hn : Nearest n t y) (hw : Within m t (y * 2 ^ t)) : n = m := by
  have hreach := reach_le m t
  have hpos : (0 : ℚ) < 2 ^ t := by positivity
  obtain ⟨hnlo, hnhi⟩ := abs_le.1 hn.near
  have hlow : (m : ℚ) - reach m t ≤ y := le_of_mul_le_mul_right hw.low hpos
  have hhigh : y ≤ (m : ℚ) + 1 / 2 := le_of_mul_le_mul_right hw.high hpos
  have hinner (ho : m % 2 = 1) : (m : ℚ) - reach m t < y ∧ y < m + 1 / 2 :=
    (hw.inner ho).imp (lt_of_mul_lt_mul_right · hpos.le) (lt_of_mul_lt_mul_right · hpos.le)
  -- if the two are not the same then the number lies half way between them, and one of them is odd
  rcases Nat.lt_trichotomy n m with hlt | rfl | hgt
  · have hge : (m : ℚ) ≤ (n + 1 : ℕ) := by push_cast; linarith
    obtain rfl : m = n + 1 := le_antisymm (by exact_mod_cast hge) hlt
    push_cast at hlow hinner
    rcases Nat.mod_two_eq_zero_or_one n with heven | hodd
    · have := (hinner (by omega)).1
      linarith
    · have := (abs_lt.1 (hn.near_of_odd hodd)).1
      linarith
  · rfl
  · have hle : (n : ℚ) ≤ (m + 1 : ℕ) := by push_cast; linarith
    obtain rfl : n = m + 1 := le_antisymm (by exact_mod_cast hle) hgt
    push_cast at hnhi
    rcases Nat.mod_two_eq_zero_or_one m with heven | hodd
    · have hlt := (abs_lt.1 (hn.near_of_odd (by omega))).2
      push_cast at hlt
      linarith
    · have := (hinner hodd).2
      linarith

theorem least_of_low {k : ℕ} (hm : 2 ^ 52 ≤ m) (he : e ≠ -1074) (hy : y < 2 ^ 53)
    (h : ((m : ℚ) - reach m e) * 2 ^ (k + 1) ≤ y) : m = 2 ^ 52 ∧ k = 0 := by
  have hm' : (2 : ℚ) ^ 52 ≤ m := by exact_mod_cast hm
  have hreach := reach_le m e
  have hk : (2 : ℚ) ≤ 2 ^ (k + 1) := le_self_pow₀ one_le_two (Nat.succ_ne_zero k)
  obtain rfl : m = 2 ^ 52 := by
    by_contra hne
    have hlt : ((2 ^ 52 + 1 : ℕ) : ℚ) ≤ m := by exact_mod_cast lt_of_le_of_ne hm (Ne.symm hne)
    push_cast at hlt
    nlinarith
  rw [reach, if_pos ⟨rfl, he⟩] at h
  refine ⟨rfl, ?_⟩
  by_contra hk0
  have hk4 : (4 : ℚ) ≤ 2 ^ (k + 1) := by
    have : (2 : ℚ) ≤ 2 ^ k := le_self_pow₀ one_le_two hk0
    rw [pow_succ]
    linarith
  push_cast at h
  nlinarith

theorem eq_of_lt (hn : Nearest n t y) (hc : Canonical m e) (hw : Within m e (y * 2 ^ t))
    (h : t < e) : n = 2 ^ 53 ∧ m = 2 ^ 52 ∧ e = t + 1 := by
  have hge := hn.ge
  have he : e ≠ -1074 := by omega
  obtain ⟨k, rfl⟩ : ∃ k : ℕ, e = t + (k + 1 : ℕ) := ⟨(e - t - 1).toNat, by omega⟩
  have hlow : ((m : ℚ) - reach m (t + (k + 1 : ℕ))) * 2 ^ (k + 1) ≤ y := by
    have hlow := hw.low
    rw [add_comm t, zpow_add₀ two_ne_zero, zpow_natCast, ← mul_assoc] at hlow
    rw [add_comm t]
    exact le_of_mul_le_mul_right hlow (by positivity)
  obtain ⟨rfl, rfl⟩ := least_of_low (hc.least.resolve_right he) he hn.upper hlow
  rw [reach, if_pos ⟨rfl, he⟩] at hlow
  have hy : (2 : ℚ) ^ 53 - 1 / 2 ≤ y := by
    refine le_trans (le_of_eq ?_) hlow
    norm_num
  have hupper := hn.upper
  refine ⟨?_, rfl, by simp⟩
  -- the number is at most one half below, where the next one below would be odd
  rcases Nat.lt_trichotomy n (2 ^ 53) with hlt | heq | hgt
  · have hle : (n : ℚ) + 1 ≤ 2 ^ 53 := by exact_mod_cast hlt
    have hnear := (abs_le.1 hn.near).1
    have hodd : n % 2 = 1 := by
      have hge' : ((2 ^ 53 : ℕ) : ℚ) ≤ (n + 1 : ℕ) := by push_cast; linarith
      have : 2 ^ 53 ≤ n + 1 := by exact_mod_cast hge'
      omega
    have := (abs_lt.1 (hn.near_of_odd hodd)).1
    linarith
  · exact heq
  · have hle : (2 : ℚ) ^ 53 + 1 ≤ n := by exact_mod_cast hgt
    have hnear := (abs_le.1 hn.near).2
    linarith

theorem not_gt (hn : Nearest n t y) (hc : Canonical m e) (hw : Within m e (y * 2 ^ t)) :
    t ≤ e := by
  by_contra! h
  have hlow : (2 : ℚ) ^ 52 ≤ y := hn.lower.resolve_left (by have := hc.ge; omega)
  have hmax : (m : ℚ) + 1 ≤ 2 ^ 53 := by exact_mod_cast hc.lt
  have hpos : (0 : ℚ) < 2 ^ e := by positivity
  have hpow : (2 : ℚ) * 2 ^ e ≤ 2 ^ t := by
    rw [← zpow_one_add₀ two_ne_zero]
    exact zpow_le_zpow_right₀ (by norm_num) (by omega)
  have hle : (2 : ℚ) ^ 53 * 2 ^ e ≤ y * 2 ^ t := by
    calc (2 : ℚ) ^ 53 * 2 ^ e = 2 ^ 52 * (2 * 2 ^ e) := by ring
      _ ≤ y * 2 ^ t := by gcongr
  have hhigh := hle.trans hw.high
  have := le_of_mul_le_mul_right hhigh hpos
  linarith

theorem eq_of_within (hn : Nearest n t y) (hc : Canonical m e) (hw : Within m e (y * 2 ^ t)) :
    (n : ℚ) * 2 ^ t = m * 2 ^ e := by
  rcases (hn.not_gt hc hw).lt_or_eq with h | rfl
  · obtain ⟨rfl, rfl, rfl⟩ := hn.eq_of_lt hc hw h
    rw [zpow_add_one₀ two_ne_zero]
    push_cast
    ring
  · rw [hn.eq_of_same hw]

end Nearest

end CatalogCrawl.Double

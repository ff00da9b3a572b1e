import CatalogCrawl.Proofs.Number.Rounding

namespace CatalogCrawl.Double

open Float.Model UnpackedFloat

variable {a b v w : ℚ} {m n : ℕ} {e f : ℤ} {u z : UnpackedFloat} {x y : Float}

section Packing

theorem pack_of_normal (s : Sign) (hm : 0 < m) (hlo : 2 ^ 52 ≤ m) (hhi : m < 2 ^ 53) {k : ℕ}
    (hk : e + 1023 + 52 = k) (hmax : k < 2047) :
    UnpackedFloat.pack .binary64 (.finite s m e hm) =
      packComponents .binary64 s (BitVec.ofNat 11 k) (BitVec.ofNat 52 m) := by
  have hlog : m.log2 = 52 := (Nat.log2_eq_iff hm.ne').2 ⟨hlo, hhi⟩
  have hbias : (e + (Format.binary64.exponentBias : ℤ) + (52 : ℕ)).toNat = k := by
    change (e + 1023 + 52).toNat = k
    omega
  simp only [UnpackedFloat.pack, hbias, hlog]
  rw [if_neg (by omega)]
  exact if_pos rfl

theorem unpack_pack_of_normal (s : Sign) (hm : 0 < m) (hlo : 2 ^ 52 ≤ m) (h : Canonical m e)
    (he : e ≤ 971) :
    (Float.Model.pack (.finite s m e hm)).unpack = .finite s m e hm := by
  have hge := h.ge
  obtain ⟨b, hb⟩ : ∃ b : ℕ, e + 1023 + 52 = b := ⟨(e + 1075).toNat, by omega⟩
  have hb2 : b % 2048 = b := by omega
  change UnpackedFloat.unpack .binary64 (UnpackedFloat.pack .binary64 (.finite s m e hm)) = _
  rw [pack_of_normal s hm hlo h.lt hb (by omega)]
  have hones : BitVec.ofNat 11 b ≠ -1#11 := by
    intro hx
    have := congrArg BitVec.toNat hx
    simp [hb2] at this
    omega
  have hzero : BitVec.ofNat 11 b ≠ 0#11 := by
    intro hx
    have := congrArg BitVec.toNat hx
    simp [hb2] at this
    omega
  -- the leading digit is not packed, and put back
  have hmant : (1#1 ++ BitVec.ofNat 52 m).toNat = m := by
    have hlt : m % 2 ^ 52 < 2 ^ 52 := Nat.mod_lt m (by norm_num)
    have hor := Nat.two_pow_add_eq_or_of_lt hlt 1
    rw [BitVec.toNat_append, BitVec.toNat_ofNat, Nat.shiftLeft_eq]
    change 2 ^ 52 * 1 ||| m % 2 ^ 52 = m
    have := h.lt
    rw [← hor]
    omega
  have hexp : ((BitVec.ofNat 11 b).toNat : ℤ) -
      ((Format.binary64.exponentBias : ℤ) + (52 : ℕ)) = e := by
    change ((b % 2048 : ℕ) : ℤ) - (1023 + 52) = e
    omega
  simp only [UnpackedFloat.unpack, unpackMantissa_packComponents, unpackExponent_packComponents,
    unpackSign_packComponents, if_neg hones, if_neg hzero, hmant, hexp, Sign.ofBitVec_toBitVec]

theorem pack_of_subnormal (s : Sign) (hm : 0 < m) (hhi : m < 2 ^ 52) :
    UnpackedFloat.pack .binary64 (.finite s m (-1074) hm) =
      packComponents .binary64 s 0#11 (BitVec.ofNat 52 m) := by
  have hlog : m.log2 < 52 := (Nat.log2_lt hm.ne').2 hhi
  have hbias : (-1074 + (Format.binary64.exponentBias : ℤ) + (52 : ℕ)).toNat = 1 := by decide
  simp only [UnpackedFloat.pack, hbias]
  rw [if_neg (by decide), if_neg (by change ¬ m.log2 + 1 = 53; omega)]

theorem unpack_pack_of_subnormal (s : Sign) (hm : 0 < m) (hhi : m < 2 ^ 52) :
    (Float.Model.pack (.finite s m (-1074) hm)).unpack = .finite s m (-1074) hm := by
  have hmod : m % 4503599627370496 = m := Nat.mod_eq_of_lt hhi
  have hne : (BitVec.ofNat 52 m) ≠ 0#52 := by
    intro h
    have := congrArg BitVec.toNat h
    simp [BitVec.toNat_ofNat, hmod] at this
    omega
  change UnpackedFloat.unpack .binary64 (UnpackedFloat.pack .binary64 (.finite s m (-1074) hm)) = _
  rw [pack_of_subnormal s hm hhi]
  have hmant : (BitVec.ofNat 52 m).toNat = m := hmod
  simp only [UnpackedFloat.unpack, unpackMantissa_packComponents, unpackExponent_packComponents,
    unpackSign_packComponents, hmant, Sign.ofBitVec_toBitVec]
  rw [if_neg (by decide), if_pos trivial, dif_neg hne]
  rfl

theorem unpack_pack_of_canonical (s : Sign) (hm : 0 < m) (h : Canonical m e) (he : e ≤ 971) :
    (Float.Model.pack (.finite s m e hm)).unpack = .finite s m e hm := by
  rcases Nat.lt_or_ge m (2 ^ 52) with hlt | hge
  · obtain rfl := h.least.resolve_left (Nat.not_le.2 hlt)
    exact unpack_pack_of_subnormal s hm hlt
  · exact unpack_pack_of_normal s hm hge h he

theorem Holds.nonneg (h : Holds u v) : 0 ≤ v := by
  cases h with
  | zero => exact le_rfl
  | finite => positivity

theorem Holds.isDouble (h : Holds u v) : IsDouble v := by
  cases h with
  | zero => exact isDouble_zero
  | finite _ hc => exact ⟨_, _, hc.lt, hc.ge, rfl⟩

theorem Holds.unpack_pack (h : Holds u v) (hv : v < 2 ^ 1024) :
    (Float.Model.pack u).unpack = u := by
  cases h with
  | zero s => cases s <;> rfl
  | @finite m e hm hc =>
    refine unpack_pack_of_canonical .positive hm hc ?_
    rcases hc.least with hge | rfl
    · have hm' : (2 : ℚ) ^ (52 : ℤ) ≤ m := by exact_mod_cast hge
      have hp : (2 : ℚ) ^ (52 + e) < 2 ^ (1024 : ℤ) := by
        rw [zpow_add₀ two_ne_zero]
        calc (2 : ℚ) ^ (52 : ℤ) * 2 ^ e ≤ m * 2 ^ e := by gcongr
          _ < 2 ^ (1024 : ℤ) := by exact_mod_cast hv
      have := (zpow_lt_zpow_iff_right₀ (one_lt_two (α := ℚ))).1 hp
      omega
    · norm_num

theorem canonical_of_unpack {x : Float.Model} {s : Sign} {hm : 0 < m}
    (h : x.unpack = .finite s m e hm) : Canonical m e := by
  unfold Float.Model.unpack UnpackedFloat.unpack at h
  simp only at h
  split at h
  · split at h <;> cases h
  · rename_i hones
    split at h
    · rename_i hzero
      split at h
      · cases h
      · cases h
        rw [hzero]
        exact ⟨(BitVec.isLt _).trans (by norm_num), by decide, .inr (by decide)⟩
    · rename_i hzero
      cases h
      refine ⟨BitVec.isLt _, ?_, .inl ?_⟩
      · generalize unpackExponent _ = b at hzero ⊢
        have hpos : 0 < b.toNat := Nat.pos_of_ne_zero fun h => hzero (BitVec.eq_of_toNat_eq h)
        change (-1074 : ℤ) ≤ b.toNat - (1023 + 52)
        omega
      · rw [BitVec.toNat_append]
        exact Nat.left_le_or

end Packing

section Order

theorem lt_of_exponent_lt (hm : Canonical m e) (hn : Canonical n f) (h : e < f) :
    (m : ℚ) * 2 ^ e < n * 2 ^ f := by
  have hn' : 2 ^ 52 ≤ n := hn.least.resolve_right (by have := hm.ge; omega)
  have hlo : (2 : ℚ) ^ 52 ≤ n := by exact_mod_cast hn'
  have hhi : (m : ℚ) < 2 ^ 53 := by exact_mod_cast hm.lt
  have hpow : (2 : ℚ) ^ e ≤ 2 ^ (f - 1) := zpow_le_zpow_right₀ (by norm_num) (by omega)
  calc (m : ℚ) * 2 ^ e < 2 ^ 53 * 2 ^ e := by gcongr
    _ ≤ 2 ^ 53 * 2 ^ (f - 1) := by gcongr
    _ = 2 ^ 52 * 2 ^ f := by rw [zpow_sub_one₀ two_ne_zero]; ring
    _ ≤ n * 2 ^ f := by gcongr

theorem Holds.compare_eq (hu : Holds u v) (hz : Holds z w) : u.compare z = some (cmp v w) := by
  cases hu with
  | zero s =>
    cases hz with
    | zero s' => simp [UnpackedFloat.compare]
    | @finite n f hn hn' =>
      have hpos : (0 : ℚ) < n * 2 ^ f := by positivity
      rw [(cmp_eq_lt_iff _ _).2 hpos]
      rfl
  | @finite m e hm hm' =>
    cases hz with
    | zero s' =>
      have hpos : (0 : ℚ) < m * 2 ^ e := by positivity
      rw [(cmp_eq_gt_iff _ _).2 hpos]
      rfl
    | @finite n f hn hn' =>
      simp only [UnpackedFloat.compare, Option.some.injEq]
      rcases lt_trichotomy e f with h | rfl | h
      · rw [(cmp_eq_lt_iff _ _).2 (lt_of_exponent_lt hm' hn' h), Int.compare_eq_lt.2 h]
        rfl
      · have hp : (0 : ℚ) < 2 ^ e := by positivity
        rw [Int.compare_eq_eq.2 rfl]
        rcases lt_trichotomy m n with h | rfl | h
        · rw [(cmp_eq_lt_iff _ _).2 (by gcongr), Nat.compare_eq_lt.2 h]
          rfl
        · simp
        · rw [(cmp_eq_gt_iff _ _).2 (by gcongr), Nat.compare_eq_gt.2 h]
          rfl
      · rw [(cmp_eq_gt_iff _ _).2 (lt_of_exponent_lt hn' hm' h), Int.compare_eq_gt.2 h]
        rfl

end Order

def Is (x : Float) (v : ℚ) : Prop := Holds x.toModel.unpack v

section Operations

theorem Is.le_iff (hx : Is x a) (hy : Is y b) : x ≤ y ↔ a ≤ b := by
  have hd : x ≤ y ↔ UnpackedFloat.le x.toModel.unpack y.toModel.unpack = true := decide_eq_true_iff
  rw [hd, UnpackedFloat.le, Holds.compare_eq hx hy]
  rcases lt_trichotomy a b with h | rfl | h
  · rw [(cmp_eq_lt_iff _ _).2 h]
    exact iff_of_true rfl h.le
  · rw [cmp_self_eq_eq]
    exact iff_of_true rfl le_rfl
  · rw [(cmp_eq_gt_iff _ _).2 h]
    exact iff_of_false Bool.false_ne_true (not_le.2 h)

theorem Is.lt_iff (hx : Is x a) (hy : Is y b) : x < y ↔ a < b := by
  have hd : x < y ↔ UnpackedFloat.lt x.toModel.unpack y.toModel.unpack = true := decide_eq_true_iff
  rw [hd, UnpackedFloat.lt, Holds.compare_eq hx hy, beq_iff_eq, Option.some.injEq, cmp_eq_lt_iff]

theorem is_of_rounds {q : ℚ} (h : ∃ r, Holds u r ∧ Rounds r q) (hq : q ≤ 2 ^ 64) :
    ∃ r, Is (.ofModel (.pack u)) r ∧ Rounds r q := by
  obtain ⟨r, hu, hr⟩ := h
  have hle : r ≤ 2 ^ 64 := hr.le (isDouble_two_pow 64) hq
  have hlt : (2 : ℚ) ^ 64 < 2 ^ 1024 := pow_lt_pow_right₀ one_lt_two (by norm_num)
  refine ⟨r, ?_, hr⟩
  change Holds (Float.Model.pack u).unpack r
  rwa [hu.unpack_pack (hle.trans_lt hlt)]

theorem represents_exact (m : ℕ) : Represents (.ofMantissaAndAccuracy m .exact) m := rfl

theorem exists_holds_zero (s : Sign) : ∃ r, Holds (.zero s) r ∧ Rounds r 0 :=
  ⟨0, .zero s, .refl isDouble_zero⟩

theorem le_targetExponent_mul (hm : 0 < m) (hn : 0 < n) (hm' : Canonical m e)
    (hn' : Canonical n f) :
    e + f ≤ Format.binary64.targetExponent (totalExponent (m * n) (e + f)) := by
  rw [targetExponent_eq]
  have hme := hm'.ge
  have hnf := hn'.ge
  have hlog (hl : 2 ^ 52 ≤ m * n) : 52 ≤ (m * n).log2 :=
    (Nat.le_log2 (Nat.mul_pos hm hn).ne').2 hl
  rcases hm'.least with hl | rfl
  · have := hlog (hl.trans (Nat.le_mul_of_pos_right m hn))
    omega
  · rcases hn'.least with hl | rfl
    · have := hlog (hl.trans (Nat.le_mul_of_pos_left n hm))
      omega
    · omega

theorem Is.mul (hx : Is x a) (hy : Is y b) (h : a * b ≤ 2 ^ 64) :
    ∃ r, Is (x * y) r ∧ Rounds r (a * b) := by
  refine is_of_rounds (u := UnpackedFloat.mul .binary64 x.toModel.unpack y.toModel.unpack) ?_ h
  unfold Is at hx hy
  generalize x.toModel.unpack = u at hx ⊢
  generalize y.toModel.unpack = z at hy ⊢
  cases hx with
  | zero s =>
    rw [zero_mul]
    cases hy with
    | zero s' => exact exists_holds_zero _
    | finite => exact exists_holds_zero _
  | @finite m e hm hm' =>
    cases hy with
    | zero s' =>
      rw [mul_zero]
      exact exists_holds_zero _
    | @finite n f hn hn' =>
      have hr := holds_roundWithAccuracy (represents_exact (m * n))
        (le_targetExponent_mul hm hn hm' hn')
      have hv : ((m * n : ℕ) : ℚ) * 2 ^ (e + f) = m * 2 ^ e * (n * 2 ^ f) := by
        rw [zpow_add₀ two_ne_zero]
        push_cast
        ring
      rw [hv] at hr
      exact hr

theorem represents_quotient (hn : 0 < n) :
    Represents (.ofMantissaAndAccuracy (m / n) (accuracyOfFraction (m % n) n)) (m / n : ℚ) := by
  obtain ⟨q, hq⟩ : ∃ q, m / n = q := ⟨_, rfl⟩
  obtain ⟨k, hk⟩ : ∃ k, m % n = k := ⟨_, rfl⟩
  have hpos : (0 : ℚ) < n := by exact_mod_cast hn
  have hkn : (k : ℚ) < n := by exact_mod_cast hk ▸ Nat.mod_lt m hn
  have hm : (m : ℚ) / n = q + k / n := by
    have hd : (m : ℚ) = n * q + k := by exact_mod_cast (hq ▸ hk ▸ Nat.div_add_mod m n).symm
    rw [hd]
    field_simp
  rw [hm, hq, hk, accuracyOfFraction]
  split
  · rename_i hz
    simp [hz, Represents, ExtendedMantissa.ofMantissaAndAccuracy]
  · rename_i hz
    have hk0 : (0 : ℚ) < k / n := by
      have : (0 : ℚ) < k := by exact_mod_cast Nat.pos_of_ne_zero hz
      positivity
    have hk1 : (k : ℚ) / n < 1 := (div_lt_one hpos).2 hkn
    rcases lt_trichotomy (2 * k) n with h | h | h
    · rw [Nat.compare_eq_lt.2 h]
      have hh : (k : ℚ) / n < 1 / 2 := by
        rw [div_lt_div_iff₀ hpos two_pos]
        have : (2 * k : ℚ) < n := by exact_mod_cast h
        linarith
      constructor <;> simp only [ExtendedMantissa.ofMantissaAndAccuracy] <;> linarith
    · rw [Nat.compare_eq_eq.2 h]
      have hh : (k : ℚ) / n = 1 / 2 := by
        rw [div_eq_div_iff hpos.ne' two_ne_zero]
        have : (2 * k : ℚ) = n := by exact_mod_cast h
        linarith
      simp [hh, Represents, ExtendedMantissa.ofMantissaAndAccuracy]
    · rw [Nat.compare_eq_gt.2 h]
      have hh : 1 / 2 < (k : ℚ) / n := by
        rw [div_lt_div_iff₀ two_pos hpos]
        have : (n : ℚ) < 2 * k := by exact_mod_cast h
        linarith
      constructor <;> simp only [ExtendedMantissa.ofMantissaAndAccuracy] <;> linarith

theorem le_log2_quotient {k : ℕ} (hm : 0 < m) (hn : 0 < n) (h : n.log2 + 53 ≤ m.log2 + k) :
    52 ≤ (m * 2 ^ k / n).log2 := by
  have hle : 2 ^ 52 ≤ m * 2 ^ k / n := by
    rw [Nat.le_div_iff_mul_le hn]
    calc 2 ^ 52 * n ≤ 2 ^ 52 * 2 ^ (n.log2 + 1) := Nat.mul_le_mul_left _ Nat.lt_log2_self.le
      _ = 2 ^ (n.log2 + 53) := by rw [← pow_add]; congr 1; omega
      _ ≤ 2 ^ (m.log2 + k) := Nat.pow_le_pow_right two_pos h
      _ = 2 ^ m.log2 * 2 ^ k := pow_add _ _ _
      _ ≤ m * 2 ^ k := Nat.mul_le_mul_right _ (Nat.log2_self_le hm.ne')
  exact (Nat.le_log2 (by omega)).2 hle

theorem exists_divCore (hm : 0 < m) (hn : 0 < n) (e f : ℤ) : ∃ (t : ℤ) (k : ℕ), e - f = t + k ∧
    divCore .binary64 m e n f = (m * 2 ^ k / n, t, accuracyOfFraction (m * 2 ^ k % n) n) ∧
    t ≤ Format.binary64.targetExponent (totalExponent (m * 2 ^ k / n) t) := by
  obtain ⟨t, ht⟩ : ∃ t, min (e - f) (Format.binary64.targetExponent
      (totalExponent m e - totalExponent n f)) = t := ⟨_, rfl⟩
  obtain ⟨k, hk⟩ : ∃ k : ℕ, e - f = t + k := ⟨(e - f - t).toNat, by omega⟩
  have hshift : (e - f - t).toNat = k := by omega
  refine ⟨t, k, hk, ?_, ?_⟩
  · simp only [divCore, ht, hshift, Nat.shiftLeft_eq]
  · rw [targetExponent_eq]
    simp only [Format.targetExponent, totalExponent, Format.mantissaBits,
      Format.minExponent] at ht
    norm_num at ht
    rcases le_or_gt t (-1074) with hle | hgt
    · omega
    · have := le_log2_quotient (k := k) hm hn (by omega)
      omega

theorem exists_nearest_div (hm : 0 < m) (hn : 0 < n) (e f : ℤ) : ∃ (k : ℕ) (t : ℤ) (q : ℚ),
    Holds (UnpackedFloat.div .binary64 (.finite .positive m e hm) (.finite .positive n f hn))
      (k * 2 ^ t) ∧ Nearest k t q ∧ q * 2 ^ t = m * 2 ^ e / (n * 2 ^ f) := by
  obtain ⟨t, k, hk, hcore, he⟩ := exists_divCore hm hn e f
  have hv : ((m * 2 ^ k : ℕ) / n : ℚ) * 2 ^ t = m * 2 ^ e / (n * 2 ^ f) := by
    have hn0 : (n : ℚ) ≠ 0 := by exact_mod_cast hn.ne'
    have hpow : (2 : ℚ) ^ k * 2 ^ t = 2 ^ e / 2 ^ f := by
      rw [← zpow_natCast, ← zpow_add₀ two_ne_zero, ← zpow_sub₀ two_ne_zero]
      congr 1
      omega
    push_cast
    rw [div_mul_eq_mul_div, mul_assoc, hpow]
    field_simp
  rw [← hv]
  simp only [UnpackedFloat.div, hcore]
  exact exists_nearest (represents_quotient (m := m * 2 ^ k) hn) he

theorem Is.div (hx : Is x a) (hy : Is y b) (hb : 0 < b) (h : a / b ≤ 2 ^ 64) :
    ∃ r, Is (x / y) r ∧ Rounds r (a / b) := by
  refine is_of_rounds (u := UnpackedFloat.div .binary64 x.toModel.unpack y.toModel.unpack) ?_ h
  clear h
  unfold Is at hx hy
  generalize x.toModel.unpack = u at hx ⊢
  generalize y.toModel.unpack = z at hy ⊢
  cases hy with
  | zero s => exact absurd hb (lt_irrefl 0)
  | @finite n f hn hn' =>
    cases hx with
    | zero s =>
      rw [zero_div]
      exact exists_holds_zero _
    | @finite m e hm hm' =>
      obtain ⟨k, t, q, hk, hq, hv⟩ := exists_nearest_div hm hn e f
      exact ⟨_, hk, hv ▸ hq.rounds⟩

theorem log2_mul_two_pow (hm : 0 < m) (k : ℕ) : (m * 2 ^ k).log2 = m.log2 + k := by
  have hpos := Nat.two_pow_pos k
  rw [Nat.log2_eq_iff (Nat.mul_pos hm hpos).ne', add_right_comm, pow_add, pow_add]
  exact ⟨Nat.mul_le_mul_right _ (Nat.log2_self_le hm.ne'),
    Nat.mul_lt_mul_of_pos_right Nat.lt_log2_self hpos⟩

theorem holds_round (hm : 0 < m) (e : ℤ) :
    ∃ r, Holds (UnpackedFloat.round .binary64 .positive m e) r ∧ Rounds r (m * 2 ^ e) := by
  obtain ⟨t, ht⟩ : ∃ t, Format.binary64.targetExponent (totalExponent m e) = t := ⟨_, rfl⟩
  obtain ⟨k, hk⟩ : ∃ k : ℕ, (e - t).toNat = k := ⟨_, rfl⟩
  have he : e - k ≤ Format.binary64.targetExponent (totalExponent (m * 2 ^ k) (e - k)) := by
    rw [targetExponent_eq] at ht ⊢
    rw [log2_mul_two_pow hm]
    omega
  have hr := holds_roundWithAccuracy (represents_exact (m * 2 ^ k)) he
  have hv : ((m * 2 ^ k : ℕ) : ℚ) * 2 ^ (e - k) = m * 2 ^ e := by
    rw [zpow_sub₀ two_ne_zero, zpow_natCast]
    push_cast
    field_simp
  rw [hv] at hr
  simp only [UnpackedFloat.round, ht, decreaseExponent, hk, Nat.shiftLeft_eq]
  exact hr

theorem holds_normalize (m : ℕ) (e : ℤ) (s : Sign) :
    ∃ r, Holds (UnpackedFloat.normalize .binary64 m e s) r ∧ Rounds r (m * 2 ^ e) := by
  unfold UnpackedFloat.normalize
  rcases Nat.eq_zero_or_pos m with rfl | hm
  · simp only [Nat.cast_zero, zero_mul]
    exact exists_holds_zero s
  · have hc : compare (m : ℤ) 0 = .gt := Int.compare_eq_gt.2 (by omega)
    rw [hc]
    exact holds_round hm e

theorem is_toFloat (n : UInt64) : ∃ r, Is n.toFloat r ∧ Rounds r n.toNat := by
  have h := holds_normalize n.toNat 0 .positive
  rw [zpow_zero, mul_one] at h
  refine is_of_rounds h ?_
  exact_mod_cast n.toNat_lt.le

theorem is_natCast {k : ℕ} (h : k ≤ 2 ^ 53) : Is k.toUInt64.toFloat k := by
  obtain ⟨r, hr, hround⟩ := is_toFloat k.toUInt64
  have hk : k.toUInt64.toNat = k := UInt64.toNat_ofNat_of_lt (h.trans_lt (by norm_num))
  rw [hk] at hround
  rwa [hround.eq (isDouble_natCast h)] at hr

theorem Is.add (hx : Is x a) (hy : Is y b) (h : a + b ≤ 2 ^ 64) :
    ∃ r, Is (x + y) r ∧ Rounds r (a + b) := by
  refine is_of_rounds (u := UnpackedFloat.add .binary64 x.toModel.unpack y.toModel.unpack) ?_ h
  clear h
  unfold Is at hx hy
  generalize x.toModel.unpack = u at hx ⊢
  generalize y.toModel.unpack = z at hy ⊢
  cases hx with
  | zero s =>
    rw [zero_add]
    cases hy with
    | zero s' =>
      simp only [UnpackedFloat.add]
      split <;> exact exists_holds_zero _
    | finite hn hn' => exact ⟨_, .finite hn hn', .refl (Holds.finite hn hn').isDouble⟩
  | @finite m e hm hm' =>
    cases hy with
    | zero s' =>
      rw [add_zero]
      exact ⟨_, .finite hm hm', .refl (Holds.finite hm hm').isDouble⟩
    | @finite n f hn hn' =>
      -- at the smaller exponent the sum of the mantissas is exact
      obtain ⟨t, ht⟩ : ∃ t, min e f = t := ⟨_, rfl⟩
      obtain ⟨k, hk⟩ : ∃ k : ℕ, e = t + k := ⟨(e - t).toNat, by omega⟩
      obtain ⟨l, hl⟩ : ∃ l : ℕ, f = t + l := ⟨(f - t).toNat, by omega⟩
      have hke : (e - t).toNat = k := by omega
      have hlf : (f - t).toNat = l := by omega
      have hr := holds_normalize (m * 2 ^ k + n * 2 ^ l) t .positive
      have hv : ((m * 2 ^ k + n * 2 ^ l : ℕ) : ℚ) * 2 ^ t = m * 2 ^ e + n * 2 ^ f := by
        rw [hk, hl, zpow_add₀ two_ne_zero, zpow_add₀ two_ne_zero, zpow_natCast, zpow_natCast]
        push_cast
        ring
      rw [hv] at hr
      simp only [UnpackedFloat.add, ht, decreaseExponent, hke, hlf, Nat.shiftLeft_eq]
      exact hr

theorem exists_roundToInt (m : ℕ) (e : ℤ) : ∃ k : ℕ, roundToInt .positive m e = k ∧
    (k : ℚ) ≤ m * 2 ^ e ∧ (m : ℚ) * 2 ^ e < k + 1 := by
  obtain ⟨k, hk⟩ : ∃ k : ℕ, (e - 0).toNat = k := ⟨_, rfl⟩
  obtain ⟨l, hl⟩ : ∃ l : ℕ, (0 - (e - k)).toNat = l := ⟨_, rfl⟩
  have hr := (represents_exact (m * 2 ^ k)).shiftRight l
  have hv : ((m * 2 ^ k : ℕ) : ℚ) / 2 ^ l = m * 2 ^ e := by
    have he : e = k - l := by omega
    rw [he, zpow_sub₀ two_ne_zero, zpow_natCast, zpow_natCast]
    push_cast
    ring
  rw [hv] at hr
  refine ⟨_, ?_, hr.bounds⟩
  simp only [roundToInt, decreaseExponent, hk, shiftToExponent, hl, Nat.shiftLeft_eq]
  rfl

theorem Is.bounds_toUInt64 (hx : Is x v) (hv : v < 2 ^ 64) :
    (x.toUInt64.toNat : ℚ) ≤ v ∧ v < x.toUInt64.toNat + 1 := by
  have clamped {k : ℕ} (hk : x.toModel.unpack.toInt 0 (UInt64.size - 1) = k) (hlo : (k : ℚ) ≤ v)
      (hhi : v < k + 1) : (x.toUInt64.toNat : ℚ) ≤ v ∧ v < x.toUInt64.toNat + 1 := by
    have hlt : k < 2 ^ 64 := by exact_mod_cast hlo.trans_lt hv
    have he : x.toUInt64.toNat = k := by
      change (UInt64.ofNatClamp (x.toModel.unpack.toInt 0 (UInt64.size - 1)).toNat).toNat = k
      rw [hk]
      exact UInt64.toNat_ofNatClamp_of_lt hlt
    rw [he]
    exact ⟨hlo, hhi⟩
  unfold Is at hx
  generalize x.toModel.unpack = u at hx clamped
  cases hx with
  | zero s => exact clamped (k := 0) rfl (by norm_num) (by norm_num)
  | @finite m e hm hc =>
    obtain ⟨k, hk, hlo, hhi⟩ := exists_roundToInt m e
    exact clamped hk hlo hhi

end Operations

section Special

theorem is_one : Is 1.0 1 := by
  have h : (1.0 : Float).toModel.unpack = .finite .positive (2 ^ 52) (-52) (by norm_num) := rfl
  have hv : ((2 ^ 52 : ℕ) : ℚ) * 2 ^ (-52 : ℤ) = 1 := by norm_num
  rw [Is, h, ← hv]
  exact .finite _ ⟨by norm_num, by norm_num, .inl le_rfl⟩

theorem of_not_lt_one (h : ¬ x < 1.0) :
    (∃ b, Is x b ∧ 1 ≤ b) ∨ x.toModel.unpack = .infinity .positive ∨ x.isNaN = true := by
  have below (hlt : UnpackedFloat.lt x.toModel.unpack (1.0 : Float).toModel.unpack = true) : False :=
    h (decide_eq_true_iff.2 hlt)
  have atLeast {v : ℚ} (hx : Is x v) : ∃ b, Is x b ∧ 1 ≤ b :=
    ⟨v, hx, not_lt.1 fun hv => h ((hx.lt_iff is_one).2 hv)⟩
  rcases hu : x.toModel.unpack with s | _ | s | ⟨s, m, e, hm⟩
  · cases s with
    | positive => exact .inr (.inl rfl)
    | negative => exact (below (by rw [hu]; rfl)).elim
  · refine .inr (.inr ?_)
    change UnpackedFloat.isNaN x.toModel.unpack = true
    rw [hu]
    rfl
  · refine .inl (atLeast (v := 0) ?_)
    rw [Is, hu]
    exact .zero s
  · cases s with
    | positive =>
      refine .inl (atLeast (v := m * 2 ^ e) ?_)
      rw [Is, hu]
      exact .finite hm (canonical_of_unpack hu)
    | negative => exact (below (by rw [hu]; rfl)).elim

theorem Is.div_infinity (hx : Is x a) (hy : y.toModel.unpack = .infinity .positive) :
    Is (x / y) 0 := by
  change Holds (Float.Model.pack (UnpackedFloat.div .binary64 x.toModel.unpack
    y.toModel.unpack)).unpack 0
  rw [hy]
  unfold Is at hx
  generalize x.toModel.unpack = u at hx ⊢
  have packed (s : Sign) : Holds (Float.Model.pack (.zero s)).unpack 0 := by
    rw [(Holds.zero s).unpack_pack (by norm_num)]
    exact .zero s
  cases hx <;> exact packed _

theorem isNaN_iff : x.isNaN = true ↔ x.toModel.unpack = .notANumber := UnpackedFloat.isNaN_iff

theorem isNaN_pack (h : u = .notANumber) : (Float.ofModel (.pack u)).isNaN = true := by
  rw [isNaN_iff, h]
  rfl

theorem isNaN_mul (hy : y.isNaN = true) : (x * y).isNaN = true := by
  rw [isNaN_iff] at hy
  refine isNaN_pack (u := UnpackedFloat.mul .binary64 x.toModel.unpack y.toModel.unpack) ?_
  rw [hy]
  cases x.toModel.unpack <;> rfl

theorem isNaN_div_left (hx : x.isNaN = true) : (x / y).isNaN = true := by
  rw [isNaN_iff] at hx
  refine isNaN_pack (u := UnpackedFloat.div .binary64 x.toModel.unpack y.toModel.unpack) ?_
  rw [hx]
  cases y.toModel.unpack <;> rfl

theorem isNaN_div_right (hy : y.isNaN = true) : (x / y).isNaN = true := by
  rw [isNaN_iff] at hy
  refine isNaN_pack (u := UnpackedFloat.div .binary64 x.toModel.unpack y.toModel.unpack) ?_
  rw [hy]
  cases x.toModel.unpack <;> rfl

theorem not_le_of_isNaN (hx : x.isNaN = true) : ¬ x ≤ y := by
  rw [isNaN_iff] at hx
  have hd : x ≤ y ↔ UnpackedFloat.le x.toModel.unpack y.toModel.unpack = true := decide_eq_true_iff
  rw [hd, hx]
  exact Bool.false_ne_true

theorem toUInt64_of_isNaN (hx : x.isNaN = true) : x.toUInt64.toNat = 0 := by
  rw [isNaN_iff] at hx
  change (UInt64.ofNatClamp (x.toModel.unpack.toInt 0 (UInt64.size - 1)).toNat).toNat = 0
  rw [hx]
  rfl

end Special

end CatalogCrawl.Double

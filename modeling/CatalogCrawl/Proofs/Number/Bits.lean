import CatalogCrawl.Number.Binary
import CatalogCrawl.Proofs.Number.Double

namespace CatalogCrawl.Double

open Float.Model UnpackedFloat
open Number (shape)

variable {x y : Float} {d : Number.Dyadic} {m : ℕ} {e : ℤ}

section Shapes

theorem eq_of_shape (h : shape x = shape y) (hn : shape x ≠ .nan) : x = y := by
  have hbits : x.toBits.toNat = y.toBits.toNat := by
    have hx := x.toBits.toNat_lt
    have hy := y.toBits.toNat_lt
    unfold shape Number.fractionSize Number.half64 at h hn
    generalize x.toBits.toNat = b at *
    generalize y.toBits.toNat = c at *
    simp only at h hn
    split_ifs at h hn <;> first | exact absurd rfl hn | (simp at h; omega)
  obtain ⟨⟨a, ha⟩⟩ := x
  obtain ⟨⟨b, hb⟩⟩ := y
  obtain rfl : a = b := UInt64.toNat_inj.1 hbits
  rfl

theorem canonical_of_shape (h : shape x = .finite d) : Canonical d.mantissa d.exponent := by
  unfold shape Number.fractionSize at h
  generalize x.toBits.toNat = b at h
  simp only at h
  split_ifs at h with h1 h2 h3
  · cases h
    refine ⟨?_, le_rfl, .inr rfl⟩
    simp only
    omega
  · cases h
    refine ⟨?_, ?_, .inl ?_⟩ <;> simp only <;> omega

theorem exponent_le_of_shape (h : shape x = .finite d) : d.exponent ≤ 971 := by
  unfold shape Number.fractionSize at h
  generalize x.toBits.toNat = b at h
  simp only at h
  split_ifs at h with h1 h2 h3
  · cases h
    norm_num
  · cases h
    simp only
    omega

end Shapes

section Bits

theorem toNat_packComponents (s : Sign) (b : BitVec 11) (f : BitVec 52) :
    (packComponents .binary64 s b f).toNat =
      s.toBitVec.toNat * 2 ^ 63 + b.toNat * 2 ^ 52 + f.toNat := by
  change (s.toBitVec ++ b ++ f).toNat = _
  rw [BitVec.toNat_append, BitVec.toNat_append, ← Nat.shiftLeft_add_eq_or_of_lt f.isLt,
    ← Nat.shiftLeft_add_eq_or_of_lt b.isLt, Nat.shiftLeft_eq, Nat.shiftLeft_eq]
  ring

def isNegative : Sign → Bool
  | .negative => true
  | .positive => false

theorem shape_of_bits {s : Sign} {k f : ℕ} (hk : k < 2047) (hf : f < 2 ^ 52)
    (h : x.toBits.toNat = s.toBitVec.toNat * 2 ^ 63 + k * 2 ^ 52 + f) :
    shape x = .finite (if k = 0 then ⟨isNegative s, f, -1074⟩
      else ⟨isNegative s, f + 2 ^ 52, k - 1075⟩) := by
  have hs : s.toBitVec.toNat = if isNegative s then 1 else 0 := by cases s <;> rfl
  have hbiased : x.toBits.toNat / 4503599627370496 % 2048 = k := by omega
  have hfraction : x.toBits.toNat % 4503599627370496 = f := by omega
  have hnegative : decide (9223372036854775808 ≤ x.toBits.toNat) = isNegative s := by
    cases s <;> simp [isNegative] at hs ⊢ <;> omega
  unfold shape Number.fractionSize Number.half64
  simp only [hbiased, hfraction, hnegative, if_neg hk.ne]
  split <;> rfl

theorem toNat_unpackExponent (b : BitVec 64) :
    (@unpackExponent .binary64 b).toNat = b.toNat / 2 ^ 52 % 2048 := by
  simp [unpackExponent, Nat.shiftRight_eq_div_pow]

theorem toNat_unpackMantissa (b : BitVec 64) :
    (@unpackMantissa .binary64 b).toNat = b.toNat % 2 ^ 52 := by
  simp [unpackMantissa]

theorem shape_pack (s : Sign) (hm : 0 < m) (hc : Canonical m e) (he : e ≤ 971) :
    shape (.ofModel (.pack (.finite s m e hm))) = .finite ⟨isNegative s, m, e⟩ := by
  have hlt := hc.lt
  have hge := hc.ge
  have hbits : (Float.ofModel (.pack (.finite s m e hm))).toBits.toNat =
    (UnpackedFloat.pack .binary64 (.finite s m e hm)).toNat := rfl
  rcases Nat.lt_or_ge m (2 ^ 52) with hsub | hnormal
  · obtain rfl := hc.least.resolve_left (by omega)
    rw [pack_of_subnormal s hm hsub, toNat_packComponents, BitVec.toNat_ofNat, BitVec.toNat_ofNat,
      Nat.mod_eq_of_lt hsub] at hbits
    exact shape_of_bits (by norm_num) hsub hbits
  · obtain ⟨k, hk⟩ : ∃ k : ℕ, e + 1023 + 52 = k := ⟨(e + 1075).toNat, by omega⟩
    have hk' : k % 2 ^ 11 = k := Nat.mod_eq_of_lt (by omega)
    have hf : m % 2 ^ 52 < 2 ^ 52 := Nat.mod_lt m (by norm_num)
    rw [pack_of_normal s hm hnormal hlt hk (by omega), toNat_packComponents, BitVec.toNat_ofNat,
      BitVec.toNat_ofNat, hk'] at hbits
    have hm' : m % 2 ^ 52 + 2 ^ 52 = m := by omega
    have he' : (k : ℤ) - 1075 = e := by omega
    rw [shape_of_bits (by omega) hf hbits, if_neg (by omega), hm', he']

theorem isNaN_of_shape (h : shape x = .nan) : x.isNaN = true := by
  have hbits : x.toBits.toNat / 2 ^ 52 % 2048 = 2047 ∧ x.toBits.toNat % 2 ^ 52 ≠ 0 := by
    unfold shape Number.fractionSize at h
    simp only at h
    split_ifs at h with h1 h2
    exact ⟨h1, h2⟩
  have hexp : @unpackExponent .binary64 x.toBits.toBitVec = -1#11 :=
    BitVec.eq_of_toNat_eq ((toNat_unpackExponent _).trans hbits.1)
  have hmant : @unpackMantissa .binary64 x.toBits.toBitVec ≠ 0#52 := fun hz =>
    hbits.2 ((toNat_unpackMantissa _).symm.trans (congrArg BitVec.toNat hz))
  rw [isNaN_iff]
  change UnpackedFloat.unpack .binary64 x.toBits.toBitVec = _
  unfold UnpackedFloat.unpack
  exact (if_pos hexp).trans (if_neg hmant)

theorem eq_pack_of_shape (h : shape x = .finite d) (hd : 0 < d.mantissa) :
    ∃ s, x = .ofModel (.pack (.finite s d.mantissa d.exponent hd)) := by
  have hpack (s : Sign) (hs : isNegative s = d.negative) :
      x = .ofModel (.pack (.finite s d.mantissa d.exponent hd)) := by
    have hshape := shape_pack s hd (canonical_of_shape h) (exponent_le_of_shape h)
    rw [hs] at hshape
    exact eq_of_shape (h.trans hshape.symm) fun hn => by rw [h] at hn; cases hn
  cases hs : d.negative with
  | true => exact ⟨.negative, hpack .negative hs.symm⟩
  | false => exact ⟨.positive, hpack .positive hs.symm⟩

theorem shape_zero : shape 0.0 = .finite ⟨false, 0, -1074⟩ := by decide +kernel

theorem shape_negZero : shape (-0.0) = .finite ⟨true, 0, -1074⟩ := by decide +kernel

theorem eq_zero_of_shape (h : shape x = .finite d) (hd : d.mantissa = 0) :
    x = if d.negative then -0.0 else 0.0 := by
  have he : d.exponent = -1074 :=
    (canonical_of_shape h).least.resolve_left (by rw [hd]; norm_num)
  obtain ⟨negative, m, e⟩ := d
  obtain rfl : m = 0 := hd
  obtain rfl : e = -1074 := he
  have hn : shape x ≠ .nan := fun hn => by rw [h] at hn; cases hn
  cases negative with
  | true => exact eq_of_shape (h.trans shape_negZero.symm) hn
  | false => exact eq_of_shape (h.trans shape_zero.symm) hn

theorem shape_infinity : shape (1.0 / 0.0) = .infinite false := by decide +kernel

theorem shape_negInfinity : shape (-1.0 / 0.0) = .infinite true := by decide +kernel

theorem beq_infinity (h : shape x = .finite d) : (x == 1.0 / 0.0) = false := by
  rcases Nat.eq_zero_or_pos d.mantissa with hd | hd
  · rw [eq_zero_of_shape h hd]
    cases d.negative <;> decide +kernel
  · obtain ⟨s, rfl⟩ := eq_pack_of_shape h hd
    have hu := unpack_pack_of_canonical s hd (canonical_of_shape h) (exponent_le_of_shape h)
    have hi : (1.0 / 0.0 : Float).toModel.unpack = .infinity .positive := rfl
    change UnpackedFloat.beq (Float.Model.unpack _) (1.0 / 0.0 : Float).toModel.unpack = false
    rw [hu, hi]
    cases s <;> rfl

end Bits

end CatalogCrawl.Double

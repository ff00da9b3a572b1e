import CatalogCrawl.Config.Check
import CatalogCrawl.Proofs.Crawl.Backoff
import CatalogCrawl.Proofs.Number.Double

namespace CatalogCrawl

open Double

variable {s : Span} {x : Float} {p r v : ℚ} {k q j d : ℕ}

/-- A double holds all nanoseconds of the span as they are, and also those of its whole seconds,
because it is not longer than 146 years. -/
structure Span.IsExact (s : Span) : Prop where
  isDouble : IsDouble s.nanos
  le : s.nanos ≤ 2 ^ 62

theorem Span.isExact_of_le (h : s.nanos ≤ 2 ^ 53) : s.IsExact :=
  ⟨isDouble_natCast h, h.trans (by norm_num)⟩

theorem nat_eq_of_bounds {m n : ℕ} (hm : (m : ℚ) ≤ v) (hm' : v < m + 1) (hn : (n : ℚ) ≤ v)
    (hn' : v < n + 1) : m = n := by
  have h : m < n + 1 := by exact_mod_cast hm.trans_lt hn'
  have h' : n < m + 1 := by exact_mod_cast hn.trans_lt hm'
  omega

theorem Double.IsDouble.floor (hp : IsDouble p) (hlo : (k : ℚ) ≤ p) (hhi : p < k + 1) :
    IsDouble k := by
  rcases le_or_gt p (2 ^ 53) with hle | hgt
  · have hk : (k : ℚ) ≤ (2 ^ 53 : ℕ) := by exact_mod_cast hlo.trans hle
    exact isDouble_natCast (by exact_mod_cast hk)
  · -- beyond 2^53 doubles are whole numbers
    obtain ⟨m, e, hm, -, rfl⟩ := id hp
    have he : 0 < e := by
      have hm' : (m : ℚ) < 2 ^ (53 : ℤ) := by exact_mod_cast hm
      have hlt : (2 : ℚ) ^ (53 : ℤ) < 2 ^ (53 + e) := by
        rw [zpow_add₀ two_ne_zero]
        exact lt_of_lt_of_le (by exact_mod_cast hgt) (by gcongr)
      have := (zpow_lt_zpow_iff_right₀ (one_lt_two (α := ℚ))).1 hlt
      omega
    obtain ⟨l, rfl⟩ : ∃ l : ℕ, e = l := ⟨e.toNat, by omega⟩
    have hv : (m : ℚ) * 2 ^ (l : ℤ) = (m * 2 ^ l : ℕ) := by
      push_cast
      rw [zpow_natCast]
    have hk : k = m * 2 ^ l := nat_eq_of_bounds hlo hhi hv.ge (by rw [hv]; linarith)
    rwa [hk, ← hv]

namespace Backoff

theorem is_nanosInSec : Is nanosInSec 1000000000 := by
  have h : nanosInSec.toModel.unpack =
      .finite .positive 8388608000000000 (-23) (by norm_num) := rfl
  have hv : ((8388608000000000 : ℕ) : ℚ) * 2 ^ (-23 : ℤ) = 1000000000 := by norm_num
  rw [Is, h, ← hv]
  exact .finite _ ⟨by norm_num, by norm_num, .inl (by norm_num)⟩

theorem isDouble_secs (h : k * Span.nanosInSec ≤ 2 ^ 62) : IsDouble (k * 1000000000) := by
  -- a second has 1953125 * 2^9 nanoseconds
  have hk : k * 1953125 ≤ 2 ^ 53 := by
    rw [Span.nanosInSec] at h
    linarith
  have hd := isDouble_mul_zpow (t := 9) hk (by norm_num)
  have hv : ((k * 1953125 : ℕ) : ℚ) * 2 ^ (9 : ℤ) = k * 1000000000 := by
    push_cast
    ring
  rwa [hv] at hd

theorem is_toReal (h : s.IsExact) : Is (toReal s) s.nanos := by
  have hparts := congrArg Span.nanos s.ofParts_secs_subsec
  simp only [Span.ofParts] at hparts
  have hn : (s.secs : ℚ) * 1000000000 + s.subsec = s.nanos := by exact_mod_cast hparts
  have hle := h.le
  have hmax : (s.nanos : ℚ) ≤ 2 ^ 62 := by exact_mod_cast hle
  have hsub : (0 : ℚ) ≤ s.subsec := by positivity
  have hsubsec : s.subsec < Span.nanosInSec := Nat.mod_lt _ (by decide)
  have hsecs : s.secs * Span.nanosInSec ≤ 2 ^ 62 := by omega
  simp only [Span.nanosInSec] at hsubsec
  obtain ⟨r, hr, hround⟩ := (is_natCast (k := s.secs) (by
    simp only [Span.nanosInSec] at hsecs
    omega)).mul is_nanosInSec (by linarith)
  rw [hround.eq (isDouble_secs hsecs)] at hr
  obtain ⟨r', hr', hround'⟩ := hr.add (is_natCast (k := s.subsec) (by omega)) (by linarith)
  rw [hn] at hround'
  rwa [hround'.eq h.isDouble] at hr'

theorem exists_magnitude (h : q < 2 ^ 33) :
    ∃ j d, j + d = 53 ∧ j ≤ 33 ∧ q + 1 ≤ 2 ^ j ∧ 2 ^ j < 2 * (q + 1) := by
  rcases Nat.eq_zero_or_pos q with rfl | hq
  · exact ⟨0, 53, rfl, by norm_num, le_rfl, by norm_num⟩
  · have hlog : q.log2 < 33 := (Nat.log2_lt hq.ne').2 h
    have hlo := Nat.log2_self_le hq.ne'
    refine ⟨q.log2 + 1, 52 - q.log2, by omega, by omega, Nat.lt_log2_self, ?_⟩
    rw [pow_succ]
    omega

theorem le_of_isDouble_lt {n : ℕ} (hp : IsDouble p) (hjd : j + d = 53) (hj : j ≤ 33)
    (hlo : (2 : ℚ) ^ (28 + j) ≤ p) (h : p < n * 2 ^ 9) :
    p + 2 ^ 29 * ((2 : ℚ) ^ d)⁻¹ ≤ n * 2 ^ 9 := by
  obtain ⟨m, e, hm, -, rfl⟩ := hp
  have hexp : (j : ℤ) - 24 ≤ e := by
    have hm' : (m : ℚ) < 2 ^ (53 : ℤ) := by exact_mod_cast hm
    have hlt : (2 : ℚ) ^ ((28 + j : ℕ) : ℤ) < 2 ^ (53 + e) := by
      rw [zpow_natCast, zpow_add₀ two_ne_zero]
      exact hlo.trans_lt (by gcongr)
    have := (zpow_lt_zpow_iff_right₀ (one_lt_two (α := ℚ))).1 hlt
    omega
  -- both are multiples of 2^(29 - d)
  have hunit : 2 ^ 29 * ((2 : ℚ) ^ d)⁻¹ = 2 ^ ((29 : ℤ) - d) := by
    rw [zpow_sub₀ two_ne_zero, zpow_natCast]
    rfl
  obtain ⟨k, rfl⟩ : ∃ k : ℕ, e = k + (29 - d) := ⟨(e - (29 - d)).toNat, by omega⟩
  obtain ⟨l, hl⟩ : ∃ l : ℕ, (9 : ℤ) = l + (29 - d) := ⟨(9 - (29 - d : ℤ)).toNat, by omega⟩
  have hpos : (0 : ℚ) < 2 ^ ((29 : ℤ) - d) := by positivity
  have hv : (m : ℚ) * 2 ^ (k + ((29 : ℤ) - d)) = (m * 2 ^ k : ℕ) * 2 ^ ((29 : ℤ) - d) := by
    rw [zpow_add₀ two_ne_zero, zpow_natCast]
    push_cast
    ring
  have hn : (n : ℚ) * 2 ^ 9 = (n * 2 ^ l : ℕ) * 2 ^ ((29 : ℤ) - d) := by
    have h9 : (2 : ℚ) ^ 9 = 2 ^ (9 : ℤ) := by norm_num
    rw [h9, hl, zpow_add₀ two_ne_zero, zpow_natCast]
    push_cast
    ring
  rw [hv, hn] at h
  rw [hunit, hv, hn]
  have hlt : ((m * 2 ^ k : ℕ) : ℚ) < (n * 2 ^ l : ℕ) := lt_of_mul_lt_mul_right h hpos.le
  have hle : ((m * 2 ^ k : ℕ) : ℚ) + 1 ≤ (n * 2 ^ l : ℕ) := by
    exact_mod_cast Nat.succ_le_of_lt (Nat.cast_lt.1 hlt)
  calc ((m * 2 ^ k : ℕ) : ℚ) * 2 ^ ((29 : ℤ) - d) + 2 ^ ((29 : ℤ) - d)
      = ((m * 2 ^ k : ℕ) + 1) * 2 ^ ((29 : ℤ) - d) := by ring
    _ ≤ (n * 2 ^ l : ℕ) * 2 ^ ((29 : ℤ) - d) := by gcongr

theorem isDouble_pred (hjd : j + d = 53) (hle : q + 1 ≤ 2 ^ j) :
    IsDouble ((q : ℚ) + 1 - (2 ^ d)⁻¹) := by
  have hpow : 2 ^ j * 2 ^ d = 2 ^ 53 := by rw [← pow_add, hjd]
  have hmant : (q + 1) * 2 ^ d ≤ 2 ^ 53 := hpow ▸ Nat.mul_le_mul_right _ hle
  have hone : 1 ≤ (q + 1) * 2 ^ d := Nat.mul_pos (Nat.succ_pos q) (by positivity)
  refine ⟨(q + 1) * 2 ^ d - 1, -d, by omega, by omega, ?_⟩
  rw [zpow_neg, zpow_natCast, Nat.cast_sub hone]
  push_cast
  field_simp

theorem lt_of_rounds_ge (hjd : j + d = 53) (hle : q + 1 ≤ 2 ^ j)
    (hr : Rounds r (p / 1000000000)) (hge : q + 1 ≤ r) :
    (q + 1) * 1000000000 - 2 ^ 29 * ((2 : ℚ) ^ d)⁻¹ < p := by
  by_contra hfar
  have hpos : (0 : ℚ) < (2 ^ d)⁻¹ := by positivity
  have hv : p / 1000000000 < q + 1 - (2 ^ d)⁻¹ / 2 := by
    rw [div_lt_iff₀ (by norm_num)]
    linarith
  -- the double before the whole number would be nearer
  have hw := isDouble_pred hjd hle
  have hwv : (q : ℚ) + 1 - (2 ^ d)⁻¹ < p / 1000000000 := by
    by_contra hvw
    have hrw := hr.le hw (not_lt.1 hvw)
    linarith
  have hnear := hr.nearest _ hw
  rw [abs_of_pos (by linarith), abs_of_neg (by linarith)] at hnear
  linarith

theorem quotient_lt (hp : IsDouble p) (hr : Rounds r (p / 1000000000)) (hq : q < 2 ^ 33)
    (h : p < (q + 1) * 1000000000) : r < q + 1 := by
  obtain ⟨j, d, hjd, hj, hle, hlt⟩ := exists_magnitude hq
  by_contra hge
  have hclose := lt_of_rounds_ge hjd hle hr (not_lt.1 hge)
  have hlow : (2 : ℚ) ^ (28 + j) ≤ p := by
    have hj' : (2 : ℚ) ^ j ≤ 2 * (q + 1) := by exact_mod_cast hlt.le
    have hunit : ((2 : ℚ) ^ d)⁻¹ ≤ (2 ^ 20)⁻¹ := by
      gcongr
      · norm_num
      · omega
    have hq0 : (0 : ℚ) ≤ q := by positivity
    rw [pow_add]
    linarith
  have hgap := le_of_isDouble_lt (n := (q + 1) * 1953125) hp hjd hj hlow (by push_cast; linarith)
  push_cast at hgap
  linarith

theorem toUInt64_quotient (hx : Is x p) (hq : q < 2 ^ 33) (hlo : q * 1000000000 ≤ p)
    (hhi : p < (q + 1) * 1000000000) : (x / nanosInSec).toUInt64.toNat = q := by
  have hq' : (q : ℚ) ≤ 2 ^ 33 := by exact_mod_cast hq.le
  have hsmall : p / 1000000000 ≤ 2 ^ 64 := by
    rw [div_le_iff₀ (by norm_num)]
    linarith
  obtain ⟨r, hr, hround⟩ := hx.div is_nanosInSec (by norm_num) hsmall
  have hrlo : (q : ℚ) ≤ r := by
    refine hround.ge (isDouble_natCast (by omega)) ?_
    rwa [le_div_iff₀ (by norm_num)]
  have hrhi := quotient_lt hx.isDouble hround hq hhi
  obtain ⟨hlo', hhi'⟩ := hr.bounds_toUInt64 (by linarith)
  exact nat_eq_of_bounds hlo' hhi' hrlo hrhi

theorem nanos_ofReal (hx : Is x p) (hp : p ≤ 2 ^ 62) :
    ((ofReal x).nanos : ℚ) ≤ p ∧ p < (ofReal x).nanos + 1 := by
  obtain ⟨hlo, hhi⟩ := hx.bounds_toUInt64 (by linarith)
  obtain ⟨k, hk⟩ : ∃ k, x.toUInt64.toNat = k := ⟨_, rfl⟩
  rw [hk] at hlo hhi
  have hk62 : k ≤ 2 ^ 62 := by exact_mod_cast hlo.trans hp
  obtain ⟨q, hq⟩ : ∃ q, k / 1000000000 = q := ⟨_, rfl⟩
  have hqlo : (q : ℚ) * 1000000000 ≤ k := by exact_mod_cast (by omega : q * 1000000000 ≤ k)
  have hqhi : (k : ℚ) + 1 ≤ (q + 1) * 1000000000 := by
    exact_mod_cast (by omega : k + 1 ≤ (q + 1) * 1000000000)
  have hs := toUInt64_quotient hx (q := q) (by omega) (by linarith) (by linarith)
  have hn : (ofReal x).nanos = k := by
    simp only [ofReal, Span.ofParts, hs, hk, Span.nanosInSec]
    omega
  rw [hn]
  exact ⟨hlo, hhi⟩

theorem isExact_ofReal (hx : Is x p) (hp : p ≤ 2 ^ 62) : (ofReal x).IsExact := by
  obtain ⟨hlo, hhi⟩ := nanos_ofReal hx hp
  exact ⟨hx.isDouble.floor hlo hhi, by exact_mod_cast hlo.trans hp⟩

theorem bounds_ofReal_mul {y z : Float} {m b : ℚ} (hx : Is x p) (hy : Is y m) (hz : Is z b)
    (hb : 1 ≤ b) (hm : m ≤ 2 ^ 62) (hgt : ¬ y / z ≤ x) :
    p < (ofReal (x * z)).nanos + 1 ∧ ((ofReal (x * z)).nanos : ℚ) ≤ m ∧
      (ofReal (x * z)).IsExact := by
  have hb0 : 0 < b := by linarith
  have hquot : m / b ≤ m := div_le_self hy.nonneg hb
  obtain ⟨r, hr, hround⟩ := hy.div hz hb0 (by linarith)
  rw [hr.le_iff hx, not_le] at hgt
  have hlt : p < m / b := by
    by_contra hle
    exact absurd (hround.le hx.isDouble (not_lt.1 hle)) (not_le.2 hgt)
  have hprod : p * b < m := (lt_div_iff₀ hb0).1 hlt
  obtain ⟨v, hv, hvround⟩ := hx.mul hz (by linarith)
  have hlo : p ≤ v := hvround.ge hx.isDouble (le_mul_of_one_le_right hx.nonneg hb)
  have hhi : v ≤ m := hvround.le hy.isDouble hprod.le
  obtain ⟨hn, hn'⟩ := nanos_ofReal hv (hhi.trans hm)
  exact ⟨hlo.trans_lt hn', hn.trans hhi, isExact_ofReal hv (hhi.trans hm)⟩

section Validated

variable {policy : RetryPolicy}

theorem multiplier_of_problems (h : policy.problems = []) (hn : policy.multiplier.isNaN = false) :
    (∃ b, Is policy.multiplier b ∧ 1 ≤ b) ∨
      policy.multiplier.toModel.unpack = .infinity .positive := by
  simp only [RetryPolicy.problems, List.append_eq_nil_iff] at h
  have hlt : ¬ policy.multiplier < 1.0 := by simpa [reportIf] using h.2
  rcases of_not_lt_one hlt with hb | hinf | hnan
  · exact .inl hb
  · exact .inr hinf
  · rw [hn] at hnan
    cases hnan

theorem initial_le_max_of_problems (h : policy.problems = []) :
    policy.initialInterval.nanos ≤ policy.maxInterval.nanos := by
  simp only [RetryPolicy.problems, List.append_eq_nil_iff] at h
  simpa [reportIf] using h.1

theorem grow_bounds (h : policy.problems = []) (hn : policy.multiplier.isNaN = false)
    (hm : policy.maxInterval.IsExact) (hs : s.IsExact) (hle : s.nanos ≤ policy.maxInterval.nanos) :
    s.nanos ≤ (grow policy s).nanos ∧ (grow policy s).nanos ≤ policy.maxInterval.nanos ∧
      (grow policy s).IsExact := by
  have hmax := is_toReal hm
  have hcur := is_toReal hs
  unfold grow
  simp only
  split
  · exact ⟨hle, le_rfl, hm⟩
  · rename_i hgt
    rcases multiplier_of_problems h hn with ⟨b, hb, hb1⟩ | hinf
    · have hm' : (policy.maxInterval.nanos : ℚ) ≤ 2 ^ 62 := by exact_mod_cast hm.le
      obtain ⟨hlo, hhi, hexact⟩ := bounds_ofReal_mul hcur hmax hb hb1 hm' hgt
      have hlo' : s.nanos < (ofReal (toReal s * policy.multiplier)).nanos + 1 := by
        exact_mod_cast hlo
      exact ⟨Nat.le_of_lt_succ hlo', by exact_mod_cast hhi, hexact⟩
    · exact absurd (((hmax.div_infinity hinf).le_iff hcur).2 hcur.nonneg) hgt

theorem grow_of_isNaN (h : policy.multiplier.isNaN = true) (s : Span) :
    grow policy s = .zero := by
  have hle := not_le_of_isNaN (y := toReal s) (isNaN_div_right (x := toReal policy.maxInterval) h)
  have hprod := isNaN_mul (x := toReal s) h
  unfold grow
  simp only
  rw [if_neg hle, ofReal, toUInt64_of_isNaN hprod, toUInt64_of_isNaN (isNaN_div_left hprod)]
  rfl

end Validated

end Backoff

namespace RetryPolicy

variable {policy : RetryPolicy}

def Steady (policy : RetryPolicy) : Prop :=
  policy.delays.Pairwise (fun d e => d.nanos ≤ e.nanos) ∧
    ∀ d ∈ policy.delays, d.nanos ≤ policy.maxInterval.nanos

instance (policy : RetryPolicy) : Decidable policy.Steady :=
  inferInstanceAs (Decidable (_ ∧ _))

theorem steady_iff : policy.Steady ↔
    (∀ i j, i < j → j < policy.maxRetries → (policy.delay i).nanos ≤ (policy.delay j).nanos) ∧
      ∀ i < policy.maxRetries, (policy.delay i).nanos ≤ policy.maxInterval.nanos := by
  simp only [Steady, delays, List.pairwise_iff_getElem, List.length_map, List.length_range,
    List.getElem_map, List.getElem_range, List.mem_map, List.mem_range, forall_exists_index,
    and_imp, forall_apply_eq_imp_iff₂]
  refine and_congr_left' ⟨fun h i j hij hj => h i j (hij.trans hj) hj hij, ?_⟩
  exact fun h i j _ hj hij => h i j hij hj

section Exact

variable (h : policy.problems = []) (hn : policy.multiplier.isNaN = false)
  (hi : policy.initialInterval.IsExact) (hm : policy.maxInterval.IsExact)

include h hn hi hm

theorem delay_bounds (n : ℕ) :
    (policy.delay n).nanos ≤ policy.maxInterval.nanos ∧ (policy.delay n).IsExact := by
  induction n with
  | zero => exact ⟨Backoff.initial_le_max_of_problems h, hi⟩
  | succ n ih => exact (Backoff.grow_bounds h hn hm ih.2 ih.1).2

theorem delay_monotone : Monotone fun n => (policy.delay n).nanos := by
  refine monotone_nat_of_le_succ fun n => ?_
  obtain ⟨hle, hexact⟩ := delay_bounds h hn hi hm n
  exact (Backoff.grow_bounds h hn hm hexact hle).1

theorem steady_of_isNaN_eq_false : policy.Steady :=
  steady_iff.2 ⟨fun _ _ hij _ => delay_monotone h hn hi hm hij.le,
    fun n _ => (delay_bounds h hn hi hm n).1⟩

end Exact

theorem delay_eq_zero (hn : policy.multiplier.isNaN = true) (hi : policy.initialInterval = .zero)
    (n : ℕ) : policy.delay n = .zero := by
  cases n with
  | zero => exact hi
  | succ n => exact Backoff.grow_of_isNaN hn _

theorem steady_of_initial_eq_zero (hn : policy.multiplier.isNaN = true)
    (hi : policy.initialInterval = .zero) : policy.Steady := by
  rw [steady_iff]
  simp only [delay_eq_zero hn hi]
  exact ⟨fun _ _ _ _ => le_rfl, fun _ _ => Nat.zero_le _⟩

theorem steady_of_maxRetries_le_one (h : policy.problems = []) (hr : policy.maxRetries ≤ 1) :
    policy.Steady := by
  refine steady_iff.2 ⟨fun i j hij hj => by omega, fun i hi => ?_⟩
  obtain rfl : i = 0 := by omega
  exact Backoff.initial_le_max_of_problems h

theorem not_steady_of_isNaN (hn : policy.multiplier.isNaN = true)
    (hi : policy.initialInterval ≠ .zero) (hr : 1 < policy.maxRetries) : ¬ policy.Steady := by
  intro hs
  have hzero : policy.delay 1 = .zero := Backoff.grow_of_isNaN hn _
  have hle := (steady_iff.1 hs).1 0 1 Nat.one_pos hr
  rw [hzero] at hle
  exact hi (congrArg Span.mk (Nat.le_zero.1 hle))

theorem steady_iff_of_problems (h : policy.problems = [])
    (hi : policy.initialInterval.IsExact) (hm : policy.maxInterval.IsExact) : policy.Steady ↔
      policy.multiplier.isNaN = false ∨ policy.initialInterval = .zero ∨ policy.maxRetries ≤ 1 := by
  rcases Bool.eq_false_or_eq_true policy.multiplier.isNaN with hn | hn
  · constructor
    · intro hs
      by_contra hcon
      simp only [not_or, not_le] at hcon
      exact not_steady_of_isNaN hn hcon.2.1 hcon.2.2 hs
    · rintro (hn' | hz | hr)
      · rw [hn] at hn'
        cases hn'
      · exact steady_of_initial_eq_zero hn hz
      · exact steady_of_maxRetries_le_one h hr
  · exact iff_of_true (steady_of_isNaN_eq_false h hn hi hm) (.inl hn)

end RetryPolicy

namespace CrawlerConfig

/-- However it is asked, a backoff gives the delays of its policy one after another, from the first
on after every reset, and nothing once it has given all. If doubles hold the first delay and the
longest, these delays are steady unless the factor is not a number, which settings that pass as
valid can have. -/
theorem backs_off (c : CrawlerConfig) (h : c.problems = []) :
    (∀ asks, let t := Backoff.play c.retry asks
      t.given = c.retry.delays.take (Backoff.asked asks) ∧
      t.backoff.retries = t.given.length ∧
      t.backoff.next.1 = c.retry.delays[Backoff.asked asks]?) ∧
    c.retry.delays.length = c.retry.maxRetries ∧
    (∀ d ∈ c.retry.delays.head?, d = c.retry.initialInterval) ∧
    (c.retry.initialInterval.IsExact → c.retry.maxInterval.IsExact → (c.retry.Steady ↔
      c.retry.multiplier.isNaN = false ∨ c.retry.initialInterval = .zero ∨
        c.retry.maxRetries ≤ 1)) := by
  have hr : c.retry.problems = [] := by
    simp only [problems, List.append_eq_nil_iff] at h
    exact h.1.2
  exact ⟨Backoff.play_gives c.retry, Backoff.length_delays _, Backoff.head_delays _,
    RetryPolicy.steady_iff_of_problems hr⟩

theorem backs_off_standard : standard.problems = [] ∧ standard.retry.initialInterval.IsExact ∧
    standard.retry.maxInterval.IsExact ∧ standard.retry.Steady :=
  have h : standard.problems = [] := rfl
  have hi : standard.retry.initialInterval.IsExact := Span.isExact_of_le (by decide)
  have hm : standard.retry.maxInterval.IsExact := Span.isExact_of_le (by decide)
  ⟨h, hi, hm, ((backs_off standard h).2.2.2 hi hm).2 (.inl rfl)⟩

def undefinedFactor : CrawlerConfig :=
  { standard with retry := { RetryPolicy.standard with multiplier := 0.0 / 0.0 } }

theorem not_steady_undefinedFactor : undefinedFactor.problems = [] ∧
    undefinedFactor.retry.delays = [.ofMillis 10, .zero, .zero, .zero, .zero] ∧
    ¬ undefinedFactor.retry.Steady := ⟨rfl, rfl, by decide +kernel⟩

def constantFrom (initial : Span) : CrawlerConfig :=
  { standard with retry := ⟨2, initial, ⟨2 ^ 63⟩, 1.0⟩ }

-- Even a factor of one shortens a delay that no double holds, or whose whole seconds none does.
theorem not_steady_constantFrom : ∀ initial ∈ [(⟨2 ^ 53 + 1⟩ : Span), ⟨2 ^ 62 + 2572612608⟩],
    (constantFrom initial).problems = [] ∧ ¬ (constantFrom initial).retry.Steady := by
  decide +kernel

end CrawlerConfig

end CatalogCrawl

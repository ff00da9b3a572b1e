import CatalogCrawl.Proofs.Cache.History

namespace CatalogCrawl.Store

variable {s : Store} {t : Reading} {ttl : Span}

theorem cutoff_eq_none_iff : cutoff? t.nanos ttl = none ↔ t.nanos - ttl.nanos < minReading := by
  constructor
  · exact cutoff_lt_of_none
  · intro h
    unfold cutoff?
    split
    · rfl
    · exact if_pos h

theorem Dated.expire_of_none (h : s.Dated) (hc : cutoff? t.nanos ttl = none) :
    s.expire t.nanos ttl = s ∧ ∀ k e, (k, e) ∈ s.entries → ¬ e.savedAt < t.nanos - ttl.nanos := by
  constructor
  · unfold expire
    rw [hc]
  · intro k e hm hlt
    have hs : minReading ≤ e.savedAt := h k e hm
    exact absurd (hs.trans_lt hlt) (cutoff_lt_of_none hc).not_gt

/-- At any reading and for any age, what was saved before the reading less the age, computed without
bounds, is removed and counted, and all else stays as it is in its order; where no cutoff can be
computed there is nothing to remove. -/
theorem Dated.expire_exact (h : s.Dated) (t : Reading) (ttl : Span) :
    (s.expire t.nanos ttl).entries =
      s.entries.filter (fun f => ¬ f.2.savedAt < t.nanos - ttl.nanos) ∧
    s.expiredCount t.nanos ttl = s.entries.countP (fun f => f.2.savedAt < t.nanos - ttl.nanos) ∧
    (s.expire t.nanos ttl).size + s.expiredCount t.nanos ttl = s.size ∧
    (∀ cutoff, cutoff? t.nanos ttl = some cutoff → cutoff = t.nanos - ttl.nanos) ∧
    (cutoff? t.nanos ttl = none ↔ t.nanos - ttl.nanos < minReading) ∧
    (maxAge < ttl.nanos → cutoff? t.nanos ttl = none) ∧
    (cutoff? t.nanos ttl = none →
      s.expire t.nanos ttl = s ∧ s.expiredCount t.nanos ttl = 0 ∧
        ∀ k e, (k, e) ∈ s.entries → ¬ e.savedAt < t.nanos - ttl.nanos) := by
  refine ⟨?_, h.expiredCount_eq t ttl, h.size_expire t ttl,
    fun cutoff => cutoff_eq_of_some, cutoff_eq_none_iff, fun ha => if_pos ha, fun hc => ?_⟩
  · rw [h.expire_eq]
    exact List.filter_congr fun f hf => by simp only [Int.not_lt]
  · obtain ⟨hs, hn⟩ := h.expire_of_none hc
    refine ⟨hs, ?_, hn⟩
    rw [expiredCount, hs, Nat.sub_self]

def spread : Store :=
  ⟨[("a", ⟨minReading, .plain "o" (.named "a")⟩), ("b", ⟨-60000000001, .plain "o" (.named "b")⟩),
    ("c", ⟨-60000000000, .plain "o" (.named "c")⟩), ("d", ⟨maxReading, .plain "o" (.named "d")⟩)]⟩

theorem spread_dated : spread.Dated := by
  intro k e hm
  simp only [spread, List.mem_cons, List.not_mem_nil, or_false, Prod.mk.injEq] at hm
  rcases hm with ⟨-, rfl⟩ | ⟨-, rfl⟩ | ⟨-, rfl⟩ | ⟨-, rfl⟩ <;> decide

def longest : Span := .ofParts (Number.word64 - 1) (Span.nanosInSec - 1)

theorem expire_exact_spread :
    spread.Dated ∧
    (spread.expire epoch.nanos (.ofSecs 60)).entries.map Prod.fst = ["c", "d"] ∧
    spread.expiredCount epoch.nanos (.ofSecs 60) = 2 ∧
    maxAge < longest.nanos ∧ spread.expire epoch.nanos longest = spread := by
  obtain ⟨he, hn, -⟩ := spread_dated.expire_exact epoch (.ofSecs 60)
  obtain ⟨-, -, -, -, -, hlong, hnone⟩ := spread_dated.expire_exact epoch longest
  have ha : maxAge < longest.nanos := by decide
  refine ⟨spread_dated, ?_, hn.trans (by decide), ha, (hnone (hlong ha)).1⟩
  rw [he]
  decide

end CatalogCrawl.Store

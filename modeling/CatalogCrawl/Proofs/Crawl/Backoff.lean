import Mathlib.Data.List.Induction
import CatalogCrawl.Crawl.Backoff

namespace CatalogCrawl

def RetryPolicy.delay (policy : RetryPolicy) : Nat → Span
  | 0 => policy.initialInterval
  | n + 1 => Backoff.grow policy (policy.delay n)

def RetryPolicy.delays (policy : RetryPolicy) : List Span :=
  (List.range policy.maxRetries).map policy.delay

namespace Backoff

variable {b : Backoff} {policy : RetryPolicy} {n : Nat}

def left (b : Backoff) : Nat := b.policy.maxRetries - b.retries

theorem next_of_left_eq_zero (h : b.left = 0) : b.next = (none, b) :=
  if_pos (Nat.le_of_sub_eq_zero h)

theorem next_of_left_pos (h : 0 < b.left) :
    b.next = (some b.interval, ⟨b.policy, grow b.policy b.interval, b.retries + 1⟩) :=
  if_neg (Nat.not_le.2 (Nat.lt_of_sub_pos h))

theorem left_of_next {delay : Span} {rest : Backoff} (h : b.next = (some delay, rest)) :
    rest.left + 1 = b.left := by
  rcases Nat.eq_zero_or_pos b.left with hl | hl
  · rw [next_of_left_eq_zero hl] at h
    cases h
  · rw [next_of_left_pos hl] at h
    cases h
    simp only [left] at hl ⊢
    omega

inductive Ask where
  | next
  | reset

structure Tally where
  backoff : Backoff
  given : List Span

def Tally.ask (t : Tally) : Ask → Tally
  | .next => ⟨t.backoff.next.2, t.given ++ t.backoff.next.1.toList⟩
  | .reset => ⟨t.backoff.reset, []⟩

def play (policy : RetryPolicy) (asks : List Ask) : Tally :=
  asks.foldl Tally.ask ⟨ofPolicy policy, []⟩

def asked (asks : List Ask) : Nat :=
  asks.foldl (fun n ask => match ask with
    | .next => n + 1
    | .reset => 0) 0

def Tally.after (policy : RetryPolicy) (n : Nat) : Tally :=
  ⟨⟨policy, policy.delay n, n⟩, policy.delays.take n⟩

theorem length_delays (policy : RetryPolicy) : policy.delays.length = policy.maxRetries := by
  rw [RetryPolicy.delays, List.length_map, List.length_range]

theorem delays_getElem?_of_lt (h : n < policy.maxRetries) :
    policy.delays[n]? = some (policy.delay n) := by
  rw [RetryPolicy.delays, List.getElem?_map, List.getElem?_range h]
  rfl

theorem next_after (h : n ≤ policy.maxRetries) :
    (Tally.after policy n).backoff.next.1 = policy.delays[n]? := by
  rcases Nat.eq_or_lt_of_le h with rfl | hlt
  · rw [next_of_left_eq_zero (Nat.sub_self _),
      List.getElem?_eq_none (Nat.le_of_eq (length_delays policy))]
  · rw [next_of_left_pos (Nat.sub_pos_of_lt hlt), delays_getElem?_of_lt hlt]
    rfl

theorem ask_next_after (h : n ≤ policy.maxRetries) : (Tally.after policy n).ask .next =
    ⟨(Tally.after policy n).backoff.next.2, policy.delays.take (n + 1)⟩ := by
  rw [List.take_add_one, ← next_after h]
  rfl

theorem ask_next_after_of_lt (h : n < policy.maxRetries) :
    (Tally.after policy n).ask .next = .after policy (n + 1) := by
  rw [ask_next_after (Nat.le_of_lt h), next_of_left_pos (Nat.sub_pos_of_lt h)]
  rfl

theorem ask_next_after_maxRetries (policy : RetryPolicy) :
    (Tally.after policy policy.maxRetries).ask .next = .after policy policy.maxRetries := by
  rw [ask_next_after (Nat.le_refl _), next_of_left_eq_zero (Nat.sub_self _), ← length_delays,
    List.take_of_length_le (Nat.le_succ _)]
  exact congrArg (Tally.mk _) (List.take_length).symm

theorem play_concat (policy : RetryPolicy) (asks : List Ask) (ask : Ask) :
    play policy (asks ++ [ask]) = (play policy asks).ask ask := List.foldl_append ..

theorem asked_concat_next (asks : List Ask) : asked (asks ++ [.next]) = asked asks + 1 :=
  List.foldl_append ..

theorem asked_concat_reset (asks : List Ask) : asked (asks ++ [.reset]) = 0 :=
  List.foldl_append ..

theorem play_eq (policy : RetryPolicy) (asks : List Ask) :
    play policy asks = .after policy (min (asked asks) policy.maxRetries) := by
  -- on the last ask: only how often it was asked since the last reset matters, up to the bound
  induction asks using List.reverseRecOn with
  | nil =>
    rw [asked, List.foldl_nil, Nat.zero_min]
    rfl
  | append_singleton asks ask ih =>
    rw [play_concat, ih]
    cases ask with
    | next =>
      rw [asked_concat_next]
      rcases Nat.lt_or_ge (asked asks) policy.maxRetries with h | h
      · rw [Nat.min_eq_left (Nat.le_of_lt h), Nat.min_eq_left h, ask_next_after_of_lt h]
      · rw [Nat.min_eq_right h, Nat.min_eq_right (by omega), ask_next_after_maxRetries]
    | reset =>
      rw [asked_concat_reset, Nat.zero_min]
      rfl

theorem head_delays (policy : RetryPolicy) :
    ∀ d ∈ policy.delays.head?, d = policy.initialInterval := by
  intro d hd
  rcases Nat.eq_zero_or_pos policy.maxRetries with h | h
  · rw [RetryPolicy.delays, h] at hd
    cases hd
  · rw [List.head?_eq_getElem?, delays_getElem?_of_lt h] at hd
    cases hd
    rfl

theorem play_gives (policy : RetryPolicy) (asks : List Ask) :
    (play policy asks).given = policy.delays.take (asked asks) ∧
      (play policy asks).backoff.retries = (play policy asks).given.length ∧
      (play policy asks).backoff.next.1 = policy.delays[asked asks]? := by
  rw [play_eq, next_after (Nat.min_le_right ..)]
  simp only [Tally.after, List.length_take, length_delays]
  rcases Nat.le_total (asked asks) policy.maxRetries with h | h
  · rw [Nat.min_eq_left h]
    exact ⟨rfl, (Nat.min_eq_left h).symm, rfl⟩
  · rw [Nat.min_eq_right h]
    have hl := Nat.le_of_eq (length_delays policy)
    refine ⟨?_, (Nat.min_self _).symm, ?_⟩
    · rw [List.take_of_length_le hl, List.take_of_length_le (Nat.le_trans hl h)]
    · rw [List.getElem?_eq_none hl, List.getElem?_eq_none (Nat.le_trans hl h)]

end Backoff

end CatalogCrawl

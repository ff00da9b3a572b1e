import CatalogCrawl.Proofs.Queue.Attempt

namespace CatalogCrawl

inductive QueueAct
  | offer (item : WorkItem)
  | addAll (items : List WorkItem)
  | attempt
  | woken (ticket : Nat)
  | expire (ticket : Nat)
  | cancel (ticket : Nat)
  | close
  deriving DecidableEq

namespace WorkQueue

def Attempt.item? : Attempt → Option WorkItem
  | .took item => some item
  | .over | .waits _ => none

def act (q : WorkQueue) : QueueAct → Option WorkItem × WorkQueue
  | .offer item => (none, (q.offer item).2)
  | .addAll items => (none, (q.addAll items).2)
  | .attempt => (q.attempt.1.item?, q.attempt.2)
  | .woken ticket => ((q.woken ticket).1.item?, (q.woken ticket).2)
  | .expire ticket => q.expire ticket
  | .cancel ticket => (none, q.cancel ticket)
  | .close => (none, q.close)

/-- The items that whoever brings them is told were let in. -/
def admitted (q : WorkQueue) : QueueAct → List WorkItem
  | .offer item => if (q.offer item).1 then [item] else []
  | .addAll items => items.take (q.addAll items).1
  | .attempt | .woken _ | .expire _ | .cancel _ | .close => []

structure Gives (q q' : WorkQueue) (item : WorkItem) : Prop where
  items : q.items = item :: q'.items
  taken : q'.taken = q.taken + 1
  accepted : q'.accepted = q.accepted
  closed : q'.closed = q.closed
  config : q'.config = q.config

structure Admits (q q' : WorkQueue) (new : List WorkItem) : Prop where
  items : q'.items = q.items ++ new
  taken : q'.taken = q.taken
  accepted : q'.accepted = q.accepted + new.length
  closed : q.closed = true → q'.closed = true
  shut : q.closed = true → new = []
  config : q'.config = q.config
  room : new.length ≤ q.room new.length

theorem admits_none {q q' : WorkQueue} (hi : q'.items = q.items) (ht : q'.taken = q.taken)
    (ha : q'.accepted = q.accepted) (hc : q.closed = true → q'.closed = true)
    (hf : q'.config = q.config) : q.Admits q' [] :=
  ⟨by simp [hi], ht, by simp [ha], hc, fun _ => rfl, hf, Nat.zero_le _⟩

theorem room_le (q : WorkQueue) (n : Nat) : q.room n ≤ n := by
  unfold room
  split
  · exact Nat.le_refl n
  · exact Nat.min_le_left n _

theorem room_room (q : WorkQueue) (n : Nat) : q.room (q.room n) = q.room n := by
  cases h : q.config.limit? with
  | none => simp only [room, h]
  | some limit =>
    simp only [room, h]
    omega

theorem one_le_room {q : WorkQueue} (h : q.isFull = false) : 1 ≤ q.room 1 := by
  unfold room
  unfold isFull at h
  split at h
  · exact Nat.le_refl 1
  · rw [decide_eq_false_iff_not] at h
    omega

theorem offer_admits (q : WorkQueue) (item : WorkItem) :
    q.Admits (q.offer item).2 (if (q.offer item).1 then [item] else []) := by
  unfold offer
  split
  · exact admits_none rfl rfl rfl id rfl
  · rename_i h
    rw [Bool.not_eq_true, Bool.or_eq_false_iff] at h
    exact ⟨rfl, rfl, rfl, id, fun hc => by simp [hc] at h, rfl, one_le_room h.2⟩

theorem addAll_admits (q : WorkQueue) (items : List WorkItem) :
    q.Admits (q.addAll items).2 (items.take (q.addAll items).1) := by
  unfold addAll
  split
  · exact admits_none rfl rfl rfl id rfl
  · rename_i h
    have hl : (items.take (q.room items.length)).length = q.room items.length := by
      rw [List.length_take]
      exact Nat.min_eq_left (room_le q _)
    refine ⟨rfl, rfl, ?_, id, fun hc => absurd hc h, rfl, ?_⟩
    · rw [hl]
    · exact Nat.le_of_eq (by rw [hl, room_room])

theorem close_admits (q : WorkQueue) : q.Admits q.close [] := by
  unfold close
  split
  · exact admits_none rfl rfl rfl id rfl
  · exact admits_none rfl rfl rfl (fun _ => rfl) rfl

theorem cancel_admits (q : WorkQueue) (ticket : Nat) : q.Admits (q.cancel ticket) [] :=
  admits_none rfl rfl rfl id rfl

theorem attempt_effect (q : WorkQueue) :
    (∃ item, q.attempt.1.item? = some item ∧ q.Gives q.attempt.2 item) ∨
      (q.attempt.1.item? = none ∧ q.Admits q.attempt.2 []) := by
  rcases q.attempt_cases with ⟨item, rest, b, hi, ha⟩ | ⟨b, -, -, ha⟩ | ⟨t, b, -, -, ha⟩
  · exact .inl ⟨item, by rw [ha]; rfl, by rw [ha]; exact ⟨hi, rfl, rfl, rfl, rfl⟩⟩
  · exact .inr ⟨by rw [ha]; rfl, by rw [ha]; exact admits_none rfl rfl rfl id rfl⟩
  · exact .inr ⟨by rw [ha]; rfl, by rw [ha]; exact admits_none rfl rfl rfl id rfl⟩

theorem woken_effect (q : WorkQueue) (ticket : Nat) :
    (∃ item, (q.woken ticket).1.item? = some item ∧ q.Gives (q.woken ticket).2 item) ∨
      ((q.woken ticket).1.item? = none ∧ q.Admits (q.woken ticket).2 []) := by
  -- what is said of the queue does not depend on its bell
  rcases attempt_effect { q with bell := q.bell.observe ticket } with ⟨item, hi, h⟩ | ⟨hi, h⟩
  · exact .inl ⟨item, hi, h.items, h.taken, h.accepted, h.closed, h.config⟩
  · exact .inr ⟨hi, h.items, h.taken, h.accepted, h.closed, h.shut, h.config, h.room⟩

theorem expire_effect (q : WorkQueue) (ticket : Nat) :
    (∃ item, (q.expire ticket).1 = some item ∧ q.Gives (q.expire ticket).2 item) ∨
      ((q.expire ticket).1 = none ∧ q.Admits (q.expire ticket).2 []) := by
  rcases q.expire_cases ticket with ⟨item, rest, b, hi, he⟩ | ⟨-, he⟩
  · exact .inl ⟨item, by rw [he], by rw [he]; exact ⟨hi, rfl, rfl, rfl, rfl⟩⟩
  · exact .inr ⟨by rw [he], by rw [he]; exact admits_none rfl rfl rfl id rfl⟩

theorem act_effect (q : WorkQueue) (a : QueueAct) :
    (∃ item, (q.act a).1 = some item ∧ q.admitted a = [] ∧ q.Gives (q.act a).2 item) ∨
      ((q.act a).1 = none ∧ q.Admits (q.act a).2 (q.admitted a)) := by
  have taken {q' : WorkQueue} {given : Option WorkItem}
      (h : (∃ item, given = some item ∧ q.Gives q' item) ∨ (given = none ∧ q.Admits q' [])) :
      (∃ item, given = some item ∧ ([] : List WorkItem) = [] ∧ q.Gives q' item) ∨
        (given = none ∧ q.Admits q' []) :=
    h.imp_left fun ⟨item, hi, hg⟩ => ⟨item, hi, rfl, hg⟩
  cases a with
  | offer item => exact .inr ⟨rfl, offer_admits q item⟩
  | addAll items => exact .inr ⟨rfl, addAll_admits q items⟩
  | attempt => exact taken (attempt_effect q)
  | woken ticket => exact taken (woken_effect q ticket)
  | expire ticket => exact taken (expire_effect q ticket)
  | cancel ticket => exact .inr ⟨rfl, cancel_admits q ticket⟩
  | close => exact .inr ⟨rfl, close_admits q⟩

theorem item?_attempt (q : WorkQueue) : q.attempt.1.item? = q.items.head? := by
  rcases q.attempt_cases with ⟨item, rest, b, hi, ha⟩ | ⟨b, hi, -, ha⟩ | ⟨t, b, hi, -, ha⟩
  all_goals rw [ha, hi]; rfl

theorem item?_woken (q : WorkQueue) (ticket : Nat) :
    (q.woken ticket).1.item? = q.items.head? :=
  item?_attempt { q with bell := q.bell.observe ticket }

theorem item?_expire (q : WorkQueue) (ticket : Nat) : (q.expire ticket).1 = q.items.head? := by
  rcases q.expire_cases ticket with ⟨item, rest, b, hi, he⟩ | ⟨hi, he⟩
  all_goals rw [he, hi]; rfl

theorem isFull_eq_false_iff (q : WorkQueue) : q.isFull = false ↔
    (q.config.capacity ≠ 0 → q.items.length < q.config.capacity) := by
  unfold isFull QueueConfig.limit?
  by_cases hc : q.config.capacity = 0 <;> simp [hc]

theorem offer_iff (q : WorkQueue) (item : WorkItem) : (q.offer item).1 = true ↔
    q.closed = false ∧ (q.config.capacity ≠ 0 → q.items.length < q.config.capacity) := by
  rw [← isFull_eq_false_iff, ← Bool.or_eq_false_iff]
  unfold offer
  split
  · rename_i h
    simp [h]
  · rename_i h
    simp [Bool.eq_false_iff.2 h]

theorem closed_close (q : WorkQueue) : q.close.closed = true := by
  unfold close
  split
  · assumption
  · rfl

theorem closed_act (q : WorkQueue) (a : QueueAct) :
    (q.act a).2.closed = true ↔ q.closed = true ∨ a = .close := by
  cases a with
  | offer item =>
    simp only [act, offer]
    split <;> simp
  | addAll items =>
    simp only [act, addAll]
    split <;> simp
  | attempt =>
    rcases q.attempt_cases with ⟨item, rest, b, -, h⟩ | ⟨b, -, -, h⟩ | ⟨t, b, -, -, h⟩
    all_goals simp [act, h]
  | woken ticket =>
    rcases attempt_cases { q with bell := q.bell.observe ticket } with
      ⟨item, rest, b, -, h⟩ | ⟨b, -, -, h⟩ | ⟨t, b, -, -, h⟩
    all_goals simp [act, woken, h]
  | expire ticket =>
    rcases q.expire_cases ticket with ⟨item, rest, b, -, h⟩ | ⟨-, h⟩
    all_goals simp [act, h]
  | cancel ticket => simp [act, cancel]
  | close => simp [act, closed_close]

theorem addAll_count {q : WorkQueue} (hc : q.closed = false) (items : List WorkItem) :
    (q.addAll items).1 = if q.config.capacity = 0 then items.length
      else min items.length (q.config.capacity - q.items.length) := by
  simp only [addAll, hc, Bool.false_eq_true, if_false, room, QueueConfig.limit?]
  by_cases h : q.config.capacity = 0 <;> simp [h]

theorem Admits.length_le {q q' : WorkQueue} {new : List WorkItem} (h : q.Admits q' new)
    (hc : q.config.capacity ≠ 0) (hl : q.items.length ≤ q.config.capacity) :
    q'.items.length ≤ q'.config.capacity := by
  have hr := h.room
  simp only [WorkQueue.room, QueueConfig.limit?, if_neg hc] at hr
  rw [h.items, h.config, List.length_append]
  omega

end WorkQueue

structure Ledger where
  queue : WorkQueue
  /-- What the queue has accepted and what it has handed out, the earliest first. -/
  accepted : List WorkItem
  handed : List WorkItem
  deriving DecidableEq

namespace Ledger

def start (c : QueueConfig) : Ledger := ⟨.empty c, [], []⟩

def step (l : Ledger) (a : QueueAct) : Ledger :=
  ⟨(l.queue.act a).2, l.accepted ++ l.queue.admitted a, l.handed ++ (l.queue.act a).1.toList⟩

def run (l : Ledger) (acts : List QueueAct) : Ledger := acts.foldl step l

structure Balanced (l : Ledger) : Prop where
  order : l.handed ++ l.queue.items = l.accepted
  accepted : l.queue.accepted = l.accepted.length
  taken : l.queue.taken = l.handed.length
  bounded : l.queue.config.capacity ≠ 0 → l.queue.items.length ≤ l.queue.config.capacity

theorem balanced_start (c : QueueConfig) : (start c).Balanced :=
  ⟨rfl, rfl, rfl, fun _ => Nat.zero_le _⟩

theorem Balanced.step {l : Ledger} (h : l.Balanced) (a : QueueAct) : (l.step a).Balanced := by
  rcases l.queue.act_effect a with ⟨item, ha, hn, g⟩ | ⟨ha, g⟩
  · refine ⟨?_, ?_, ?_, ?_⟩ <;> simp only [Ledger.step, ha, hn, Option.toList_some]
    · rw [List.append_nil, ← h.order, g.items, List.append_assoc, List.singleton_append]
    · rw [List.append_nil, g.accepted, h.accepted]
    · rw [g.taken, h.taken, List.length_append, List.length_singleton]
    · intro hc
      rw [g.config] at hc ⊢
      have hb := h.bounded hc
      rw [g.items, List.length_cons] at hb
      omega
  · refine ⟨?_, ?_, ?_, ?_⟩ <;> simp only [Ledger.step, ha, Option.toList_none]
    · rw [List.append_nil, g.items, ← List.append_assoc, h.order]
    · rw [g.accepted, h.accepted, List.length_append]
    · rw [List.append_nil, g.taken, h.taken]
    · intro hc
      rw [g.config] at hc
      exact g.length_le hc (h.bounded hc)

theorem Balanced.run {l : Ledger} (h : l.Balanced) (acts : List QueueAct) :
    (l.run acts).Balanced := by
  induction acts generalizing l with
  | nil => exact h
  | cons a rest ih => exact ih (h.step a)

theorem config_step (l : Ledger) (a : QueueAct) : (l.step a).queue.config = l.queue.config := by
  rcases l.queue.act_effect a with ⟨item, -, -, g⟩ | ⟨-, g⟩
  · exact g.config
  · exact g.config

theorem config_run (l : Ledger) (acts : List QueueAct) :
    (l.run acts).queue.config = l.queue.config := by
  induction acts generalizing l with
  | nil => rfl
  | cons a rest ih => exact (ih (l.step a)).trans (config_step l a)

theorem closed_run (l : Ledger) (acts : List QueueAct) :
    (l.run acts).queue.closed = true ↔ l.queue.closed = true ∨ .close ∈ acts := by
  induction acts generalizing l with
  | nil => simp [run]
  | cons a rest ih =>
    have hs : (l.step a).queue.closed = true ↔ l.queue.closed = true ∨ a = .close :=
      l.queue.closed_act a
    rw [show l.run (a :: rest) = (l.step a).run rest from rfl, ih, hs, List.mem_cons, or_assoc,
      eq_comm (a := a)]

theorem accepted_step_of_closed {l : Ledger} (hc : l.queue.closed = true) (a : QueueAct) :
    (l.step a).accepted = l.accepted := by
  rcases l.queue.act_effect a with ⟨item, -, hn, -⟩ | ⟨-, g⟩
  · rw [Ledger.step, hn, List.append_nil]
  · rw [Ledger.step, g.shut hc, List.append_nil]

theorem accepted_run_of_closed {l : Ledger} (hc : l.queue.closed = true) (acts : List QueueAct) :
    (l.run acts).accepted = l.accepted := by
  induction acts generalizing l with
  | nil => rfl
  | cons a rest ih =>
    have hs : (l.step a).queue.closed = true := (l.queue.closed_act a).2 (.inl hc)
    exact (ih hs).trans (accepted_step_of_closed hc a)

/-- A queue is first in, first out and keeps to its bound, whatever is done to it in which order: an
offer is let in if and only if the queue is open and has room, a refill is let in as one piece, and
nothing after the queue was closed; and whoever looks for an item is given the oldest. -/
theorem fifo_of_any_order (c : QueueConfig) (acts : List QueueAct) :
    let l := (start c).run acts
    l.handed ++ l.queue.items = l.accepted ∧
    (c.capacity ≠ 0 → l.queue.items.length ≤ c.capacity) ∧
    l.queue.accepted = l.accepted.length ∧ l.queue.taken = l.handed.length ∧
    l.queue.accepted = l.queue.taken + l.queue.items.length ∧
    (∀ item, ((l.queue.offer item).1 = true ↔
        .close ∉ acts ∧ (c.capacity ≠ 0 → l.queue.items.length < c.capacity)) ∧
      (l.step (.offer item)).queue.items =
        l.queue.items ++ if (l.queue.offer item).1 then [item] else []) ∧
    (.close ∉ acts → ∀ items : List WorkItem,
      let count := if c.capacity = 0 then items.length
        else min items.length (c.capacity - l.queue.items.length)
      (l.queue.addAll items).1 = count ∧
      (l.step (.addAll items)).accepted = l.accepted ++ items.take count ∧
      (l.step (.addAll items)).queue.items = l.queue.items ++ items.take count) ∧
    (l.queue.attempt.1.item? = l.queue.items.head? ∧
      (∀ ticket, (l.queue.woken ticket).1.item? = l.queue.items.head?) ∧
      ∀ ticket, (l.queue.expire ticket).1 = l.queue.items.head?) ∧
    (l.queue.closed = true ↔ .close ∈ acts) ∧
    ∀ later : List QueueAct, .close ∈ acts →
      ((start c).run (acts ++ later)).accepted = l.accepted ∧
      (∀ items, (l.queue.addAll items).1 = 0) := by
  intro l
  have h : l.Balanced := (balanced_start c).run acts
  have hf : l.queue.config = c := config_run (start c) acts
  have hclosed : l.queue.closed = true ↔ .close ∈ acts :=
    (closed_run (start c) acts).trans (or_iff_right Bool.false_ne_true)
  have hopen : l.queue.closed = false ↔ .close ∉ acts := by
    rw [← hclosed, Bool.not_eq_true]
  refine ⟨h.order, ?_, h.accepted, h.taken, ?_, fun item => ⟨?_, ?_⟩, fun hc items => ?_,
    ⟨l.queue.item?_attempt, l.queue.item?_woken, l.queue.item?_expire⟩, hclosed,
    fun later hc => ⟨?_, fun items => ?_⟩⟩
  · simpa only [hf] using h.bounded
  · rw [h.accepted, h.taken, ← h.order, List.length_append]
  · rw [WorkQueue.offer_iff, hf, hopen]
  · exact (l.queue.offer_admits item).items
  · intro count
    have hn : (l.queue.addAll items).1 = count := by
      rw [WorkQueue.addAll_count (hopen.2 hc), hf]
    exact ⟨hn, congrArg (fun n => l.accepted ++ items.take n) hn,
      hn ▸ (l.queue.addAll_admits items).items⟩
  · rw [run, List.foldl_append]
    exact accepted_run_of_closed (hclosed.2 hc) later
  · rw [WorkQueue.addAll, if_pos (hclosed.2 hc)]

section Example

def errand (protocol : String) : WorkItem := .fresh ⟨"http", none, "", none, none⟩ protocol

def rush : List QueueAct :=
  [.attempt, .offer (errand "a"), .offer (errand "b"), .offer (errand "c"), .woken 0,
    .addAll [errand "d", errand "e"], .close, .offer (errand "f"), .attempt]

theorem fifo_of_rush :
    let l := (start ⟨2⟩).run rush
    l.handed = [errand "a", errand "b"] ∧ l.queue.items = [errand "d"] ∧
    l.accepted = [errand "a", errand "b", errand "d"] ∧
    (l.queue.offer (errand "f")).1 = false ∧ l.queue.attempt.1.item? = some (errand "d") ∧
    ((start ⟨2⟩).run (rush ++ [.addAll [errand "e"], .attempt])).accepted = l.accepted := by
  intro l
  obtain ⟨horder, -, -, -, -, hoffer, -, ⟨hattempt, -⟩, -, hlater⟩ := fifo_of_any_order ⟨2⟩ rush
  have hhanded : l.handed = [errand "a", errand "b"] := by decide
  have hitems : l.queue.items = [errand "d"] := by decide
  have hclose : .close ∈ rush := by decide
  refine ⟨hhanded, hitems, ?_, ?_, ?_, (hlater _ hclose).1⟩
  · rw [← horder, hhanded, hitems]
    rfl
  · rw [← Bool.not_eq_true]
    exact fun h => ((hoffer _).1.1 h).1 hclose
  · rw [hattempt, hitems]
    rfl

end Example

end Ledger

end CatalogCrawl

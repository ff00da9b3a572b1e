import CatalogCrawl.Proofs.Queue.Ledger

namespace CatalogCrawl

namespace WorkQueue

def offerAll : WorkQueue → List WorkItem → List Bool × WorkQueue
  | q, [] => ([], q)
  | q, item :: rest =>
    let (answer, next) := q.offer item
    let (answers, last) := next.offerAll rest
    (answer :: answers, last)

def joined (q : WorkQueue) (item : WorkItem) : WorkQueue :=
  { q with items := q.items ++ [item], accepted := q.accepted + 1, bell := q.bell.ring }

def joinedByAll (q : WorkQueue) (items : List WorkItem) : WorkQueue :=
  { q with
    items := q.items ++ items.take (q.room items.length)
    accepted := q.accepted + q.room items.length
    rejected := q.rejected + (items.length - q.room items.length)
    bell := q.bell.ringTimes (q.room items.length) }

variable {q : WorkQueue}

theorem offer_of_refused (h : (q.closed || q.isFull) = true) (item : WorkItem) :
    q.offer item = (false, { q with rejected := q.rejected + 1 }) := by
  rw [offer, if_pos h]

theorem offer_of_room (hc : q.closed = false) (hf : q.isFull = false) (item : WorkItem) :
    q.offer item = (true, q.joined item) := by
  simp [offer, hc, hf, joined]

@[simp] theorem room_zero (q : WorkQueue) : q.room 0 = 0 := Nat.le_zero.1 (room_le q 0)

theorem room_of_full (h : q.isFull = true) (n : Nat) : q.room n = 0 := by
  cases hl : q.config.limit? with
  | none => simp [isFull, hl] at h
  | some limit =>
    simp only [isFull, hl, decide_eq_true_eq] at h
    simp only [room, hl]
    omega

theorem room_joined (h : q.isFull = false) (item : WorkItem) (n : Nat) :
    q.room (n + 1) = (q.joined item).room n + 1 := by
  cases hl : q.config.limit? with
  | none => simp only [room, joined, hl]
  | some limit =>
    simp only [isFull, hl, decide_eq_false_iff_not] at h
    simp only [room, joined, hl, List.length_append, List.length_singleton]
    omega

@[simp] theorem joinedByAll_nil (q : WorkQueue) : q.joinedByAll [] = q := by
  simp [joinedByAll, Bell.ringTimes]

theorem joinedByAll_of_full (h : q.isFull = true) (items : List WorkItem) :
    q.joinedByAll items = { q with rejected := q.rejected + items.length } := by
  simp [joinedByAll, room_of_full h, Bell.ringTimes]

theorem joinedByAll_cons (h : q.isFull = false) (item : WorkItem) (rest : List WorkItem) :
    q.joinedByAll (item :: rest) = (q.joined item).joinedByAll rest := by
  simp only [joinedByAll, List.length_cons, room_joined h item, List.take_succ_cons,
    Bell.ringTimes, Nat.add_sub_add_right]
  simp [joined, Nat.add_assoc, Nat.add_comm 1]

theorem offerAll_of_refused (items : List WorkItem) (h : (q.closed || q.isFull) = true) :
    q.offerAll items = (List.replicate items.length false,
      { q with rejected := q.rejected + items.length }) := by
  induction items generalizing q with
  | nil => rfl
  | cons item rest ih =>
    have hr := ih (q := { q with rejected := q.rejected + 1 }) h
    simp only [offerAll, offer_of_refused h, hr, List.length_cons, List.replicate_succ,
      Nat.add_assoc, Nat.add_comm 1]

theorem offerAll_of_open (items : List WorkItem) (hc : q.closed = false) :
    q.offerAll items = (List.replicate (q.room items.length) true ++
      List.replicate (items.length - q.room items.length) false, q.joinedByAll items) := by
  induction items generalizing q with
  | nil => simp [offerAll]
  | cons item rest ih =>
    cases hf : q.isFull with
    | true =>
      rw [offerAll_of_refused (item :: rest) (by simp [hf]), joinedByAll_of_full hf,
        room_of_full hf]
      simp
    | false =>
      have hn := ih (q := q.joined item) hc
      rw [joinedByAll_cons hf]
      simp only [offerAll, offer_of_room hc hf, hn, List.length_cons, room_joined hf item,
        List.replicate_succ, List.cons_append, Nat.add_sub_add_right]

theorem addAll_of_open (h : q.closed = false) (items : List WorkItem) :
    q.addAll items =
      (q.room items.length, { q.joinedByAll items with refills := q.refills + 1 }) := by
  simp [addAll, h, joinedByAll]

theorem addAll_of_closed (h : q.closed = true) (items : List WorkItem) :
    q.addAll items = (0, q) := by
  simp [addAll, h]

/-- A batch does what its items do when they are offered one by one, and is counted as one refill;
but a closed queue, which counts each of the offers as rejected, is left as it was. -/
theorem addAll_against_offerAll (q : WorkQueue) (items : List WorkItem) :
    let batch := q.addAll items
    let offers := q.offerAll items
    batch.1 = offers.1.count true ∧
    offers.2.accepted = q.accepted + offers.1.count true ∧
    offers.2.rejected = q.rejected + offers.1.count false ∧
    offers.1.length = items.length ∧
    batch.2 = { offers.2 with
      rejected := if q.closed then q.rejected else offers.2.rejected
      refills := if q.closed then q.refills else q.refills + 1 } := by
  intro batch offers
  cases hc : q.closed with
  | true =>
    have hb : batch = (0, q) := addAll_of_closed hc items
    have ho : offers = _ := offerAll_of_refused items (by simp [hc])
    rw [hb, ho]
    refine ⟨?_, ?_, ?_, List.length_replicate, rfl⟩ <;> simp [List.count_replicate]
  | false =>
    have hb : batch = _ := addAll_of_open hc items
    have ho : offers = _ := offerAll_of_open items hc
    have hr : q.room items.length + (items.length - q.room items.length) = items.length :=
      Nat.add_sub_of_le (room_le q items.length)
    rw [hb, ho]
    simp [List.count_replicate, joinedByAll, hr]

def shut : WorkQueue := (empty ⟨0⟩).close

def late : WorkItem := .fresh ⟨"http", none, "", none, none⟩ "dsp"

/-- One late item: offered it counts as rejected, in a batch it does not. -/
theorem shut_counts_offers_only :
    (shut.addAll [late]).2.rejected = 0 ∧ (shut.offerAll [late]).2.rejected = 1 ∧
    ¬ ∀ (q : WorkQueue) (items : List WorkItem),
      (q.addAll items).2.rejected = (q.offerAll items).2.rejected := by
  have ha : (shut.addAll [late]).2.rejected = 0 := by decide
  have ho : (shut.offerAll [late]).2.rejected = 1 := by decide
  refine ⟨ha, ho, fun h => ?_⟩
  have hs := h shut [late]
  rw [ha, ho] at hs
  cases hs

end WorkQueue

end CatalogCrawl

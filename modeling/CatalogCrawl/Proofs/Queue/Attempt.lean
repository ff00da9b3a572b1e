import CatalogCrawl.Queue.WorkQueue

namespace CatalogCrawl

namespace WorkQueue

def released (b : Bell) : Option Nat → Bell
  | none => b
  | some ticket => b.leave ticket

def passed (b : Bell) (rest : List WorkItem) : Bell := if rest.isEmpty then b else b.ring

theorem take?_of_nil {q : WorkQueue} (h : q.items = []) : q.take? = (none, q) := by
  simp [take?, h]

theorem take?_of_cons {q : WorkQueue} {item : WorkItem} {rest : List WorkItem}
    (h : q.items = item :: rest) :
    q.take? = (some item,
      { q with items := rest, taken := q.taken + 1, bell := passed q.bell rest }) := by
  simp [take?, h, passed]

theorem tryEnrolled_of_cons {q : WorkQueue} {item : WorkItem} {rest : List WorkItem}
    (h : q.items = item :: rest) (ticket : Option Nat) :
    q.tryEnrolled ticket = (some (.took item),
      { q with items := rest, taken := q.taken + 1, bell := released (passed q.bell rest) ticket }) := by
  cases ticket <;> simp [tryEnrolled, take?_of_cons h, released]

theorem tryEnrolled_of_closed {q : WorkQueue} (h : q.items = []) (hc : q.closed = true)
    (ticket : Option Nat) :
    q.tryEnrolled ticket = (some .over, { q with bell := released q.bell ticket }) := by
  simp only [tryEnrolled, take?_of_nil h, if_pos hc]
  cases ticket <;> rfl

theorem attempt_of_cons {q : WorkQueue} {item : WorkItem} {rest : List WorkItem}
    (h : q.items = item :: rest) :
    q.attempt = (.took item, { q with
      items := rest
      taken := q.taken + 1
      bell := released (passed q.bell.enrol.2 rest) q.bell.enrol.1 }) := by
  have ht := tryEnrolled_of_cons (q := { q with bell := q.bell.enrol.2 }) h q.bell.enrol.1
  simp only [attempt, ht]

theorem attempt_of_closed {q : WorkQueue} (h : q.items = []) (hc : q.closed = true) :
    q.attempt = (.over, { q with bell := released q.bell.enrol.2 q.bell.enrol.1 }) := by
  have ht := tryEnrolled_of_closed (q := { q with bell := q.bell.enrol.2 }) h hc q.bell.enrol.1
  simp only [attempt, ht]

def awaited (b : Bell) : Bell := (if b.permit then b.enrol.2 else b).enrol.2

theorem attempt_of_open {q : WorkQueue} (h : q.items = []) (hc : q.closed = false) :
    q.attempt = (.waits q.bell.nextTicket, { q with bell := awaited q.bell }) := by
  cases hp : q.bell.permit with
  | false => simp [attempt, tryEnrolled, take?, Bell.enrol, h, hc, hp, awaited]
  | true => simp [attempt, tryEnrolled, take?, Bell.enrol, h, hc, hp, awaited]

theorem attempt_cases (q : WorkQueue) :
    (∃ item rest b, q.items = item :: rest ∧ q.attempt = (.took item,
      { q with items := rest, taken := q.taken + 1, bell := b })) ∨
    (∃ b, q.items = [] ∧ q.closed = true ∧ q.attempt = (.over, { q with bell := b })) ∨
    ∃ ticket b, q.items = [] ∧ q.closed = false ∧
      q.attempt = (.waits ticket, { q with bell := b }) := by
  by_cases h : q.items = []
  · by_cases hc : q.closed = true
    · exact .inr (.inl ⟨_, h, hc, attempt_of_closed h hc⟩)
    · rw [Bool.not_eq_true] at hc
      exact .inr (.inr ⟨_, _, h, hc, attempt_of_open h hc⟩)
  · obtain ⟨item, rest, h⟩ := List.exists_cons_of_ne_nil h
    exact .inl ⟨item, rest, _, h, attempt_of_cons h⟩

theorem expire_cases (q : WorkQueue) (ticket : Nat) :
    (∃ item rest b, q.items = item :: rest ∧ q.expire ticket = (some item,
      { q with items := rest, taken := q.taken + 1, bell := b })) ∨
    (q.items = [] ∧ q.expire ticket = (none, { q with bell := q.bell.leave ticket })) := by
  by_cases h : q.items = []
  · exact .inr ⟨h, by simp only [expire, take?_of_nil h]⟩
  · obtain ⟨item, rest, h⟩ := List.exists_cons_of_ne_nil h
    exact .inl ⟨item, rest, (passed q.bell rest).leave ticket, h,
      by simp only [expire, take?_of_cons h]⟩

theorem refills_attempt (q : WorkQueue) : q.attempt.2.refills = q.refills := by
  rcases q.attempt_cases with ⟨item, rest, b, -, ha⟩ | ⟨b, -, -, ha⟩ | ⟨ticket, b, -, -, ha⟩
  all_goals rw [ha]

theorem refills_expire (q : WorkQueue) (ticket : Nat) : (q.expire ticket).2.refills = q.refills := by
  rcases q.expire_cases ticket with ⟨item, rest, b, -, he⟩ | ⟨-, he⟩
  all_goals rw [he]

theorem refills_offer (q : WorkQueue) (item : WorkItem) : (q.offer item).2.refills = q.refills := by
  unfold offer
  split <;> rfl

end WorkQueue

end CatalogCrawl

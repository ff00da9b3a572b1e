import CatalogCrawl.Proofs.Queue.Ledger
import CatalogCrawl.Proofs.Queue.Tickets
import CatalogCrawl.World.Task
import Mathlib.Algebra.Order.Group.Multiset

namespace CatalogCrawl

/-- Tickets that tasks wait with, items about which crawlers ask the adapters, and calls. -/
structure Burden where
  tickets : Multiset Nat
  items : Nat
  calls : Multiset TaskId

namespace Burden

instance : Zero Burden := ⟨⟨0, 0, 0⟩⟩

instance : Add Burden := ⟨fun a b => ⟨a.tickets + b.tickets, a.items + b.items, a.calls + b.calls⟩⟩

theorem eq_of_parts {a b : Burden} (ht : a.tickets = b.tickets) (hi : a.items = b.items)
    (hc : a.calls = b.calls) : a = b := by
  cases a
  cases b
  cases ht
  cases hi
  cases hc
  rfl

instance : AddCommMonoid Burden where
  add_assoc a b c := eq_of_parts (add_assoc _ _ _) (add_assoc _ _ _) (add_assoc _ _ _)
  zero_add a := eq_of_parts (zero_add _) (zero_add _) (zero_add _)
  add_zero a := eq_of_parts (add_zero _) (add_zero _) (add_zero _)
  add_comm a b := eq_of_parts (add_comm _ _) (add_comm _ _) (add_comm _ _)
  nsmul := nsmulRec

def ofTicket (ticket : Nat) : Burden := ⟨{ticket}, 0, 0⟩

def ofItem : Burden := ⟨0, 1, 0⟩

def ofFound : Option WorkItem → Burden
  | some _ => ofItem
  | none => 0

def ofCalls (ids : Multiset TaskId) : Burden := ⟨0, 0, ids⟩

@[simp] theorem tickets_add (a b : Burden) : (a + b).tickets = a.tickets + b.tickets := rfl

@[simp] theorem items_add (a b : Burden) : (a + b).items = a.items + b.items := rfl

@[simp] theorem calls_add (a b : Burden) : (a + b).calls = a.calls + b.calls := rfl

@[simp] theorem tickets_zero : tickets 0 = 0 := rfl

@[simp] theorem items_zero : items 0 = 0 := rfl

@[simp] theorem calls_zero : calls 0 = 0 := rfl

@[simp] theorem tickets_ofTicket (ticket : Nat) : (ofTicket ticket).tickets = {ticket} := rfl

@[simp] theorem items_ofTicket (ticket : Nat) : (ofTicket ticket).items = 0 := rfl

@[simp] theorem calls_ofTicket (ticket : Nat) : (ofTicket ticket).calls = 0 := rfl

@[simp] theorem tickets_ofItem : ofItem.tickets = 0 := rfl

@[simp] theorem items_ofItem : ofItem.items = 1 := rfl

@[simp] theorem calls_ofItem : ofItem.calls = 0 := rfl

@[simp] theorem calls_ofFound (item : Option WorkItem) : (ofFound item).calls = 0 := by
  cases item <;> rfl

@[simp] theorem tickets_ofCalls (ids : Multiset TaskId) : (ofCalls ids).tickets = 0 := rfl

@[simp] theorem items_ofCalls (ids : Multiset TaskId) : (ofCalls ids).items = 0 := rfl

@[simp] theorem calls_ofCalls (ids : Multiset TaskId) : (ofCalls ids).calls = ids := rfl

end Burden

def WorkQueue.Attempt.burden : WorkQueue.Attempt → Burden
  | .took _ => .ofItem
  | .over => 0
  | .waits ticket => .ofTicket ticket

@[simp] theorem WorkQueue.Attempt.tickets_burden (a : WorkQueue.Attempt) :
    a.burden.tickets = a.tickets := by
  cases a <;> rfl

theorem WorkQueue.Attempt.items_burden (a : WorkQueue.Attempt) :
    a.burden.items = a.item?.toList.length := by
  cases a <;> rfl

@[simp] theorem WorkQueue.Attempt.calls_burden (a : WorkQueue.Attempt) : a.burden.calls = 0 := by
  cases a <;> rfl

def Outcome.calls : Outcome → Nat
  | .dispatched n => n
  | _ => 0

/-- How many items were handed to others than crawlers; nothing is said if there are no others. -/
abbrev Served := Option Nat

structure Counted (q : WorkQueue) (s : CrawlStats) (b : Burden) (served : Served) : Prop where
  count : q.accepted = q.taken + q.items.length
  taken : q.taken = s.cycles + b.items + served.getD 0
  calls : s.dispatched = s.delivered + s.adapterFailures + s.undelivered + b.calls.card

structure Books (q : WorkQueue) (s : CrawlStats) (b : Burden) (served : Served) : Prop extends
    Counted q s b served where
  enrolled : q.Enrolled b.tickets

variable {q q' : WorkQueue} {s : CrawlStats} {b : Burden} {served : Served} {ticket : Nat}

namespace Counted

theorem of_admits (h : Counted q s b served) {new : List WorkItem} (hg : q.Admits q' new) :
    Counted q' s b served := by
  have hc := h.count
  refine ⟨?_, ?_, h.calls⟩
  · rw [hg.accepted, hg.taken, hg.items, List.length_append]
    omega
  · rw [hg.taken]
    exact h.taken

theorem of_gives (h : Counted q s b served) {item : WorkItem} (hg : q.Gives q' item) :
    Counted q' s (.ofItem + b) served := by
  have hc := h.count
  have ht := h.taken
  refine ⟨?_, ?_, by simpa using h.calls⟩
  · rw [hg.items, List.length_cons] at hc
    rw [hg.accepted, hg.taken]
    omega
  · rw [hg.taken, ht, Burden.items_add, Burden.items_ofItem]
    omega

theorem of_attempt (h : Counted q s b served) {a : WorkQueue.Attempt}
    (ha : (∃ item, a.item? = some item ∧ q.Gives q' item) ∨ (a.item? = none ∧ q.Admits q' [])) :
    Counted q' s (a.burden + b) served := by
  rcases ha with ⟨item, hi, hg⟩ | ⟨hi, hg⟩
  · have hn := h.of_gives hg
    rcases a with item | _ | ticket
    · exact hn
    · cases hi
    · cases hi
  · have hn := h.of_admits hg
    refine ⟨hn.count, ?_, by simpa using hn.calls⟩
    rw [hn.taken, Burden.items_add, a.items_burden, hi]
    simp

theorem drop_ticket (h : Counted q s (.ofTicket ticket + b) served) : Counted q s b served :=
  ⟨h.count, by simpa using h.taken, by simpa using h.calls⟩

end Counted

namespace Books

theorem empty (c : QueueConfig) (hs : served.getD 0 = 0) : Books (.empty c) .zero 0 served :=
  ⟨⟨rfl, by rw [hs]; rfl, rfl⟩, WorkQueue.enrolled_empty c⟩

theorem offer (h : Books q s b served) (item : WorkItem) : Books (q.offer item).2 s b served :=
  ⟨h.of_admits (q.offer_admits item), h.enrolled.offer item⟩

theorem addAll (h : Books q s b served) (items : List WorkItem) :
    Books (q.addAll items).2 s b served :=
  ⟨h.of_admits (q.addAll_admits items), h.enrolled.addAll items⟩

theorem close (h : Books q s b served) : Books q.close s b served :=
  ⟨h.of_admits q.close_admits, h.enrolled.close⟩

theorem attempt (h : Books q s b served) :
    Books q.attempt.2 s (q.attempt.1.burden + b) served :=
  ⟨h.of_attempt q.attempt_effect, by simpa using h.enrolled.attempt⟩

theorem enrolled_ticket (h : Books q s (.ofTicket ticket + b) served) :
    q.Enrolled (ticket ::ₘ b.tickets) := by
  simpa using h.enrolled

theorem woken (h : Books q s (.ofTicket ticket + b) served) (hr : q.bell.reached ticket = true) :
    Books (q.woken ticket).2 s ((q.woken ticket).1.burden + b) served := by
  refine ⟨h.drop_ticket.of_attempt (q.woken_effect ticket), ?_⟩
  simpa using h.enrolled_ticket.woken hr

theorem expire (h : Books q s (.ofTicket ticket + b) served) :
    Books (q.expire ticket).2 s (.ofFound (q.expire ticket).1 + b) served := by
  have he := h.enrolled_ticket.expire
  rcases q.expire_effect ticket with ⟨item, hi, hg⟩ | ⟨hi, hg⟩
  · rw [hi]
    exact ⟨h.drop_ticket.of_gives hg, by simpa [Burden.ofFound] using he⟩
  · rw [hi]
    exact ⟨by simpa [Burden.ofFound] using h.drop_ticket.of_admits hg,
      by simpa [Burden.ofFound] using he⟩

theorem cancel (h : Books q s (.ofTicket ticket + b) served) :
    Books (q.cancel ticket) s b served :=
  ⟨h.drop_ticket.of_admits (q.cancel_admits ticket), h.enrolled_ticket.cancel⟩

theorem serve {n : Nat} (h : Books q s (.ofItem + b) (some n)) : Books q s b (some (n + 1)) := by
  have ht := h.taken
  refine ⟨⟨h.count, ?_, by simpa using h.calls⟩, by simpa using h.enrolled⟩
  simp only [Burden.items_add, Burden.items_ofItem, Option.getD_some] at ht ⊢
  omega

theorem record (h : Books q s (.ofItem + b) served) {o : Outcome} (ids : Multiset TaskId)
    (ho : o ≠ .stopped) (hi : ids.card = o.calls) :
    Books q (s.record o) (.ofCalls ids + b) served := by
  have ht := h.taken
  have hc := h.calls
  simp only [Burden.items_add, Burden.items_ofItem, Burden.calls_add, Burden.calls_ofItem,
    Multiset.card_add, Multiset.card_zero] at ht hc
  refine ⟨⟨h.count, ?_, ?_⟩, by simpa using h.enrolled⟩
  all_goals
    cases o <;> simp only [CrawlStats.record, Outcome.calls, Burden.items_add, Burden.calls_add,
      Burden.items_ofCalls, Burden.calls_ofCalls, Multiset.card_add] at hi ⊢ <;>
      first | contradiction | omega

theorem conclude {id : TaskId} (h : Books q s (.ofCalls {id} + b) served) (o : CallOutcome) :
    Books q (s.recordCall o) b served := by
  have hc := h.calls
  simp only [Burden.calls_add, Burden.calls_ofCalls, Multiset.card_add,
    Multiset.card_singleton] at hc
  refine ⟨⟨h.count, ?_, ?_⟩, by simpa using h.enrolled⟩
  · cases o <;> simpa [CrawlStats.recordCall] using h.taken
  · cases o <;> simp only [CrawlStats.recordCall] <;> omega

end Books

end CatalogCrawl

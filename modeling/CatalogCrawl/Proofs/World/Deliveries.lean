import CatalogCrawl.Proofs.Crawl.Delivery
import CatalogCrawl.Proofs.World.Bystanders
import CatalogCrawl.Proofs.World.Cancelling
import CatalogCrawl.Proofs.World.Rounds
import CatalogCrawl.Proofs.World.Warnings

namespace CatalogCrawl

variable {w v u : World} {id : TaskId} {e : Event} {served : Served}

open World

namespace World

def KeepsOthers (w : World) (id : TaskId) (v : World) : Prop :=
  ∀ j ∈ w.jobs, j.id ≠ id → j ∈ v.jobs

theorem KeepsOthers.of_jobs (h : v.jobs = w.jobs) : w.KeepsOthers id v :=
  fun _ hj _ => h ▸ hj

theorem KeepsOthers.removeJob : w.KeepsOthers id (w.removeJob id) :=
  fun _ hj hn => mem_jobs_removeJob.2 ⟨hj, hn⟩

theorem KeepsOthers.keepFirst (t : Task) : w.KeepsOthers id (w.keepFirst id t) :=
  fun _ hj hn => mem_jobs_keepFirst.2 (.inr ⟨hj, hn⟩)

theorem KeepsOthers.keepLast (t : Task) : w.KeepsOthers id (w.keepLast id t) :=
  fun _ hj hn => mem_jobs_keepLast.2 (.inl ⟨hj, hn⟩)

theorem KeepsOthers.keepInPlace (t : Task) : w.KeepsOthers id (w.keepInPlace id t) :=
  fun j hj hn => List.mem_map.2 ⟨j, hj, if_neg fun he => hn (beq_iff_eq.1 he)⟩

end World

namespace CallTask

variable {t : CallTask}

theorem deliver_keepsOthers (w : World) (t : CallTask) (d : Delivery) :
    w.KeepsOthers id (t.deliver w id d) := by
  unfold deliver
  split
  · exact .removeJob
  · rename_i q _
    rcases d.attempt q with ⟨_ | fault | ⟨delay, rest⟩, left⟩
    · exact KeepsOthers.removeJob (w := w)
    · exact KeepsOthers.removeJob (w := w)
    · simp only
      split
      · exact KeepsOthers.keepFirst (w := w) _
      · exact KeepsOthers.keepLast (w := w) _

theorem turn_keepsOthers (w : World) (t : CallTask) : w.KeepsOthers id (t.turn w id) := by
  unfold turn
  split
  · unfold ask
    split
    · exact .removeJob
    · simp only
      split
      · exact KeepsOthers.keepFirst (w := w) _
      · exact KeepsOthers.keepLast (w := w) _
  · rename_i outcome _
    split
    · cases outcome with
      | error fault => exact KeepsOthers.removeJob (w := w)
      | ok r => exact deliver_keepsOthers (w.report (.info (receivedMessage r))) t _
    split
    · exact KeepsOthers.keepInPlace (w := w) _
    · exact .of_jobs rfl
  · split
    · exact deliver_keepsOthers w t _
    · exact .of_jobs rfl

end CallTask

namespace CrawlTask

theorem complete_keepsOthers {t : CrawlTask} {activity : Nat} (hm : t.mode = .steady activity)
    (w : World) (item : WorkItem) : w.KeepsOthers id (t.complete w id item) := by
  intro j hj hn
  have hw : j ∈ (w.worked t activity item).jobs := List.mem_append_left _ hj
  rw [complete_eq hm]
  split
  · exact KeepsOthers.removeJob j hw hn
  · exact KeepsOthers.keepFirst _ j hw hn

theorem Round.keepsOthers {t : CrawlTask} (h : t.Round w id v) : w.KeepsOthers id v := by
  cases h with
  | rests => exact .of_jobs rfl
  | ends => exact KeepsOthers.removeJob (w := w)
  | again => exact KeepsOthers.keepFirst (w := w) _
  | waits => exact KeepsOthers.keepLast (w := w) _
  | takes => exact KeepsOthers.keepLast (w := w) _
  | works item rest b activity _ _ hm => exact complete_keepsOthers hm (w.taken rest b activity) item
  | completes item activity _ hm => exact complete_keepsOthers hm w item

end CrawlTask

namespace World

variable {t s : CallTask} {d : Delivery}

theorem call_stays (h : w.Settled) (hm : ⟨id, .call t⟩ ∈ w.jobs) (hn : w.acts id e = false) :
    ⟨id, .call t⟩ ∈ (w.react e).jobs := by
  obtain ⟨n, hs⟩ := h.sound
  have others {i : TaskId} {signalFirst : Bool} {j : Job} (he : e = .step (.turn i signalFirst))
      (hj : w.job? i = some j) (hk : w.KeepsOthers i (j.task.turn w i signalFirst)) :
      ⟨id, .call t⟩ ∈ (w.react e).jobs := by
    subst he
    simp only [react, step, hj]
    split
    · rename_i hr
      refine hk _ hm fun hi => ?_
      subst hi
      obtain ⟨-, rfl⟩ := mem_of_job? hj
      simp [acts, acting?, hj, hr] at hn
    · exact hm
  by_cases hc : w.isCrawling e = true
  · obtain ⟨i, signalFirst, t, rfl, hj⟩ := of_isCrawling hc
    obtain ⟨activity, hmode⟩ := hs.isSteady (mem_of_job? hj).1
    exact others rfl hj (t.turn_round hmode signalFirst).keepsOthers
  by_cases hk : w.isCalling e = true
  · obtain ⟨i, signalFirst, t, rfl, hj⟩ := of_isCalling hk
    exact others rfl hj (t.turn_keepsOthers w)
  · rw [Bool.not_eq_true] at hc hk
    have hx : (id, t) ∈ w.calls := mem_calls.2 hm
    exact mem_calls.1 ((calls_react h hc hk).mem_iff.2 hx)

end World

def CallTask.delivery? (t : CallTask) : Option Delivery :=
  match t.stage with
  | .answering _ _ (.ok r) => some (.start t.crawler.config.retry r)
  | .delivering d _ => some d
  | _ => none

def Progress.Leaves (id : TaskId) (v : World) : Progress → Prop
  | .waits _ rest => ∃ s : CallTask, ⟨id, .call s⟩ ∈ v.jobs ∧ s.delivery? = some rest
  | _ => v.isLive id = false

namespace World

variable {t s : CallTask} {d : Delivery} {q : ResultQueue}

def attempt? (w : World) (id : TaskId) (e : Event) : Option (ResultQueue × ResultQueue) :=
  if w.acts id e then
    match w.job? id with
    | some ⟨_, .call t⟩ =>
      (t.sending? w).bind fun (i, _) =>
        (w.results[i]?).bind fun found => ((w.react e).results[i]?).map fun left => (found, left)
    | _ => none
  else none

def attempts (w : World) (id : TaskId) : List Event → List (ResultQueue × ResultQueue)
  | [] => []
  | e :: rest => (w.attempt? id e).toList ++ (w.react e).attempts id rest

theorem attempt?_of_not_acts (h : w.acts id e = false) : w.attempt? id e = none := by
  simp [attempt?, h]

theorem acts_of_not_isLive (h : w.isLive id = false) (e : Event) : w.acts id e = false := by
  rw [← Bool.not_eq_true]
  intro ha
  obtain ⟨signalFirst, j, -, hj⟩ := acts_iff.1 ha
  obtain ⟨-, hm, rfl⟩ := mem_of_acting? hj
  exact Bool.false_ne_true (h.symm.trans (isLive_of_mem hm))

theorem not_isLive_react (hi : id < w.nextId) (h : w.isLive id = false) (e : Event) :
    (w.react e).isLive id = false := by
  rw [← Bool.not_eq_true] at h ⊢
  exact fun hl => h (isLive_react hi hl)

theorem attempts_of_not_isLive (hi : id < w.nextId) (h : w.isLive id = false)
    (events : List Event) : w.attempts id events = [] := by
  induction events generalizing w with
  | nil => rfl
  | cons e rest ih =>
    rw [attempts, attempt?_of_not_acts (acts_of_not_isLive h e)]
    exact ih (Nat.lt_of_lt_of_le hi (w.nextId_react e)) (not_isLive_react hi h e)

theorem not_isLive_play (hi : id < w.nextId) (h : w.isLive id = false) (events : List Event) :
    (w.play events).isLive id = false := by
  induction events generalizing w with
  | nil => exact h
  | cons e rest ih =>
    exact ih (Nat.lt_of_lt_of_le hi (w.nextId_react e)) (not_isLive_react hi h e)

theorem not_isLive_removeJob (w : World) (id : TaskId) : (w.removeJob id).isLive id = false := by
  simp [isLive, removeJob]

end World

namespace CallTask

variable {t : CallTask} {q : ResultQueue}

theorem deliver_leaves (id : TaskId) (d : Delivery) (hq : w.results[t.results]? = some q) :
    (t.deliver w id d).results[t.results]? = some (d.attempt q).2 ∧
      (d.attempt q).1.Leaves id (t.deliver w id d) := by
  obtain ⟨hl, -⟩ := List.getElem?_eq_some_iff.1 hq
  have hset (left : ResultQueue) : (w.setResults t.results left).results[t.results]? = some left :=
    List.getElem?_set_self hl
  unfold deliver
  rw [hq]
  rcases hp : d.attempt q with ⟨progress, left⟩
  simp only [hp]
  cases progress with
  | delivered => exact ⟨hset left, not_isLive_removeJob (w.setResults t.results left) id⟩
  | failed fault => exact ⟨hset left, not_isLive_removeJob (w.setResults t.results left) id⟩
  | waits delay rest =>
    simp only
    split
    · exact ⟨hset left, _, mem_jobs_keepFirst.2 (.inl rfl), rfl⟩
    · exact ⟨hset left, _, mem_jobs_keepLast.2 (.inr rfl), rfl⟩

end CallTask

namespace World

variable {t s : CallTask} {d : Delivery} {q : ResultQueue}

theorem attempt?_turn {signalFirst : Bool} (h : w.acting? id = some ⟨id, .call t⟩) :
    w.attempt? id (.step (.turn id signalFirst)) = (t.sending? w).bind fun (i, _) =>
      (w.results[i]?).bind fun found =>
        ((t.turn w id).results[i]?).map fun left => (found, left) := by
  have ha : w.acts id (.step (.turn id signalFirst)) = true := acts_iff.2 ⟨_, _, rfl, h⟩
  rw [attempt?, if_pos ha, react_of_acts h, (mem_of_acting? h).1]
  rfl

theorem turn_delivery (h : w.Settled) {signalFirst : Bool} (ha : w.acting? id = some ⟨id, .call t⟩)
    (hd : t.delivery? = some d) :
    (w.attempt? id (.step (.turn id signalFirst)) = none ∧
        ∃ s, ⟨id, .call s⟩ ∈ (t.turn w id).jobs ∧ s.delivery? = some d) ∨
      ∃ q, w.attempt? id (.step (.turn id signalFirst)) = some (q, (d.attempt q).2) ∧
        (d.attempt q).1.Leaves id (t.turn w id) := by
  obtain ⟨n, hs⟩ := h.sound
  obtain ⟨-, hm, -⟩ := mem_of_acting? ha
  have hl : t.results < w.results.length := (hs.fit ⟨id, .call t⟩ (by rwa [others_none])).2
  have hq := List.getElem?_eq_getElem hl
  have attempted {r : Response} (hr : t.sending? w = some (t.results, r)) {v : World}
      (hv : t.turn w id = t.deliver v id d) (he : v.results = w.results) :
      ∃ q, w.attempt? id (.step (.turn id signalFirst)) = some (q, (d.attempt q).2) ∧
        (d.attempt q).1.Leaves id (t.turn w id) := by
    have hv' : v.results[t.results]? = some w.results[t.results] := by rw [he, hq]
    obtain ⟨hleft, hleaves⟩ := t.deliver_leaves id d hv'
    refine ⟨_, ?_, hv ▸ hleaves⟩
    simp only [attempt?_turn ha, hr, hv, hq, hleft, Option.bind_some, Option.map_some]
  rcases ht : t.stage with _ | ⟨due, warnAt, _ | r⟩ | ⟨d', due⟩
  · simp [CallTask.delivery?, ht] at hd
  · simp [CallTask.delivery?, ht] at hd
  · simp only [CallTask.delivery?, ht, Option.some.injEq] at hd
    by_cases hdue : due ≤ w.now
    · refine .inr (attempted (r := r) ?_ (v := w.report (.info (CallTask.receivedMessage r))) ?_ rfl)
      · simp [CallTask.sending?, ht, hdue]
      · simp [CallTask.turn, ht, hdue, CallTask.answer, hd]
    · refine .inl ⟨?_, ?_⟩
      · simp [attempt?_turn ha, CallTask.sending?, ht, hdue]
      · simp only [CallTask.turn, ht, hdue, if_false]
        split
        · refine ⟨_, List.mem_map.2 ⟨_, hm, if_pos (beq_self_eq_true id)⟩, ?_⟩
          simp [CallTask.delivery?, hd]
        · exact ⟨t, hm, by simp [CallTask.delivery?, ht, hd]⟩
  · simp only [CallTask.delivery?, ht, Option.some.injEq] at hd
    subst hd
    by_cases hdue : due ≤ w.now
    · refine .inr (attempted (r := d'.response) ?_ (v := w) ?_ rfl)
      · simp [CallTask.sending?, ht, hdue]
      · simp [CallTask.turn, ht, hdue]
    · refine .inl ⟨?_, t, ?_, ?_⟩
      · simp [attempt?_turn ha, CallTask.sending?, ht, hdue]
      · simpa [CallTask.turn, ht, hdue] using hm
      · simp [CallTask.delivery?, ht]

theorem react_delivery (h : w.Settled) (hm : ⟨id, .call t⟩ ∈ w.jobs) (hd : t.delivery? = some d)
    (e : Event) :
    (w.attempt? id e = none ∧ ∃ s, ⟨id, .call s⟩ ∈ (w.react e).jobs ∧ s.delivery? = some d) ∨
      ∃ q, w.attempt? id e = some (q, (d.attempt q).2) ∧
        (d.attempt q).1.Leaves id (w.react e) := by
  obtain ⟨n, hs⟩ := h.sound
  cases ha : w.acts id e with
  | false => exact .inl ⟨attempt?_of_not_acts ha, t, call_stays h hm ha, hd⟩
  | true =>
    obtain ⟨signalFirst, j, rfl, hj⟩ := acts_iff.1 ha
    obtain rfl : j = ⟨id, .call t⟩ :=
      Option.some.inj ((mem_of_acting? hj).1.symm.trans (hs.job?_of_mem hm))
    rw [react_of_acts hj]
    exact turn_delivery h hj hd

theorem attempts_prefix (h : w.Settled) (hm : ⟨id, .call t⟩ ∈ w.jobs) (hd : t.delivery? = some d)
    (events : List Event) (found : Nat → ResultQueue)
    (hf : ∀ i x, (w.attempts id events)[i]? = some x → found i = x.1) :
    w.attempts id events <+: (d.run found).attempts ∧
      ((w.play events).isLive id = true ↔ w.attempts id events ≠ (d.run found).attempts) := by
  induction events generalizing w t d found with
  | nil =>
    refine ⟨List.nil_prefix, iff_of_true (isLive_of_mem hm) ?_⟩
    obtain ⟨n, left, -, -, hrun, -⟩ := d.exists_last found
    rw [hrun]
    exact (List.append_ne_nil_of_right_ne_nil _ (List.cons_ne_nil _ _)).symm
  | cons e rest ih =>
    obtain ⟨n, hs⟩ := h.sound
    rw [attempts] at hf ⊢
    rcases react_delivery h hm hd e with ⟨hn, s, hsm, hsd⟩ | ⟨q, ha, hleaves⟩
    · rw [hn] at hf ⊢
      exact ih (h.react e) hsm hsd found hf
    · rw [ha] at hf ⊢
      have hq : found 0 = q := hf 0 _ rfl
      rcases hp : d.attempt q with ⟨progress, left⟩
      rw [hp] at hleaves
      rw [← hq] at hp
      have ended (hl : (w.react e).isLive id = false) (c : Delivery.Course)
          (hc : c.attempts = [(found 0, left)]) :
          [(q, left)] ++ (w.react e).attempts id rest <+: c.attempts ∧
            (((w.react e).play rest).isLive id = true ↔
              [(q, left)] ++ (w.react e).attempts id rest ≠ c.attempts) := by
        have hi : id < (w.react e).nextId :=
          Nat.lt_of_lt_of_le (hs.lt_nextId hm) (w.nextId_react e)
        rw [attempts_of_not_isLive hi hl, not_isLive_play hi hl, hc, hq]
        simp
      cases progress with
      | delivered => exact ended hleaves _ (by rw [Delivery.run_of_delivered hp])
      | failed fault => exact ended hleaves _ (by rw [Delivery.run_of_failed hp])
      | waits delay after =>
        obtain ⟨s, hsm, hsd⟩ := hleaves
        obtain ⟨hpre, hlive⟩ := ih (h.react e) hsm hsd (fun i => found (i + 1)) fun i x hx =>
          hf (i + 1) x hx
        rw [Delivery.run_of_waits hp, ← hq]
        refine ⟨(List.prefix_cons_inj _).2 hpre, hlive.trans ?_⟩
        simp

end World

/-- A delivery comes to its end whatever its attempts find. It makes another attempt if and only if
all before it found the queue full and a delay was left, so one more than there are delays at most.
It has succeeded if and only if an attempt found space; then that attempt, and no other, put the
response on the queue. It stops at an attempt that finds the queue closed, it fails for a full queue
if and only if all the attempts that it may make found it full, and if it fails it has changed
nothing. This is what every call does, whoever else fills, drains or closes the queue: in every run,
from the arrival of the response on, it makes these attempts on the queue as each finds it, and goes
on if and only if one of them is still to be made. -/
theorem Delivery.gives_up_at_bound (policy : RetryPolicy) (r : Response) :
    (∀ found : Nat → ResultQueue,
      ((start policy r).run found).GivesUpAt policy.maxRetries r found) ∧
    ∀ (s : Setup) (before after : List Event) (id : TaskId) (t : CallTask) (due : Nat)
      (warnAt : Option Nat) (found : Nat → ResultQueue),
      let w := s.world.play before
      let c := (start policy r).run found
      ⟨id, .call t⟩ ∈ w.jobs → t.stage = .answering due warnAt (.ok r) →
      t.crawler.config.retry = policy →
      (∀ i x, (w.attempts id after)[i]? = some x → found i = x.1) →
        w.attempts id after <+: c.attempts ∧
        ((w.play after).isLive id = true ↔ w.attempts id after ≠ c.attempts) := by
  refine ⟨(start policy r).run_givesUpAt, ?_⟩
  intro s before after id t due warnAt found w c hm ht hp hf
  have hd : t.delivery? = some (start policy r) := by
    rw [CallTask.delivery?, ht, ← hp]
  exact attempts_prefix (play_settled s before) hm hd after found hf

namespace Setup

def greeting : Response := ⟨Account.unserved.request.url, ⟨"", []⟩⟩

def greeted : CallTask :=
  ⟨⟨0, .standard⟩, 0, 0, Account.unserved.request,
    .answering 5000000 (some 30000000000) (.ok greeting)⟩

def crowded : ResultQueue := ⟨1, [greeting], true, 1⟩

def crowding : List Event :=
  [.results 0 crowded, .step (.pass 5000000), .step (.turn 2 true), .results 0 (.empty 1 1),
    .step (.pass 10000000), .step (.turn 2 true)]

theorem gives_up_at_bound_crowding :
    let w := sluggish.world.play asking
    let found (i : Nat) := ((w.attempts 2 crowding)[i]?.map Prod.fst).getD (.empty 1 1)
    let c := (Delivery.start .standard greeting).run found
    ⟨2, .call greeted⟩ ∈ w.jobs ∧
    (w.attempts 2 crowding).map (fun x => (x.1.held.length, x.2.held.length)) = [(1, 1), (0, 1)] ∧
    w.attempts 2 crowding = c.attempts := by
  intro w found c
  have hm : ⟨2, .call greeted⟩ ∈ w.jobs := .head _
  obtain ⟨-, hlive⟩ := (Delivery.gives_up_at_bound .standard greeting).2 sluggish asking crowding 2
    greeted _ _ found hm rfl rfl fun i x hx => by
      change ((w.attempts 2 crowding)[i]?.map Prod.fst).getD _ = _
      rw [hx]
      rfl
  have hover : (w.play crowding).isLive 2 = false := by decide
  refine ⟨hm, by decide, ?_⟩
  by_contra hne
  exact Bool.false_ne_true (hover.symm.trans (hlive.2 hne))

end Setup

end CatalogCrawl

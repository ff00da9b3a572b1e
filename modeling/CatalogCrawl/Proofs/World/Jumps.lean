import CatalogCrawl.Proofs.World.Patience

namespace CatalogCrawl

open World

variable {w : World} {id : TaskId} {time d : Nat}

namespace Task

theorem isReady_at (h : w.now ≤ time) (t : Task) :
    t.isReady { w with now := time } id = true ↔
      t.isReady w id = true ∨ ∃ d, t.deadline? = some d ∧ d ≤ time := by
  have never {b : Bool} : b = true ↔ b = true ∨ ∃ k, (none : Option Nat) = some k ∧ k ≤ time := by
    simp
  have last (a : Bool) {d : Nat} : (decide (d ≤ time) || a) = true ↔
      (decide (d ≤ w.now) || a) = true ∨ ∃ k, some d = some k ∧ k ≤ time := by
    have hd : d ≤ w.now → d ≤ time := fun hd => Nat.le_trans hd h
    cases a with
    | true => simp
    | false => simpa using hd
  have first (a : Bool) {d : Nat} : (a || decide (d ≤ time)) = true ↔
      (a || decide (d ≤ w.now)) = true ∨ ∃ k, some d = some k ∧ k ≤ time := by
    rw [Bool.or_comm, Bool.or_comm a]
    exact last a
  cases t with
  | crawl t =>
    rcases t with ⟨crawler, results, signal, mode, stage, doomed⟩
    cases stage with
    | polling ticket deadline seen => exact first _
    | _ => exact never
  | call t =>
    rcases t with ⟨crawler, results, adapter, request, stage⟩
    cases stage with
    | starting => exact never
    | answering due warnAt outcome =>
      cases warnAt with
      | none => exact last false
      | some warnAt =>
        simp only [isReady, CallTask.isReady, CallTask.isLate, deadline?, CallTask.deadline?,
          Bool.or_eq_true, decide_eq_true_eq, Option.some.injEq, exists_eq_left']
        omega
    | delivering rest due => exact first false
  | plan t =>
    rcases t with ⟨ticker, signal, action, stage⟩
    cases stage with
    | ticking seen => exact first _
    | pausing due => exact first false
    | _ => exact never
  | load t => exact never
  | evict t =>
    rcases t with ⟨ttl, period, signal, seen, stage⟩
    cases stage with
    | starting => exact never
    | ticking ticker => exact first _
  | manage t =>
    rcases t with ⟨call, stage⟩
    cases stage with
    | planEnding plan deadline => exact first _
    | crawlersEnding join => exact last _
    | idleWanted activity deadline => exact first _
    | _ => exact never
  | windDown t =>
    cases t with
    | entering => exact never
    | draining timeout deadline => exact last _
    | ending timeout left deadline => exact last _
  | poll ticket deadline =>
    cases ticket with
    | none => exact first true
    | some ticket => exact first _
  | refill => exact never
  | lock deadline entered => exact first _
  | send results r due => exact first false
  | awaitIdle activity deadline => exact first _

theorem lt_of_deadline? {t : Task} (h : t.deadline? = some d) (hn : t.isReady w id = false) :
    w.now < d := by
  refine Nat.not_le.1 fun hd => ?_
  have hr : t.isReady w id = true := (isReady_at (Nat.le_refl w.now) t).2 (.inr ⟨d, h, hd⟩)
  rw [hn] at hr
  cases hr

end Task

namespace World

theorem foldl_le {α : Type} {f : Option Nat → α → Option Nat} {x : α}
    (hf : ∀ b a, ∃ c, f (some b) a = some c ∧ c ≤ b) (hx : ∀ best, ∃ b, f best x = some b ∧ b ≤ d)
    {l : List α} (hm : x ∈ l) (best : Option Nat) : ∃ b, l.foldl f best = some b ∧ b ≤ d := by
  have stays (l : List α) (b : Nat) : ∃ c, l.foldl f (some b) = some c ∧ c ≤ b := by
    induction l generalizing b with
    | nil => exact ⟨b, rfl, Nat.le_refl b⟩
    | cons a l ih =>
      obtain ⟨c, hc, hl⟩ := hf b a
      obtain ⟨k, hk, hkc⟩ := ih c
      exact ⟨k, by rw [List.foldl_cons, hc, hk], Nat.le_trans hkc hl⟩
  induction l generalizing best with
  | nil => cases hm
  | cons a l ih =>
    rcases List.mem_cons.1 hm with rfl | hm
    · obtain ⟨b, hb, hd⟩ := hx best
      obtain ⟨c, hc, hl⟩ := stays l b
      exact ⟨c, by rw [List.foldl_cons, hb, hc], Nat.le_trans hl hd⟩
    · exact ih hm (f best a)

theorem exists_nextDeadline?_le {j : Job} (hj : j ∈ w.jobs) (h : j.task.deadline? = some d)
    (hd : w.now < d) : ∃ b, w.nextDeadline? = some b ∧ b ≤ d := by
  refine foldl_le (fun b a => ?_) (fun best => ?_) hj none
  · split
    · exact ⟨b, rfl, Nat.le_refl b⟩
    · split
      · exact ⟨b, rfl, Nat.le_refl b⟩
      · exact ⟨_, rfl, Nat.min_le_left b _⟩
  · rw [h]
    simp only [if_neg (Nat.not_le.2 hd)]
    cases best with
    | none => exact ⟨d, rfl, Nat.le_refl d⟩
    | some b => exact ⟨_, rfl, Nat.min_le_right b d⟩

theorem roundUp_le (h : Span.nanosInMilli ∣ time) (hd : d ≤ time) : roundUp d ≤ time := by
  obtain ⟨k, rfl⟩ := h
  unfold roundUp
  simp only [Span.nanosInMilli] at hd ⊢
  omega

theorem elapses_jump (hr : w.nextReady? = none) (hd : w.nextDeadline? = some d) :
    w.Elapses (Span.nanosInMilli ∣ ·) none (roundUp d - w.now) := by
  have still : ∀ j ∈ w.jobs, j.task.isReady w j.id = false := by
    simpa [nextReady?] using hr
  refine ⟨?_, fun time ht hl hg j hj => ?_, nofun⟩
  · rcases Nat.le_total w.now (roundUp d) with hn | hn
    · rw [Nat.add_sub_of_le hn]
      exact .inr (Nat.dvd_mul_left _ _)
    · exact .inl (Nat.sub_eq_zero_of_le hn)
  · have hn : j.task.isReady w j.id = false := still j hj
    rw [← Bool.not_eq_true]
    intro hready
    rcases (Task.isReady_at hl j.task).1 (Task.isReady_of_untimed hready) with hr | ⟨k, hk, hle⟩
    · rw [hn] at hr
      cases hr
    · have hnow := Task.lt_of_deadline? hk hn
      obtain ⟨b, hb, hbk⟩ := exists_nextDeadline?_le (w := w) hj hk hnow
      cases Option.some.inj (hd.symm.trans hb)
      rcases ht with rfl | ht
      · omega
      · have hup := roundUp_le ht (Nat.le_trans hbk hle)
        omega

/-- Time goes on in whole milliseconds, and not while some task has something to do. -/
def IsVirtual (w : World) : List Event → Prop
  | [] => True
  | e :: rest =>
    (∀ nanos, e = .step (.pass nanos) → w.Elapses (Span.nanosInMilli ∣ ·) none nanos) ∧
      (w.react e).IsVirtual rest

theorem IsVirtual.turn {i : TaskId} {signalFirst : Bool} {rest : List Event}
    (h : (w.react (.step (.turn i signalFirst))).IsVirtual rest) :
    w.IsVirtual (.step (.turn i signalFirst) :: rest) := ⟨nofun, h⟩

theorem IsVirtual.jump {nanos : Nat} {rest : List Event} (hr : w.nextReady? = none)
    (hd : w.nextDeadline? = some d) (hn : nanos = roundUp d - w.now)
    (h : (w.react (.step (.pass nanos))).IsVirtual rest) :
    w.IsVirtual (.step (.pass nanos) :: rest) := by
  refine ⟨?_, h⟩
  rintro n ⟨⟩
  exact hn ▸ elapses_jump hr hd

end World

end CatalogCrawl

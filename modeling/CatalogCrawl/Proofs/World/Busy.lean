import CatalogCrawl.Proofs.World.Hands

namespace CatalogCrawl

open World

variable {w v u : World} {id : TaskId} {e : Event}

section Turns

theorem CallTask.activities_turn (w : World) (t : CallTask) :
    (t.turn w id).activities = w.activities := by
  have delivered (w : World) (t : CallTask) (d : Delivery) :
      (t.deliver w id d).activities = w.activities := by
    unfold deliver
    split
    · rfl
    · simp only
      split
      · rfl
      · rfl
      · split <;> rfl
  have answered (w : World) (r : Except AdapterFault Response) :
      (t.answer w id r).activities = w.activities := by
    cases r with
    | error fault => rfl
    | ok r => exact delivered (w.report _) t _
  unfold turn ask
  split
  · split
    · rfl
    · simp only
      split <;> rfl
  · split
    · exact answered w _
    · split <;> rfl
  · split
    · exact delivered w t _
    · rfl

theorem PlanTask.activities_turn (w : World) (t : PlanTask) (signalFirst : Bool) :
    (t.turn w id signalFirst).activities = w.activities := by
  have acted : (t.act w id).activities = w.activities := by
    unfold act
    simp only
    split <;> split <;> rfl
  unfold turn look
  split
  · simp only
    split
    · rfl
    · split
      · exact acted
      · rfl
  · simp only
    split
    · split <;> rfl
    · split
      · exact acted
      · rfl
  · split <;> rfl
  · split <;> rfl

theorem LoadTask.activities_turn (w : World) (t : LoadTask) :
    (t.turn w id).activities = w.activities := by
  have saved (o : Offer) : (w.saveOffer o).activities = w.activities := by
    unfold saveOffer World.look
    cases w.clock <;> rfl
  unfold turn receive goOn
  split
  · split
    · split <;> rfl
    · split <;> rfl
  · split <;> rfl
  · rename_i o left _
    split <;> exact saved o

theorem EvictionTask.activities_turn (w : World) (t : EvictionTask) (signalFirst : Bool) :
    (t.turn w id signalFirst).activities = w.activities := by
  have expired : (w.expireOffers t.ttl).activities = w.activities := by
    unfold expireOffers World.look
    cases w.clock <;> rfl
  unfold turn
  split
  · split <;> rfl
  · simp only
    split
    · rfl
    · split
      · exact expired
      · rfl

theorem WindDown.activities_turn (w : World) (t : WindDown) :
    (t.turn w id).activities = w.activities := by
  have skipped (w : World) (timeout : Span) (left : List TaskId) :
      (skip w timeout left).1.activities = w.activities := by
    induction left generalizing w with
    | nil => rfl
    | cons task rest ih =>
      unfold skip
      split
      · exact ih w
      · split
        · exact ih (w.warn (lateMessage timeout))
        · rfl
  have awaited (w : World) (timeout : Span) (left : List TaskId) :
      (awaitNext w id timeout left).activities = w.activities := by
    have hskip := skipped w timeout left
    unfold awaitNext
    rcases hv : skip w timeout left with ⟨v, _ | ⟨task, rest⟩⟩ <;> rw [hv] at hskip <;> exact hskip
  have drained (timeout : Span) (deadline : Nat) :
      (drain w id timeout deadline).activities = w.activities := by
    unfold drain notDrained signalAll
    split
    · exact awaited _ _ _
    · split
      · exact awaited _ _ _
      · split
        · exact awaited _ _ _
        · rfl
  unfold turn
  split
  · exact drained _ _
  · exact drained _ _
  · split
    · rfl
    · split
      · exact awaited _ _ _
      · split
        · exact awaited _ _ _
        · rfl

namespace World

theorem activities_sendTurn (w : World) (results : Nat) (r : Response) (due : Nat) :
    (w.sendTurn id results r due).activities = w.activities := by
  unfold sendTurn
  split
  · split
    · rfl
    · split <;> rfl
  · rfl

theorem activities_pollTurn (w : World) (ticket : Option Nat) (deadline : Nat) :
    (w.pollTurn id ticket deadline).activities = w.activities := by
  have follow (r : WorkQueue.Attempt × WorkQueue) :
      (w.followPoll id deadline r).activities = w.activities := by
    rcases r with ⟨_ | _ | _, q⟩ <;> rfl
  cases ticket with
  | none => exact follow _
  | some ticket =>
    rw [pollTurn_some]
    split
    · exact follow _
    · split <;> rfl

theorem activities_refillTurn (w : World) (items : List WorkItem) (entered : Bool) :
    (w.refillTurn id items entered).activities = w.activities := by
  unfold refillTurn
  cases entered <;> simp only [if_true, Bool.false_eq_true, if_false] <;> split <;> rfl

theorem activities_lockTurn (w : World) (deadline : Nat) (entered : Bool) :
    (w.lockTurn id deadline entered).activities = w.activities := by
  unfold lockTurn
  cases entered <;> simp only [if_true, Bool.false_eq_true, if_false]
  all_goals
    split
    · rfl
    · split <;> rfl

theorem activities_idleTurn (w : World) (activity deadline : Nat) :
    (w.idleTurn id activity deadline).activities = w.activities := by
  unfold idleTurn
  split
  · rfl
  · split <;> rfl

end World

theorem Task.activities_turn {t : Task} (hc : t.isCrawl = false) (hm : t.isManage = false)
    (w : World) (signalFirst : Bool) : (t.turn w id signalFirst).activities = w.activities := by
  cases t with
  | crawl t => cases hc
  | call t => exact t.activities_turn w
  | plan t => exact t.activities_turn w signalFirst
  | load t => exact t.activities_turn w
  | evict t => exact t.activities_turn w signalFirst
  | manage t => cases hm
  | windDown t => exact t.activities_turn w
  | send results r due => exact activities_sendTurn w results r due
  | poll ticket deadline => exact activities_pollTurn w ticket deadline
  | refill items entered => exact activities_refillTurn w items entered
  | lock deadline entered => exact activities_lockTurn w deadline entered
  | awaitIdle activity deadline => exact activities_idleTurn w activity deadline

theorem ManagerTask.Ends.activities {t : ManagerTask} {n : Nat} (h : t.Ends id w n v) :
    v.activities = w.activities := by
  cases h <;> rfl

theorem ManagerTask.Ends.nextId {t : ManagerTask} {n : Nat} (h : t.Ends id w n v) :
    v.nextId = w.nextId := by
  cases h <;> rfl

end Turns

namespace World

def AddsCounts (w v : World) : Prop :=
  ∃ n, v.activities = w.activities ++ List.replicate n Activity.idle

namespace AddsCounts

theorem of_eq (h : v.activities = w.activities) : w.AddsCounts v :=
  ⟨0, h.trans (List.append_nil _).symm⟩

theorem refl (w : World) : w.AddsCounts w := of_eq rfl

theorem one (h : v.activities = w.activities ++ [.idle]) : w.AddsCounts v := ⟨1, h⟩

theorem trans (h : w.AddsCounts v) (k : v.AddsCounts u) : w.AddsCounts u := by
  obtain ⟨m, hm⟩ := h
  obtain ⟨n, hn⟩ := k
  exact ⟨m + n, by rw [hn, hm, List.append_assoc, List.replicate_append_replicate]⟩

theorem length_le (h : w.AddsCounts v) : w.activities.length ≤ v.activities.length := by
  obtain ⟨n, hn⟩ := h
  rw [hn, List.length_append]
  exact Nat.le_add_right _ _

theorem activity (h : w.AddsCounts v) (i : Nat) : v.activity i = w.activity i := by
  obtain ⟨n, hn⟩ := h
  rw [World.activity, hn, World.activity, List.getElem?_append]
  split
  · rfl
  · rename_i hi
    rw [List.getElem?_eq_none (Nat.not_lt.1 hi), List.getElem?_replicate]
    split <;> rfl

end AddsCounts

theorem Deed.addsCounts {n : Nat} (h : w.Deed id n v) : w.AddsCounts v := by
  cases h with
  | chore hc =>
    cases hc with
    | abort task =>
      obtain ⟨jobs, q, l, ha, -⟩ := w.abort_eq task
      exact .of_eq (by rw [ha])
    | _ => exact .of_eq rfl
  | opens =>
    obtain ⟨journal, hs⟩ := w.spawnPool_eq
    exact .one (by rw [hs]; rfl)
  | _ => exact .of_eq rfl

theorem Deeds.addsCounts {n : Nat} (h : Deeds id n w v) : w.AddsCounts v := by
  induction h with
  | refl w => exact .refl w
  | head hd _ ih => exact hd.addsCounts.trans ih

theorem addsCounts_react (h : w.Settled) (hc : w.isCrawling e = false) :
    w.AddsCounts (w.react e) := by
  cases e with
  | step s =>
    cases s with
    | turn id signalFirst =>
      simp only [react, step_turn_eq]
      cases hj : w.acting? id with
      | none => exact .refl w
      | some j =>
        obtain ⟨hk, hm, rfl⟩ := mem_of_acting? hj
        have hcrawl : j.task.isCrawl = false := by simpa [isCrawling, hk] using hc
        cases hmanage : j.task.isManage with
        | false => exact .of_eq (Task.activities_turn hcrawl hmanage w signalFirst)
        | true =>
          rcases j with ⟨id, task⟩
          cases task with
          | manage t =>
            rcases t.turn_does h.toWired (h.proper id t hm (Option.some_ne_none id)) with he | ⟨n, v, hd, he⟩
            · exact .of_eq (congrArg World.activities he)
            · exact hd.addsCounts.trans (.of_eq he.activities)
          | _ => cases hmanage
    | pass nanos => exact .refl w
  | launch t =>
    simp only [react]
    split <;> exact .of_eq rfl
  | cancel id =>
    simp only [react]
    split
    · split
      · exact (Deed.chore (.abort id) : w.Deed 0 0 _).addsCounts
      · exact .refl w
    · exact .refl w
  | schedule p =>
    obtain ⟨signals, hf, -⟩ := w.follow_cases p
    rw [react, hf]
    exact .of_eq rfl
  | dropManager =>
    obtain ⟨v, hv, -, hd⟩ := w.dropManager_cases
    rw [react, hd]
    exact (hv.deeds 0).addsCounts.trans (.of_eq rfl)
  | _ => exact .of_eq rfl

end World

end CatalogCrawl

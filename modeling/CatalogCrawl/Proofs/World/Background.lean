import CatalogCrawl.Proofs.World.Moving

namespace CatalogCrawl

open World

variable {w : World} {served : Served} {id : TaskId}

theorem World.look_moved (h : w.Poised (some id) 0 served) :
    Moved (some id) 0 served w w.look.2 := by
  unfold look
  split
  · exact .refl h
  · exact h.pass rfl rfl rfl rfl rfl rfl rfl rfl rfl

namespace PlanTask

variable {t : PlanTask}

theorem proceed_ended (h : w.Poised (some id) 0 served) : Ended [] served w (t.proceed w id) :=
  h.keepFirst rfl trivial

theorem addWorkload_moved (h : w.Poised (some id) 0 served) :
    Moved (some id) 0 served w w.addWorkload := by
  have hr : Moved (some id) 0 served w (w.report (.debug
      ("partition manager: execute plan - adding workload " ++ toString w.manager.workload.length))) :=
    h.pass rfl rfl rfl rfl rfl rfl rfl rfl rfl
  have ha := hr.trans (hr.poised.addAll w.manager.workload)
  exact ha.trans (ha.poised.pass rfl rfl rfl rfl rfl rfl rfl rfl rfl)

theorem refillNow_ended (h : w.Poised (some id) 0 served) : Ended [] served w (t.refillNow w id) := by
  have ha := addWorkload_moved h
  have hl : Moved (some id) 0 served w (w.addWorkload.leaveLock id) :=
    ha.trans (ha.poised.pass rfl rfl rfl rfl rfl rfl rfl rfl rfl)
  exact hl.ended (proceed_ended hl.poised)

theorem act_ended (h : w.Poised (some id) 0 served) : Ended [] served w (t.act w id) := by
  unfold act
  simp only
  split
  · have he : Moved (some id) 0 served w ((w.report (.debug
        "partition manager: execute plan - waiting for queue lock")).enterLock id) :=
      h.pass rfl rfl rfl rfl rfl rfl rfl rfl rfl
    split
    · exact he.ended (refillNow_ended he.poised)
    · exact he.ended (he.poised.keepLast rfl trivial)
  · have hp : Moved (some id) 0 served w { w with pauses := w.now :: w.pauses } :=
      h.pass rfl rfl rfl rfl rfl rfl rfl rfl rfl
    split
    · exact hp.ended (proceed_ended hp.poised)
    · exact hp.ended (hp.poised.keepLast rfl trivial)

theorem look_ended (h : w.Poised (some id) 0 served) (signalFirst : Bool) :
    Ended [] served w (t.look w id signalFirst) := by
  unfold look
  simp only
  split
  · exact h.finish _ rfl
  · split
    · exact act_ended h
    · exact h.keepLast rfl trivial

theorem turn_ended (h : w.Poised (some id) 0 served) (hw : w.Sound none 0 served)
    (signalFirst : Bool) : Ended [] served w (t.turn w id signalFirst) := by
  unfold turn
  split
  · exact look_ended h signalFirst
  · simp only
    split
    · split
      · exact proceed_ended h
      · exact h.finish _ rfl
    · split
      · exact act_ended h
      · exact ⟨.refl w, hw, rfl⟩
  · split
    · exact refillNow_ended h
    · exact ⟨.refl w, hw, rfl⟩
  · split
    · exact proceed_ended h
    · exact ⟨.refl w, hw, rfl⟩

end PlanTask

namespace LoadTask

variable {t : LoadTask}

theorem saveOffer_moved (h : w.Poised (some id) 0 served) (o : Offer) :
    Moved (some id) 0 served w (w.saveOffer o) :=
  have hl := look_moved h
  hl.trans (hl.poised.pass rfl rfl rfl rfl rfl rfl rfl rfl rfl)

theorem goOn_ended (h : w.Poised (some id) 0 served) (r : Response) (left : List Offer) :
    Ended [] served w (t.goOn w id r left) := by
  unfold goOn
  split
  · have hc : Moved (some id) 0 served w (w.countLoaded t.results r) :=
      h.pass rfl rfl rfl rfl rfl rfl rfl rfl rfl
    exact hc.ended (hc.poised.keepFirst rfl trivial)
  · exact h.keepFirst rfl trivial

theorem receive_ended (h : w.Poised (some id) 0 served) : Ended [] served w (t.receive w id) := by
  unfold receive
  split
  · rename_i r q hr
    have hs : Moved (some id) 0 served w (w.setResults t.results q) :=
      h.pass rfl rfl rfl rfl rfl rfl rfl (by simp [setResults]) rfl
    exact hs.ended (goOn_ended hs.poised r _)
  · split
    · have hc : Moved (some id) 0 served w (w.closeResults t.results) :=
        h.pass rfl rfl rfl rfl rfl rfl rfl (by simp [closeResults]) rfl
      exact hc.ended (hc.poised.finish _ rfl)
    · exact h.keepLast rfl trivial

theorem turn_ended (h : w.Poised (some id) 0 served) : Ended [] served w (t.turn w id) := by
  unfold turn
  split
  · exact receive_ended h
  · exact goOn_ended h _ _
  · rename_i r o left _
    have hs := saveOffer_moved h o
    exact hs.ended (goOn_ended hs.poised r left)

end LoadTask

namespace EvictionTask

theorem turn_ended (h : w.Poised (some id) 0 served) (hw : w.Sound none 0 served)
    (t : EvictionTask) (signalFirst : Bool) : Ended [] served w (t.turn w id signalFirst) := by
  unfold turn
  split
  · split
    · exact h.finish _ rfl
    · exact h.keepLast rfl trivial
  · simp only
    split
    · exact h.finish _ rfl
    · split
      · have hl := look_moved h
        have he : Moved (some id) 0 served w (w.expireOffers t.ttl) :=
          hl.trans (hl.poised.pass rfl rfl rfl rfl rfl rfl rfl rfl rfl)
        exact he.ended (he.poised.keepLast rfl trivial)
      · exact ⟨.refl w, hw, rfl⟩

end EvictionTask

namespace WindDown

theorem skip_moved (h : w.Poised (some id) 0 served) (timeout : Span) (left : List TaskId) :
    Moved (some id) 0 served w (skip w timeout left).1 := by
  induction left generalizing w with
  | nil => exact .refl h
  | cons task rest ih =>
    unfold skip
    split
    · exact ih h
    · split
      · have hw : Moved (some id) 0 served w (w.warn (lateMessage timeout)) :=
          h.pass rfl rfl rfl rfl rfl rfl rfl rfl rfl
        exact hw.trans (ih hw.poised)
      · exact .refl h

theorem awaitNext_ended (h : w.Poised (some id) 0 served) (timeout : Span) (left : List TaskId) :
    Ended [] served w (awaitNext w id timeout left) := by
  have hs := skip_moved h timeout left
  unfold awaitNext
  rcases hk : skip w timeout left with ⟨v, _ | ⟨task, rest⟩⟩
  · rw [hk] at hs
    exact hs.ended (hs.poised.finish _ rfl)
  · rw [hk] at hs
    exact hs.ended (hs.poised.keepLast rfl trivial)

theorem signalAll_ended (h : w.Poised (some id) 0 served) (timeout : Span) (left : List TaskId) :
    Ended [] served w (signalAll w id timeout left) := by
  have hs : Moved (some id) 0 served w (w.setSignal w.background.signal true) :=
    h.pass rfl rfl rfl rfl rfl rfl rfl rfl rfl
  exact hs.ended (awaitNext_ended hs.poised timeout _)

theorem drain_ended (h : w.Poised (some id) 0 served) (timeout : Span) (deadline : Nat) :
    Ended [] served w (drain w id timeout deadline) := by
  unfold drain
  split
  · exact signalAll_ended h timeout _
  · split
    · exact signalAll_ended h timeout _
    · split
      · rename_i loader _ _ _
        have hw : Moved (some id) 0 served w (w.warn (openMessage timeout)) :=
          h.pass rfl rfl rfl rfl rfl rfl rfl rfl rfl
        exact hw.ended (signalAll_ended hw.poised timeout [loader])
      · exact h.keepLast rfl trivial

theorem turn_ended (h : w.Poised (some id) 0 served) (hw : w.Sound none 0 served) (t : WindDown) :
    Ended [] served w (t.turn w id) := by
  unfold turn
  split
  · exact drain_ended h _ _
  · exact drain_ended h _ _
  · rename_i timeout left deadline
    split
    · exact h.finish _ rfl
    · split
      · exact awaitNext_ended h _ _
      · split
        · have hl : Moved (some id) 0 served w (w.warn (lateMessage timeout)) :=
            h.pass rfl rfl rfl rfl rfl rfl rfl rfl rfl
          exact hl.ended (awaitNext_ended hl.poised timeout _)
        · exact ⟨.refl w, hw, rfl⟩

end WindDown

namespace World

theorem sendTurn_ended (h : w.Poised (some id) 0 served) (hw : w.Sound none 0 served)
    (results : Nat) (r : Response) (due : Nat) :
    Ended [] served w (w.sendTurn id results r due) := by
  have hs (q : ResultQueue) : Moved (some id) 0 served w (w.setResults results q) :=
    h.pass rfl rfl rfl rfl rfl rfl rfl (by simp [setResults]) rfl
  unfold sendTurn
  split
  · split
    · exact h.removeJob
    · split
      · rename_i q _
        have hm := (hs q).trans ((hs q).poised.pass (v := { w.setResults results q with
          sentAt := w.now :: w.sentAt }) rfl rfl rfl rfl rfl rfl rfl rfl rfl)
        exact hm.ended (hm.poised.finish _ rfl)
      · exact (hs _).ended ((hs _).poised.finish _ rfl)
  · exact ⟨.refl w, hw, rfl⟩

theorem enterLock_moved (h : w.Poised (some id) 0 served) (who : Nat) :
    Moved (some id) 0 served w (w.enterLock who) :=
  h.pass rfl rfl rfl rfl rfl rfl rfl rfl rfl

theorem leaveLock_moved (h : w.Poised (some id) 0 served) (who : Nat) :
    Moved (some id) 0 served w (w.leaveLock who) :=
  h.pass rfl rfl rfl rfl rfl rfl rfl rfl rfl

theorem refillHeld_ended (h : w.Poised (some id) 0 served) (items : List WorkItem) :
    Ended [] served w ((({ w with queue := (w.queue.addAll items).2 } : World).leaveLock id).finish id
      (.count (w.queue.addAll items).1)) := by
  have ha := h.addAll items
  have hl := ha.trans (leaveLock_moved ha.poised id)
  exact hl.ended (hl.poised.finish _ rfl)

theorem refillTurn_ended (h : w.Poised (some id) 0 served) (hw : w.Sound none 0 served)
    (items : List WorkItem) (entered : Bool) : Ended [] served w (w.refillTurn id items entered) := by
  unfold refillTurn
  cases entered with
  | true =>
    simp only [if_true]
    split
    · exact refillHeld_ended h items
    · exact ⟨.refl w, hw, rfl⟩
  | false =>
    simp only [Bool.false_eq_true, if_false]
    have he := enterLock_moved h id
    split
    · exact he.ended (refillHeld_ended he.poised items)
    · exact he.ended (he.poised.keepLast rfl trivial)

theorem lockTurn_ended (h : w.Poised (some id) 0 served) (hw : w.Sound none 0 served)
    (deadline : Nat) (entered : Bool) : Ended [] served w (w.lockTurn id deadline entered) := by
  have hl {v : World} (hv : v.Poised (some id) 0 served) :
      Ended [] served v ((v.leaveLock id).finish id (.flag false)) :=
    have hm := leaveLock_moved hv id
    hm.ended (hm.poised.finish _ rfl)
  unfold lockTurn
  cases entered with
  | true =>
    simp only [if_true]
    split
    · exact h.finish _ rfl
    · split
      · exact hl h
      · exact ⟨.refl w, hw, rfl⟩
  | false =>
    simp only [Bool.false_eq_true, if_false]
    have he := enterLock_moved h id
    split
    · exact he.ended (he.poised.finish _ rfl)
    · split
      · exact he.ended (hl he.poised)
      · exact he.ended (he.poised.keepLast rfl trivial)

theorem idleTurn_ended (h : w.Poised (some id) 0 served) (hw : w.Sound none 0 served)
    (activity deadline : Nat) : Ended [] served w (w.idleTurn id activity deadline) := by
  unfold idleTurn
  split
  · exact h.finish _ rfl
  · split
    · exact h.finish _ rfl
    · exact ⟨.refl w, hw, rfl⟩

end World

end CatalogCrawl

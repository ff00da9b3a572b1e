import CatalogCrawl.Proofs.World.Sessions

namespace CatalogCrawl.World

variable {w v : World}

theorem steps_append (w : World) (list later : List Step) :
    w.steps (list ++ later) = (w.steps list).steps later :=
  List.foldl_append

def Reaches (w v : World) : Prop := ∃ list, v = w.steps list

namespace Reaches

theorem refl (w : World) : w.Reaches w := ⟨[], rfl⟩

theorem step (w : World) (s : Step) : w.Reaches (w.step s) := ⟨[s], rfl⟩

theorem trans {u : World} (h : w.Reaches v) (k : v.Reaches u) : w.Reaches u := by
  obtain ⟨list, rfl⟩ := h
  obtain ⟨later, rfl⟩ := k
  exact ⟨list ++ later, (w.steps_append list later).symm⟩

theorem settleWithin (fuel : Nat) (w : World) : w.Reaches (w.settleWithin fuel) := by
  induction fuel generalizing w with
  | zero => exact refl w
  | succ fuel ih =>
    unfold World.settleWithin
    split
    · exact refl w
    · exact (step w _).trans (ih _)

theorem settle (w : World) : w.Reaches w.settle := settleWithin _ w

theorem of_jump? {limit : Nat} (h : w.jump? limit = some v) : w.Reaches v := by
  unfold jump? at h
  split at h
  · cases h
  · simp only at h
    split at h <;> cases h
    exact (step w _).trans (settle _)

theorem runWithin (isDone : World → Bool) (limit fuel : Nat) (w : World) :
    w.Reaches (w.runWithin isDone limit fuel) := by
  induction fuel generalizing w with
  | zero => exact refl w
  | succ fuel ih =>
    unfold World.runWithin
    split
    · exact refl w
    · split
      · rename_i v hv
        exact (of_jump? hv).trans (ih v)
      · exact refl w

theorem call (w : World) (t : Task) : (w.spawn t).2.Reaches (w.call t).2 :=
  (step _ _).trans ((settle _).trans (runWithin _ _ _ _))

end Reaches

variable {g : LoadLog}

def Continues (w : World) : Prop := ∃ g, w.Booked g

theorem Continues.meet (h : w.Continues) {x : Happening} (hx : x.isInside = true) :
    (w.meet x).Continues := by
  obtain ⟨g, hg⟩ := h
  exact ⟨_, hg.meet hx⟩

theorem Continues.reaches (h : w.Continues) (hv : w.Reaches v) : v.Continues := by
  obtain ⟨list, rfl⟩ := hv
  induction list generalizing w with
  | nil => exact h
  | cons s rest ih => exact ih (h.meet (x := .event (.step s)) rfl)

theorem Continues.call (h : w.Continues) {t : Task} (ht : t.isEntry = true)
    (hx : (Happening.event (.launch t)).isInside = true) : (w.call t).2.Continues := by
  have hs : (w.spawn t).2.Continues := by
    have hm := h.meet hx
    rwa [World.meet, react, if_pos ht] at hm
  exact hs.reaches (.call w t)

theorem Continues.windUp (h : w.Continues) (timeout : Span) (fault? : Option CrawlFault) :
    ∃ isClean, (w.windUp timeout fault?).1 = (w.windUp timeout fault?).2.summary isClean ∧
      (w.windUp timeout fault?).2.Continues := by
  have hd {v : World} (hv : v.Continues) :
      ({ v with queue := v.queue.close } : World).dropManager.Continues :=
    (hv.meet (x := .event .close) rfl).meet (x := .event .dropManager) rfl
  refine ⟨fault?.isNone, rfl, ?_⟩
  cases fault? with
  | none => exact (hd h).call rfl rfl
  | some fault => exact (hd (h.meet (x := .warn _) rfl)).call rfl rfl

theorem loaded_of_endSession {files : Files} {c : Config} {adapters : List Adapter} {uptime : Nat}
    {start : World} {list : List Happening} {timeout : Span} {r : SessionSummary}
    (hs : startSession files c adapters uptime = .ok start)
    (hx : ∀ x ∈ list, x.isInside = true)
    (hr : (start.undergo list).endSession timeout = .ok (r, v)) (he : ∃ e ∈ v.ended, e.id = 0) :
    r.loader.responses = r.crawl.delivered := by
  have hb : (start.undergo list).Continues := ⟨_, (booked_start hs).undergo hx⟩
  have hc := hb.call (t := .manage ⟨.stop, .entering⟩) rfl rfl
  have ends {u : World} {fault? : Option CrawlFault} (hu : u.Continues)
      (hw : u.windUp timeout fault? = (r, v)) : r.loader.responses = r.crawl.delivered := by
    obtain ⟨isClean, hsum, g, hg⟩ := hu.windUp timeout fault?
    rw [hw] at hsum hg
    rw [show r = v.summary isClean from hsum]
    exact hg.loaded he isClean
  unfold endSession at hr
  split at hr
  · cases hr
  all_goals
    rename_i hw
    rw [hw] at hc
    exact ends hc (Except.ok.inj hr)

end CatalogCrawl.World

import CatalogCrawl.Proofs.World.Accord
import CatalogCrawl.Proofs.World.Sound

namespace CatalogCrawl.World

structure Still (w w' : World) : Prop where
  cycles : w'.stats.cycles = w.stats.cycles
  requeued : w'.stats.requeued = w.stats.requeued
  dropped : w'.stats.dropped = w.stats.dropped
  dispatched : w'.stats.dispatched = w.stats.dispatched
  answered : w.stats.delivered + w.stats.adapterFailures + w.stats.undelivered ≤
    w'.stats.delivered + w'.stats.adapterFailures + w'.stats.undelivered
  taken : w'.queue.taken = w.queue.taken
  stock : w.queue.items.length ≤ w'.queue.items.length

theorem Still.of_eq {w w' : World} (hs : w'.stats = w.stats) (hq : w'.queue = w.queue) :
    w.Still w' := by
  refine ⟨?_, ?_, ?_, ?_, ?_, ?_, ?_⟩
  all_goals first | rw [hs] | rw [hq]

theorem Still.refl (w : World) : w.Still w := .of_eq rfl rfl

theorem Still.trans {w v u : World} (h : w.Still v) (k : v.Still u) : w.Still u :=
  ⟨k.cycles.trans h.cycles, k.requeued.trans h.requeued, k.dropped.trans h.dropped,
    k.dispatched.trans h.dispatched, h.answered.trans k.answered, k.taken.trans h.taken,
    h.stock.trans k.stock⟩

structure Poised (w : World) (own : Option TaskId) (hand : Burden) (served : Served) : Prop extends
    w.Sound own hand served where
  rests : w.Rests own

structure Moved (own : Option TaskId) (hand : Burden) (served : Served) (w w' : World) : Prop
    extends w.Still w' where
  poised : w'.Poised own hand served
  knows : ∀ task, w.Knows (w.burden own hand) task → w'.Knows (w'.burden own hand) task
  accord : w'.accord = w.accord

structure Ended (steps : List PlanStep) (served : Served) (w w' : World) : Prop
    extends w.Still w' where
  sound : w'.Sound none 0 served
  accord : w'.accord = w.accord.run steps

variable {w v u : World} {own : Option TaskId} {hand : Burden} {served : Served} {id : TaskId}
  {t : Task} {steps : List PlanStep}

theorem Moved.refl (h : w.Poised own hand served) : Moved own hand served w w :=
  ⟨.refl w, h, fun _ hk => hk, rfl⟩

theorem Moved.trans (h : Moved own hand served w v) (k : Moved own hand served v u) :
    Moved own hand served w u :=
  ⟨h.toStill.trans k.toStill, k.poised, fun task hk => k.knows task (h.knows task hk),
    k.accord.trans h.accord⟩

theorem Ended.after (k : Ended steps served v u) (h : w.Still v) (ha : v.accord = w.accord) :
    Ended steps served w u :=
  ⟨h.trans k.toStill, k.sound, k.accord.trans (by rw [ha])⟩

theorem Moved.ended (h : Moved own hand served w v) (k : Ended steps served v u) :
    Ended steps served w u :=
  k.after h.toStill h.accord

theorem mem_handles {task : TaskId} : task ∈ w.handles ↔
    (∃ p ∈ w.pools, task ∈ p.crawlers) ∨ ∃ s, w.manager.schedule = some s ∧ s.task = task := by
  simp [handles]

theorem Poised.leave (h : w.Poised own hand served) (hj : v.jobs = w.jobs)
    (hn : v.nextId = w.nextId) (hq : v.queue = w.queue) (hs : v.stats = w.stats)
    (hh : ∀ task ∈ v.handles, task ∈ w.handles) (hr : v.registry = w.registry)
    (hl : v.results.length = w.results.length) (ha : v.accord = w.accord) :
    Moved own hand served w v := by
  have ho : v.others own = w.others own := by rw [others, hj, others]
  refine ⟨.of_eq hs hq, ⟨?_, ?_⟩, fun task hk => ?_, ha⟩
  · refine h.alter ho hn (fun b hb => ?_) (fun i hi => hi) (fun hi => hi) hh (by rw [hr])
      (Nat.le_of_eq hl.symm)
    rwa [hq, hs]
  · rw [Rests, hj]
    exact h.rests
  · rw [Knows, hn, burden, ho]
    exact hk

theorem Poised.pass (h : w.Poised own hand served) (hj : v.jobs = w.jobs)
    (hn : v.nextId = w.nextId) (hq : v.queue = w.queue) (hs : v.stats = w.stats)
    (hp : v.pools = w.pools) (hc : v.manager.schedule = w.manager.schedule)
    (hr : v.registry = w.registry) (hl : v.results.length = w.results.length)
    (ha : v.accord = w.accord) : Moved own hand served w v := by
  refine h.leave hj hn hq hs (fun task hm => ?_) hr hl ha
  rw [handles, hp, hc] at hm
  exact hm

section Steps

theorem burden_spawn (h : w.Sound own hand served) (hb : t.burden w.nextId = 0) :
    (w.spawn t).2.burden own hand = w.burden own hand := by
  have hne : (some w.nextId != own) = true := by
    rw [bne_iff_ne]
    exact fun he => Nat.lt_irrefl _ (h.owned _ he.symm)
  have ho : (w.spawn t).2.others own = w.others own ++ [⟨w.nextId, t⟩] := by
    simp only [others, World.spawn, List.filter_append]
    rw [List.filter_cons_of_pos (by exact hne), List.filter_nil]
  rw [burden, ho, Job.total_append, Job.total_cons, Job.total_nil, Job.burden, hb, burden,
    add_zero, add_zero]

theorem Poised.spawn (h : w.Poised own hand served) (hb : t.burden w.nextId = 0)
    (hf : ∀ b, t.Fit (w.spawn t).2 b served) : Moved own hand served w (w.spawn t).2 := by
  have hs := h.toSound.spawn hb hf
  refine ⟨.of_eq rfl rfl, ⟨hs, ?_⟩, fun task hk => ⟨Nat.lt_succ_of_lt hk.1, ?_⟩, rfl⟩
  · intro j hm he
    rcases List.mem_append.1 hm with hm | hm
    · exact h.rests j hm he
    · rw [List.mem_singleton.1 hm, Job.burden, hb]
      rfl
  · rw [burden_spawn h.toSound hb]
    exact hk.2

theorem abort_eq (w : World) (id : TaskId) : ∃ jobs q l,
    w.abort id = { w with jobs := jobs, queue := q, refillLock := l } ∧
      (q = w.queue ∨ ∃ ticket, q = w.queue.cancel ticket) := by
  cases hj : w.job? id with
  | none =>
    rw [abort, hj]
    exact ⟨w.jobs, w.queue, w.refillLock, rfl, .inl rfl⟩
  | some j =>
    rcases abort_cases hj with ⟨t, item, -, -, ha⟩ | ⟨q, l, ha, ⟨ticket, -, hq⟩ | ⟨ids, -, hq⟩⟩
    · exact ⟨_, w.queue, w.refillLock, ha, .inl rfl⟩
    · exact ⟨_, q, l, ha, .inr ⟨ticket, hq⟩⟩
    · exact ⟨_, q, l, ha, .inl hq⟩

theorem still_abort (w : World) (id : TaskId) : w.Still (w.abort id) := by
  obtain ⟨jobs, q, l, ha, rfl | ⟨ticket, rfl⟩⟩ := w.abort_eq id
  · rw [ha]
    exact .of_eq rfl rfl
  · rw [ha]
    exact ⟨rfl, rfl, rfl, rfl, Nat.le_refl _, rfl, Nat.le_refl _⟩

theorem nextId_abort (w : World) (id : TaskId) : (w.abort id).nextId = w.nextId := by
  obtain ⟨jobs, q, l, ha, -⟩ := w.abort_eq id
  rw [ha]

theorem accord_abort (w : World) (id : TaskId) : (w.abort id).accord = w.accord := by
  obtain ⟨jobs, q, l, ha, -⟩ := w.abort_eq id
  rw [ha]
  rfl

theorem mem_jobs_abort {j : Job} (h : j ∈ (w.abort id).jobs) :
    j ∈ w.jobs ∨ ∃ t item, t.stage = .matching item ∧ ⟨j.id, .crawl t⟩ ∈ w.jobs ∧
      j.task = .crawl { t with doomed := true } := by
  cases hj : w.job? id with
  | none =>
    rw [abort, hj] at h
    exact .inl h
  | some k =>
    obtain ⟨hm, rfl⟩ := mem_of_job? hj
    rcases abort_cases hj with ⟨t, item, ht, hs, ha⟩ | ⟨q, l, ha, -⟩
    · have hk : (⟨k.id, .crawl t⟩ : Job) ∈ w.jobs := by rwa [← ht]
      rw [ha] at h
      obtain ⟨l, hl, he⟩ := List.mem_map.1 h
      split at he
      · rw [← he]
        exact .inr ⟨t, item, hs, hk, rfl⟩
      · exact .inl (he ▸ hl)
    · rw [ha] at h
      exact .inl (List.mem_of_mem_filter h)

theorem Poised.abort (h : w.Poised own hand served) (hk : w.Knows (w.burden own hand) id) :
    Moved own hand served w (w.abort id) := by
  have hs := h.toSound.abort h.rests hk
  refine ⟨still_abort w id, ⟨hs, ?_⟩, ?_, accord_abort w id⟩
  · intro j hm he
    rcases mem_jobs_abort hm with hm | ⟨t, item, hs, -, ht⟩
    · exact h.rests j hm he
    · simp [Job.burden, ht, Task.burden, CrawlStage.burden, hs]
  · intro task hk
    refine ⟨nextId_abort w id ▸ hk.1, fun hm => hk.2 ?_⟩
    simp only [burden, Burden.calls_add, Multiset.mem_add] at hm ⊢
    refine hm.imp_right fun hm => ?_
    obtain ⟨j, hj, hi⟩ := Job.mem_calls_total.1 hm
    rw [others, List.mem_filter] at hj
    rcases mem_jobs_abort hj.1 with hw | ⟨t, item, hs, -, ht⟩
    · exact Job.mem_calls_total.2 ⟨j, List.mem_filter.2 ⟨hw, hj.2⟩, hi⟩
    · simp [Job.burden, ht, Task.burden, CrawlStage.burden, hs] at hi

theorem Poised.addAll (h : w.Poised own hand served) (items : List WorkItem) :
    Moved own hand served w { w with queue := (w.queue.addAll items).2 } := by
  have ha := w.queue.addAll_admits items
  refine ⟨⟨rfl, rfl, rfl, rfl, Nat.le_refl _, ha.taken, ?_⟩, ⟨?_, h.rests⟩, fun task hk => hk,
    rfl⟩
  · rw [ha.items, List.length_append]
    exact Nat.le_add_right _ _
  · exact h.toSound.alter rfl rfl (fun b hb => hb.addAll items) (fun i hi => hi) id
      (fun task hm => hm) (Nat.le_refl _) (Nat.le_refl _)

end Steps

section Ends

theorem accord_finish (w : World) {id : TaskId} {r : TaskResult}
    (hr : (⟨id, w.now, r⟩ : EndedJob).plan? = none) : (w.finish id r).accord = w.accord := by
  simp only [accord, World.finish, removeJob, List.filterMap_cons_none hr]

theorem Poised.finish (h : w.Poised (some id) 0 served) (r : TaskResult)
    (hr : (⟨id, w.now, r⟩ : EndedJob).plan? = none) : Ended [] served w (w.finish id r) :=
  ⟨.of_eq rfl rfl, h.toSound.finish r, w.accord_finish hr⟩

theorem Poised.removeJob (h : w.Poised (some id) 0 served) : Ended [] served w (w.removeJob id) :=
  ⟨.of_eq rfl rfl, h.toSound.removeJob, rfl⟩

theorem Poised.keepFirst (h : w.Poised (some id) 0 served) (hb : t.burden id = 0)
    (hf : t.Fit w (w.burden (some id) 0) served) : Ended [] served w (w.keepFirst id t) :=
  ⟨.of_eq rfl rfl, h.toSound.keepFirst hb hf, rfl⟩

theorem Poised.keepLast (h : w.Poised (some id) 0 served) (hb : t.burden id = 0)
    (hf : t.Fit w (w.burden (some id) 0) served) : Ended [] served w (w.keepLast id t) :=
  ⟨.of_eq rfl rfl, h.toSound.keepLast hb hf, rfl⟩

end Ends

end CatalogCrawl.World

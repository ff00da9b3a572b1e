import CatalogCrawl.Proofs.World.Books
import CatalogCrawl.Proofs.World.Event
import Mathlib.Algebra.BigOperators.Group.List.Basic

namespace CatalogCrawl

def CrawlStage.burden : CrawlStage → Burden
  | .looking => 0
  | .polling ticket _ _ => .ofTicket ticket
  | .matching _ => .ofItem

def Task.burden (id : TaskId) : Task → Burden
  | .crawl t => t.stage.burden
  | .call _ => .ofCalls {id}
  | .poll (some ticket) _ => .ofTicket ticket
  | _ => 0

namespace Job

def burden (j : Job) : Burden := j.task.burden j.id

def total (jobs : List Job) : Burden := (jobs.map burden).sum

@[simp] theorem total_nil : total [] = 0 := rfl

@[simp] theorem total_cons (j : Job) (jobs : List Job) :
    total (j :: jobs) = j.burden + total jobs := by
  simp [total]

@[simp] theorem total_append (a b : List Job) : total (a ++ b) = total a + total b := by
  simp [total]

theorem total_perm {a b : List Job} (h : a.Perm b) : total a = total b :=
  (h.map burden).sum_eq

theorem burden_calls_le (j : Job) : ∀ i ∈ j.burden.calls, i = j.id := by
  intro i hi
  rcases j with ⟨id, task⟩
  cases task with
  | crawl t => cases hs : t.stage <;> simp [burden, Task.burden, CrawlStage.burden, hs] at hi
  | call t => simpa [burden, Task.burden] using hi
  | poll ticket deadline => cases ticket <;> simp [burden, Task.burden] at hi
  | _ => simp [burden, Task.burden] at hi

theorem mem_total {part : Burden → Multiset Nat} (hz : part 0 = 0)
    (ha : ∀ a b, part (a + b) = part a + part b) {jobs : List Job} {i : Nat} :
    i ∈ part (total jobs) ↔ ∃ j ∈ jobs, i ∈ part j.burden := by
  induction jobs with
  | nil => simp [hz]
  | cons j rest ih =>
    rw [total_cons, ha, Multiset.mem_add, ih]
    simp

theorem mem_calls_total {jobs : List Job} {i : TaskId} :
    i ∈ (total jobs).calls ↔ ∃ j ∈ jobs, i ∈ j.burden.calls :=
  mem_total rfl Burden.calls_add

theorem mem_tickets_total {jobs : List Job} {ticket : Nat} :
    ticket ∈ (total jobs).tickets ↔ ∃ j ∈ jobs, ticket ∈ j.burden.tickets :=
  mem_total rfl Burden.tickets_add

theorem perm_cons_filter {jobs : List Job} {j : Job} (hd : (jobs.map id).Nodup) (hj : j ∈ jobs) :
    (j :: jobs.filter (·.id != j.id)).Perm jobs := by
  induction jobs with
  | nil => cases hj
  | cons k rest ih =>
    rw [List.map_cons, List.nodup_cons] at hd
    rcases List.mem_cons.1 hj with rfl | hj
    · have hr : rest.filter (·.id != j.id) = rest := by
        rw [List.filter_eq_self]
        intro l hl
        have hn : l.id ≠ j.id := fun he => hd.1 (he ▸ List.mem_map_of_mem hl)
        simpa using hn
      rw [List.filter_cons_of_neg (by simp), hr]
    · have hn : k.id ≠ j.id := fun he => hd.1 (he ▸ List.mem_map_of_mem hj)
      rw [List.filter_cons_of_pos (by simpa using hn)]
      exact (List.Perm.swap k j _).trans ((ih hd.2 hj).cons k)

theorem map_perm_cons_filter {jobs : List Job} {j : Job} (hd : (jobs.map id).Nodup)
    (hj : j ∈ jobs) (t : Task) :
    (jobs.map fun k => if k.id == j.id then (⟨j.id, t⟩ : Job) else k).Perm
      (⟨j.id, t⟩ :: jobs.filter (·.id != j.id)) := by
  have hf := (perm_cons_filter hd hj).symm.map fun k =>
    if k.id == j.id then (⟨j.id, t⟩ : Job) else k
  have ho : ((jobs.filter (·.id != j.id)).map fun k =>
      if k.id == j.id then (⟨j.id, t⟩ : Job) else k) = jobs.filter (·.id != j.id) := by
    rw [List.map_congr_left (g := fun k => k), List.map_id']
    intro k hk
    rw [if_neg (by simpa using (List.mem_filter.1 hk).2)]
  rwa [List.map_cons, if_pos (beq_self_eq_true j.id), ho] at hf

end Job

def ManagerStage.handles : ManagerStage → List TaskId
  | .planEnding plan _ => [plan]
  | .crawlersEnding j => j.left
  | _ => []

namespace World

def others (w : World) (own : Option TaskId) : List Job := w.jobs.filter fun j => some j.id != own

def burden (w : World) (own : Option TaskId) (hand : Burden) : Burden :=
  hand + Job.total (w.others own)

def handles (w : World) : List TaskId :=
  w.pools.flatMap Pool.crawlers ++ (w.manager.schedule.map Schedule.task).toList

def Knows (w : World) (b : Burden) (task : TaskId) : Prop := task < w.nextId ∧ task ∉ b.calls

end World

/-- What a task needs in order to take its turn. -/
def Task.Fit (w : World) (b : Burden) (served : Served) : Task → Prop
  | .crawl t => (∃ activity, t.mode = .steady activity) ∧ t.results < w.results.length
  | .call t => t.adapter < w.registry.size ∧ t.results < w.results.length
  | .manage t => ∀ task ∈ t.stage.handles, w.Knows b task
  | .poll .. => served.isSome
  | _ => True

namespace World

structure Sound (w : World) (own : Option TaskId) (hand : Burden) (served : Served) : Prop where
  distinct : ((w.others own).map Job.id).Nodup
  issued : ∀ j ∈ w.others own, j.id < w.nextId
  owned : ∀ id, own = some id → id < w.nextId
  books : Books w.queue w.stats (w.burden own hand) served
  calls : ∀ i ∈ (w.burden own hand).calls, i < w.nextId
  known : ∀ task ∈ w.handles, w.Knows (w.burden own hand) task
  fit : ∀ j ∈ w.others own, j.task.Fit w (w.burden own hand) served
  results : 0 < w.results.length

variable {w w' : World} {own : Option TaskId} {hand hand' b b' : Burden} {served served' : Served}
  {id : TaskId} {t : Task} {j : Job}

theorem others_none (w : World) : w.others none = w.jobs := by
  simp [others]

theorem mem_others_some : j ∈ w.others (some id) ↔ j ∈ w.jobs ∧ j.id ≠ id := by
  simp [others]

theorem others_some_eq (w : World) (id : TaskId) :
    w.others (some id) = w.jobs.filter (·.id != id) := by
  unfold others
  congr 1

structure Grows (w : World) (b : Burden) (w' : World) (b' : Burden) : Prop where
  nextId : w.nextId ≤ w'.nextId
  registry : w.registry.size ≤ w'.registry.size
  results : w.results.length ≤ w'.results.length
  calls : ∀ i ∈ b'.calls, i ∈ b.calls ∨ w.nextId ≤ i

theorem Knows.mono {task : TaskId} (h : w.Knows b task) (hg : w.Grows b w' b') :
    w'.Knows b' task := by
  refine ⟨Nat.lt_of_lt_of_le h.1 hg.nextId, fun hm => ?_⟩
  rcases hg.calls task hm with hc | hn
  · exact h.2 hc
  · exact Nat.not_le_of_lt h.1 hn

theorem fit_mono (h : t.Fit w b served) (hg : w.Grows b w' b')
    (hs : served.isSome → served'.isSome) : t.Fit w' b' served' := by
  cases t with
  | crawl t => exact ⟨h.1, Nat.lt_of_lt_of_le h.2 hg.results⟩
  | call t =>
    exact ⟨Nat.lt_of_lt_of_le h.1 hg.registry, Nat.lt_of_lt_of_le h.2 hg.results⟩
  | manage t => exact fun task hm => (h task hm).mono hg
  | poll ticket deadline => exact hs h
  | _ => trivial

theorem Sound.alter (h : w.Sound own hand served) (ho : w'.others own = w.others own)
    (hn : w'.nextId = w.nextId)
    (hb : ∀ b, Books w.queue w.stats (hand + b) served →
      Books w'.queue w'.stats (hand' + b) served')
    (hc : ∀ i ∈ hand'.calls, i ∈ hand.calls) (hs : served.isSome → served'.isSome)
    (hh : ∀ task ∈ w'.handles, task ∈ w.handles) (hr : w.registry.size ≤ w'.registry.size)
    (hl : w.results.length ≤ w'.results.length) : w'.Sound own hand' served' := by
  have hcalls : ∀ i ∈ (w'.burden own hand').calls, i ∈ (w.burden own hand).calls := by
    intro i hi
    simp only [burden, ho, Burden.calls_add, Multiset.mem_add] at hi ⊢
    exact hi.imp_left (hc i)
  have hg : w.Grows (w.burden own hand) w' (w'.burden own hand') :=
    ⟨Nat.le_of_eq hn.symm, hr, hl, fun i hi => .inl (hcalls i hi)⟩
  refine ⟨ho ▸ h.distinct, ?_, ?_, ?_, ?_, ?_, ?_, Nat.lt_of_lt_of_le h.results hl⟩
  · rw [ho, hn]
    exact h.issued
  · rw [hn]
    exact h.owned
  · have hw := hb _ h.books
    rwa [← ho] at hw
  · rw [hn]
    exact fun i hi => h.calls i (hcalls i hi)
  · exact fun task hm => (h.known task (hh task hm)).mono hg
  · rw [ho]
    exact fun j hj => fit_mono (h.fit j hj) hg hs

theorem Sound.pass {v : World} (h : w.Sound own hand served) (hj : v.jobs = w.jobs)
    (hn : v.nextId = w.nextId) (hq : v.queue = w.queue) (hs : v.stats = w.stats)
    (hp : v.pools = w.pools) (hc : v.manager.schedule = w.manager.schedule)
    (hr : v.registry.size = w.registry.size) (hl : v.results.length = w.results.length) :
    v.Sound own hand served := by
  have ho : v.others own = w.others own := by rw [others, hj, others]
  have hh : v.handles = w.handles := by rw [handles, hp, hc, handles]
  refine h.alter ho hn (fun b hb => ?_) (fun i hi => hi) (fun hi => hi) (fun _ hm => hh ▸ hm)
    (Nat.le_of_eq hr.symm) (Nat.le_of_eq hl.symm)
  rwa [hq, hs]

theorem Sound.setQueue {q : WorkQueue} (h : w.Sound own hand served)
    (hb : ∀ b, Books w.queue w.stats (hand + b) served → Books q w.stats (hand' + b) served)
    (hc : ∀ i ∈ hand'.calls, i ∈ hand.calls) :
    ({ w with queue := q } : World).Sound own hand' served :=
  h.alter rfl rfl hb hc (fun hi => hi) (fun _ hm => hm) (Nat.le_refl _) (Nat.le_refl _)

section Turns

theorem mem_of_job? (h : w.job? id = some j) : j ∈ w.jobs ∧ j.id = id := by
  refine ⟨List.mem_of_find?_eq_some h, ?_⟩
  simpa using List.find?_some h

theorem Sound.begin (h : w.Sound none 0 served) (hj : w.job? id = some j) :
    w.Sound (some id) j.burden served ∧ j.task.Fit w (w.burden (some id) j.burden) served := by
  obtain ⟨hm, rfl⟩ := mem_of_job? hj
  have hd := h.distinct
  rw [others_none] at hd
  have hp : (j :: w.others (some j.id)).Perm w.jobs := by
    rw [others_some_eq]
    exact Job.perm_cons_filter hd hm
  have hb : w.burden (some j.id) j.burden = w.burden none 0 := by
    rw [burden, burden, others_none, zero_add, ← Job.total_cons]
    exact Job.total_perm hp
  have hs : ∀ k ∈ w.others (some j.id), k ∈ w.others none := by
    intro k hk
    rw [others_none]
    exact hp.subset (List.mem_cons_of_mem j hk)
  have hf := h.fit j (by rwa [others_none])
  refine ⟨⟨?_, fun k hk => h.issued k (hs k hk), ?_, hb ▸ h.books, hb ▸ h.calls, hb ▸ h.known,
    fun k hk => hb ▸ h.fit k (hs k hk), h.results⟩, hb ▸ hf⟩
  · have hn := (hp.map Job.id).nodup_iff.2 hd
    rw [List.map_cons, List.nodup_cons] at hn
    exact hn.2
  · intro i hi
    cases hi
    exact h.issued j (by rwa [others_none])

theorem Sound.replace (h : w.Sound (some id) hand served)
    (hp : w'.jobs.Perm (⟨id, t⟩ :: w.others (some id))) (hn : w'.nextId = w.nextId)
    (hq : w'.queue = w.queue) (hs : w'.stats = w.stats) (hh : w'.handles = w.handles)
    (hr : w'.registry = w.registry) (hl : w'.results = w.results) (hb : t.burden id = hand)
    (hf : t.Fit w (w.burden (some id) hand) served) : w'.Sound none 0 served := by
  have hbb : w'.burden none 0 = w.burden (some id) hand := by
    rw [burden, others_none, zero_add, Job.total_perm hp, Job.total_cons, burden]
    congr 1
  have hm : ∀ k ∈ w'.others none, k = ⟨id, t⟩ ∨ k ∈ w.others (some id) := by
    intro k hk
    rw [others_none] at hk
    exact List.mem_cons.1 (hp.subset hk)
  have hg : w.Grows (w.burden (some id) hand) w' (w'.burden none 0) := by
    rw [hbb]
    exact ⟨Nat.le_of_eq hn.symm, by rw [hr], by rw [hl], fun i hi => .inl hi⟩
  refine ⟨?_, ?_, fun i hi => (by cases hi), ?_, ?_, ?_, ?_, by rw [hl]; exact h.results⟩
  · rw [others_none, (hp.map Job.id).nodup_iff, List.map_cons, List.nodup_cons]
    refine ⟨fun hi => ?_, h.distinct⟩
    obtain ⟨k, hk, he⟩ := List.mem_map.1 hi
    exact (mem_others_some.1 hk).2 he
  · intro k hk
    rw [hn]
    rcases hm k hk with rfl | hk
    · exact h.owned id rfl
    · exact h.issued k hk
  · rw [hbb, hq, hs]
    exact h.books
  · rw [hbb, hn]
    exact h.calls
  · rw [hh]
    exact fun task hk => (h.known task hk).mono hg
  · intro k hk
    rcases hm k hk with rfl | hk
    · exact fit_mono hf hg fun hi => hi
    · exact fit_mono (h.fit k hk) hg fun hi => hi

theorem Sound.keepFirst (h : w.Sound (some id) hand served) (hb : t.burden id = hand)
    (hf : t.Fit w (w.burden (some id) hand) served) : (w.keepFirst id t).Sound none 0 served :=
  h.replace (by rw [others_some_eq]; exact .refl _) rfl rfl rfl rfl rfl rfl hb hf

theorem Sound.keepLast (h : w.Sound (some id) hand served) (hb : t.burden id = hand)
    (hf : t.Fit w (w.burden (some id) hand) served) : (w.keepLast id t).Sound none 0 served :=
  h.replace (by rw [others_some_eq]; exact List.perm_append_singleton _ _) rfl rfl rfl rfl rfl rfl
    hb hf

theorem Sound.removeJob (h : w.Sound (some id) 0 served) :
    (w.removeJob id).Sound none 0 served := by
  have ho : (w.removeJob id).others none = w.others (some id) := by
    rw [others_none, others_some_eq]
    rfl
  have hb : (w.removeJob id).burden none 0 = w.burden (some id) 0 := by
    rw [burden, ho, burden]
  exact ⟨ho ▸ h.distinct, ho ▸ h.issued, fun i hi => (by cases hi), hb ▸ h.books, hb ▸ h.calls,
    hb ▸ h.known, fun j hj => hb ▸ h.fit j (ho ▸ hj), h.results⟩

theorem Sound.finish (h : w.Sound (some id) 0 served) (r : TaskResult) :
    (w.finish id r).Sound none 0 served :=
  have hr := h.removeJob
  ⟨hr.distinct, hr.issued, hr.owned, hr.books, hr.calls, hr.known, hr.fit, hr.results⟩

theorem Sound.keepInPlace (h : w.Sound none 0 served) (hj : w.job? id = some j)
    (hb : t.burden id = j.burden) (hf : t.Fit w (w.burden none 0) served) :
    (w.keepInPlace id t).Sound none 0 served := by
  obtain ⟨hm, rfl⟩ := mem_of_job? hj
  have hs := (h.begin hj).1
  have hd := h.distinct
  rw [others_none] at hd
  have hp := Job.map_perm_cons_filter hd hm t
  rw [← others_some_eq] at hp
  have hbb : w.burden (some j.id) j.burden = w.burden none 0 := by
    rw [burden, burden, others_none, zero_add, ← Job.total_cons, others_some_eq]
    exact Job.total_perm (Job.perm_cons_filter hd hm)
  exact hs.replace hp rfl rfl rfl rfl rfl rfl hb (hbb ▸ hf)

end Turns

section Jobs

theorem Sound.hire (h : w.Sound own hand served) (new : List Job) (hj : w'.jobs = w.jobs ++ new)
    (hd : (new.map Job.id).Nodup) (hi : ∀ j ∈ new, w.nextId ≤ j.id ∧ j.id < w'.nextId)
    (hn : w.nextId ≤ w'.nextId)
    (hb : ∀ b, Books w.queue w.stats (hand + b) served →
      Books w'.queue w'.stats (hand' + (Job.total new + b)) served)
    (hc : ∀ i ∈ hand'.calls, i ∈ hand.calls)
    (hf : ∀ j ∈ new, ∀ b, j.task.Fit w' b served) (hh : ∀ task ∈ w'.handles, task ∈ w.handles)
    (hr : w'.registry = w.registry) (hl : w'.results = w.results) :
    w'.Sound own hand' served := by
  have hne : ∀ j ∈ new, some j.id ≠ own := by
    intro j hm he
    exact Nat.not_le_of_lt (h.owned j.id he.symm) (hi j hm).1
  have ho : w'.others own = w.others own ++ new := by
    have hnew : new.filter (fun j => some j.id != own) = new := by
      rw [List.filter_eq_self]
      intro j hm
      simpa using hne j hm
    rw [others, hj, List.filter_append, hnew, others]
  have hbb : w'.burden own hand' = hand' + (Job.total new + Job.total (w.others own)) := by
    rw [burden, ho, Job.total_append, add_comm (Job.total (w.others own))]
  have hcalls : ∀ i ∈ (w'.burden own hand').calls,
      i ∈ (w.burden own hand).calls ∨ w.nextId ≤ i ∧ i < w'.nextId := by
    intro i hm
    rw [hbb] at hm
    simp only [burden, Burden.calls_add, Multiset.mem_add] at hm ⊢
    rcases hm with hm | hm | hm
    · exact .inl (.inl (hc i hm))
    · obtain ⟨j, hj, hm⟩ := Job.mem_calls_total.1 hm
      exact .inr (j.burden_calls_le i hm ▸ hi j hj)
    · exact .inl (.inr hm)
  have hg : w.Grows (w.burden own hand) w' (w'.burden own hand') :=
    ⟨hn, by rw [hr], by rw [hl], fun i hm => (hcalls i hm).imp_right And.left⟩
  refine ⟨?_, ?_, fun i he => Nat.lt_of_lt_of_le (h.owned i he) hn, ?_, ?_, ?_, ?_,
    by rw [hl]; exact h.results⟩
  · rw [ho, List.map_append, List.nodup_append]
    refine ⟨h.distinct, hd, ?_⟩
    rintro i ha k hk rfl
    obtain ⟨j, hm, rfl⟩ := List.mem_map.1 ha
    obtain ⟨k, hk, he⟩ := List.mem_map.1 hk
    exact Nat.not_le_of_lt (h.issued j hm) (he ▸ (hi k hk).1)
  · rw [ho]
    intro j hm
    rcases List.mem_append.1 hm with hm | hm
    · exact Nat.lt_of_lt_of_le (h.issued j hm) hn
    · exact (hi j hm).2
  · rw [hbb]
    exact hb _ h.books
  · intro i hm
    rcases hcalls i hm with hm | hm
    · exact Nat.lt_of_lt_of_le (h.calls i hm) hn
    · exact hm.2
  · exact fun task hm => (h.known task (hh task hm)).mono hg
  · rw [ho]
    intro j hm
    rcases List.mem_append.1 hm with hm | hm
    · exact fit_mono (h.fit j hm) hg fun hi => hi
    · exact hf j hm _

theorem Sound.spawn (h : w.Sound own hand served) (hb : t.burden w.nextId = 0)
    (hf : ∀ b, t.Fit (w.spawn t).2 b served) : (w.spawn t).2.Sound own hand served := by
  refine h.hire [⟨w.nextId, t⟩] rfl (List.nodup_singleton _) ?_ (Nat.le_succ _) ?_
    (fun i hi => hi) ?_ (fun task hm => hm) rfl rfl
  · intro j hj
    rw [List.mem_singleton] at hj
    exact hj ▸ ⟨Nat.le_refl _, Nat.lt_succ_self _⟩
  · intro b hw
    have ht : Job.total [⟨w.nextId, t⟩] = 0 := by
      simp [Job.burden, hb]
    rw [ht, zero_add]
    exact hw
  · intro j hj
    rw [List.mem_singleton] at hj
    exact hj ▸ hf

theorem Sound.swap (h : w.Sound own hand served) (hm : j ∈ w.others own) (new : List Job)
    (hj : (w'.others own).Perm (new ++ (w.others own).filter (·.id != j.id)))
    (hd : new.map Job.id ⊆ [j.id]) (hu : (new.map Job.id).Nodup)
    (hb : ∀ b, Books w.queue w.stats (j.burden + b) served →
      Books w'.queue w'.stats (Job.total new + b) served)
    (hc : (Job.total new).calls = j.burden.calls)
    (hf : ∀ k ∈ new, k.task.Fit w (w.burden own hand) served) (hn : w'.nextId = w.nextId)
    (hh : w'.handles = w.handles) (hr : w'.registry = w.registry)
    (hl : w'.results = w.results) : w'.Sound own hand served := by
  have hp := Job.perm_cons_filter h.distinct hm
  have hbb : w'.burden own hand =
      Job.total new + (hand + Job.total ((w.others own).filter (·.id != j.id))) := by
    rw [burden, Job.total_perm hj, Job.total_append, add_left_comm]
  have hwb : w.burden own hand =
      j.burden + (hand + Job.total ((w.others own).filter (·.id != j.id))) := by
    rw [burden, ← Job.total_perm hp, Job.total_cons, add_left_comm]
  have hcalls : (w'.burden own hand).calls = (w.burden own hand).calls := by
    rw [hbb, hwb, Burden.calls_add, hc, ← Burden.calls_add]
  have hg : w.Grows (w.burden own hand) w' (w'.burden own hand) :=
    ⟨Nat.le_of_eq hn.symm, by rw [hr], by rw [hl], fun i hi => .inl (hcalls ▸ hi)⟩
  have hmem : ∀ k ∈ w'.others own, k ∈ new ∨ k ∈ w.others own := by
    intro k hk
    exact (List.mem_append.1 (hj.subset hk)).imp_right List.mem_of_mem_filter
  have hid : ∀ k ∈ new, k.id = j.id := by
    intro k hk
    simpa using hd (List.mem_map_of_mem hk)
  refine ⟨?_, ?_, ?_, ?_, ?_, ?_, ?_, by rw [hl]; exact h.results⟩
  · rw [(hj.map Job.id).nodup_iff, List.map_append, List.nodup_append]
    refine ⟨hu, (h.distinct.sublist (List.filter_sublist.map Job.id)), ?_⟩
    rintro i ha k hk rfl
    obtain ⟨l, hl, rfl⟩ := List.mem_map.1 ha
    obtain ⟨k, hk, he⟩ := List.mem_map.1 hk
    have hne : k.id ≠ j.id := by simpa using (List.mem_filter.1 hk).2
    exact hne (he.trans (hid l hl))
  · rw [hn]
    intro k hk
    rcases hmem k hk with hk | hk
    · exact hid k hk ▸ h.issued j hm
    · exact h.issued k hk
  · rw [hn]
    exact h.owned
  · rw [hbb]
    exact hb _ (hwb ▸ h.books)
  · rw [hcalls, hn]
    exact h.calls
  · rw [hh]
    exact fun task hk => (h.known task hk).mono hg
  · intro k hk
    rcases hmem k hk with hk | hk
    · exact fit_mono (hf k hk) hg fun hi => hi
    · exact fit_mono (h.fit k hk) hg fun hi => hi

theorem abort_cases (hj : w.job? id = some j) :
    (∃ t item, j.task = .crawl t ∧ t.stage = .matching item ∧
      w.abort id = w.keepInPlace id (.crawl { t with doomed := true })) ∨
    ∃ q l, w.abort id = { w with queue := q, refillLock := l }.removeJob id ∧
      ((∃ ticket, j.burden = .ofTicket ticket ∧ q = w.queue.cancel ticket) ∨
        ∃ ids, j.burden = .ofCalls ids ∧ q = w.queue) := by
  rcases j with ⟨i, task⟩
  cases task with
  | crawl t =>
    cases hs : t.stage with
    | looking =>
      exact .inr ⟨w.queue, w.refillLock, by simp only [abort, hj, hs],
        .inr ⟨0, by simp only [Job.burden, Task.burden, CrawlStage.burden, hs]; rfl, rfl⟩⟩
    | polling ticket deadline seen =>
      exact .inr ⟨w.queue.cancel ticket, w.refillLock, by simp only [abort, hj, hs],
        .inl ⟨ticket, by simp only [Job.burden, Task.burden, CrawlStage.burden, hs], rfl⟩⟩
    | matching item => exact .inl ⟨t, item, rfl, hs, by simp only [abort, hj, hs]⟩
  | poll ticket deadline =>
    cases ticket with
    | none =>
      exact .inr ⟨w.queue, w.refillLock.leave id, by simp only [abort, hj], .inr ⟨0, rfl, rfl⟩⟩
    | some ticket =>
      exact .inr ⟨w.queue.cancel ticket, w.refillLock, by simp only [abort, hj],
        .inl ⟨ticket, rfl, rfl⟩⟩
  | call t =>
    exact .inr ⟨w.queue, w.refillLock.leave id, by simp only [abort, hj], .inr ⟨{i}, rfl, rfl⟩⟩
  | _ =>
    exact .inr ⟨w.queue, w.refillLock.leave id, by simp only [abort, hj], .inr ⟨0, rfl, rfl⟩⟩

def Rests (w : World) (own : Option TaskId) : Prop :=
  ∀ j ∈ w.jobs, some j.id = own → j.burden.tickets = 0

theorem others_removeJob (w : World) (own : Option TaskId) (id : TaskId) :
    (w.removeJob id).others own = (w.others own).filter (·.id != id) := by
  simp only [others, World.removeJob, List.filter_filter, Bool.and_comm]

theorem others_keepInPlace (w : World) (own : Option TaskId) (id : TaskId) (t : Task) :
    (w.keepInPlace id t).others own =
      (w.others own).map fun k => if k.id == id then ⟨id, t⟩ else k := by
  unfold others World.keepInPlace
  rw [List.filter_map]
  congr 1
  refine List.filter_congr fun k hk => ?_
  by_cases he : k.id = id <;> simp [he]

theorem filter_others_self (w : World) (id : TaskId) :
    (w.others (some id)).filter (·.id != id) = w.others (some id) := by
  rw [List.filter_eq_self]
  intro k hk
  simpa using (mem_others_some.1 hk).2

theorem map_others_self (w : World) (id : TaskId) (t : Task) :
    ((w.others (some id)).map fun k => if k.id == id then ⟨id, t⟩ else k) =
      w.others (some id) := by
  rw [List.map_congr_left (g := fun k => k), List.map_id']
  intro k hk
  rw [if_neg (by simpa using (mem_others_some.1 hk).2)]

theorem Sound.abort (h : w.Sound own hand served) (hr : w.Rests own)
    (hk : w.Knows (w.burden own hand) id) : (w.abort id).Sound own hand served := by
  cases hj : w.job? id with
  | none =>
    rw [World.abort, hj]
    exact h
  | some j =>
    obtain ⟨hm, rfl⟩ := mem_of_job? hj
    by_cases he : some j.id = own
    · -- a task that does not wait on the queue takes nothing along when it goes
      subst he
      have ht := hr j hm rfl
      rcases abort_cases hj with ⟨t, item, -, -, ha⟩ | ⟨q, l, ha, ⟨ticket, hb, hq⟩ | ⟨ids, hb, hq⟩⟩
      · rw [ha]
        exact h.alter (by rw [others_keepInPlace, map_others_self]) rfl (fun b hw => hw)
          (fun i hi => hi) id (fun task hm => hm) (Nat.le_refl _) (Nat.le_refl _)
      · rw [hb] at ht
        exact absurd ht (Multiset.singleton_ne_zero _)
      · rw [ha, hq]
        exact h.alter ((others_removeJob _ _ _).trans (filter_others_self w j.id)) rfl
          (fun b hw => hw) (fun i hi => hi) id (fun task hm => hm) (Nat.le_refl _) (Nat.le_refl _)
    · have hmo : j ∈ w.others own := List.mem_filter.2 ⟨hm, by simpa using he⟩
      rcases abort_cases hj with ⟨t, item, hc, hs, ha⟩ | ⟨q, l, ha, ⟨ticket, hb, hq⟩ | ⟨ids, hb, hq⟩⟩
      · have hbt : (Task.crawl { t with doomed := true }).burden j.id = j.burden := by
          rw [Job.burden, hc]
          rfl
        have hft := h.fit j hmo
        rw [hc] at hft
        rw [ha]
        refine h.swap hmo [⟨j.id, .crawl { t with doomed := true }⟩] ?_ (by simp) (by simp)
          ?_ ?_ ?_ rfl rfl rfl rfl
        · rw [others_keepInPlace]
          exact Job.map_perm_cons_filter h.distinct hmo _
        · intro b hw
          rw [Job.total_cons, Job.total_nil, add_zero, Job.burden, hbt]
          exact hw
        · rw [Job.total_cons, Job.total_nil, add_zero, Job.burden, hbt]
        · intro k hk
          rw [List.mem_singleton.1 hk]
          exact hft
      · rw [ha, hq]
        refine h.swap hmo [] (.of_eq (others_removeJob _ _ _)) (by simp) (by simp) ?_ ?_ (by simp)
          rfl rfl rfl rfl
        · intro b hw
          rw [hb] at hw
          rw [Job.total_nil, zero_add]
          exact hw.cancel
        · rw [hb]
          rfl
      · -- what is known is not a call
        have hids : ids = 0 := by
          refine Multiset.eq_zero_of_forall_notMem fun i hi => hk.2 ?_
          have hi : i ∈ j.burden.calls := by rwa [hb]
          rw [burden, Burden.calls_add, Multiset.mem_add, ← j.burden_calls_le i hi]
          exact .inr (Job.mem_calls_total.2 ⟨j, hmo, hi⟩)
        rw [ha, hq]
        refine h.swap hmo [] (.of_eq (others_removeJob _ _ _)) (by simp) (by simp) ?_ ?_ (by simp)
          rfl rfl rfl rfl
        · intro b hw
          rw [hb, hids] at hw
          exact hw
        · rw [hb, hids]
          rfl

end Jobs

end World

end CatalogCrawl

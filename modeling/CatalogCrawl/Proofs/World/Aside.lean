import CatalogCrawl.Proofs.World.Moving

namespace CatalogCrawl

inductive Actor
  | job (k : Job)
  | outside (started : Option Task)

def Task.GoesOn : Task → Task → Prop
  | .crawl t, .crawl u => u.crawler = t.crawler ∧ u.results = t.results
  | .call t, .call u => u.crawler = t.crawler ∧ u.results = t.results
  | .load t, .load u => u.results = t.results
  | .evict t, .evict u => u.period = t.period
  | .manage t, .manage u => u.call = t.call
  | .plan _, .plan _ | .windDown _, .windDown _ => True
  | .poll .., .poll .. | .refill .., .refill .. | .lock .., .lock .. => True
  | _, _ => False

def Actor.Starts (config : CrawlerConfig) : Actor → Task → Prop
  | .job ⟨_, .manage _⟩, .crawl u => u.crawler.config = config ∧ u.results = 0
  | .job ⟨_, .crawl t⟩, .call u => u.crawler = t.crawler ∧ u.results = t.results
  | .outside none, .plan _ => True
  | .outside (some t), u => u = t ∧ t.isEntry = true
  | _, _ => False

inductive Job.Origin (a : Actor) (w : World) (j : Job) : Prop
  | kept (hm : j ∈ w.jobs)
  | own (k : Job) (hk : a = .job k) (hi : j.id = k.id) (ht : k.task.GoesOn j.task)
  | doomed (t : CrawlTask) (hm : ⟨j.id, .crawl t⟩ ∈ w.jobs)
    (ht : j.task = .crawl { t with doomed := true })
  | started (hi : w.nextId ≤ j.id) (hs : a.Starts w.manager.crawler j.task)

def TaskResult.isCrash : TaskResult → Bool
  | .crashed _ => true
  | _ => false

def Task.Safe (w : World) : Task → Prop
  | .crawl t => w.shows (w.now + t.crawler.config.waitForWorkItem.nanos)
  | .evict t => t.period.nanos ≠ 0
  | .manage t => w.shows (w.now + w.manager.shutdownTimeout.nanos) ∧
    ∀ pool timeout, t.call = .shutdownPool pool timeout → w.shows (w.now + timeout.nanos)
  | _ => True

namespace World

structure Fixture where
  now : Nat
  uptime : Nat
  jobs : List Job
  nextId : TaskId
  ended : List EndedJob
  results : List ResultQueue
  loaded : List LoadCount
  store : Store
  clock : StoreClock
  crawler : CrawlerConfig
  shutdownTimeout : Span
  delivered : Nat
  kind : MonitorKind

def fixture (w : World) : Fixture :=
  ⟨w.now, w.uptime, w.jobs, w.nextId, w.ended, w.results, w.loaded, w.store, w.clock,
    w.manager.crawler, w.manager.shutdownTimeout, w.stats.delivered, w.journal.kind⟩

/-- What of the tasks is left when one has acted; if nobody crashes no task ends so. -/
structure Tends (a : Actor) (calm : Prop) (w w' : World) : Prop where
  nextId : w.nextId ≤ w'.nextId
  crawler : w'.manager.crawler = w.manager.crawler
  shutdownTimeout : w'.manager.shutdownTimeout = w.manager.shutdownTimeout
  jobs : ∀ j ∈ w'.jobs, j.Origin a w
  ended : ∀ e ∈ w'.ended, e ∈ w.ended ∨
    (∃ k, a = .job k ∧ e.id = k.id) ∧ (calm → e.result.isCrash = false)

structure Aside (a : Actor) (calm : Prop) (w w' : World) : Prop extends w.Tends a calm w' where
  now : w'.now = w.now
  uptime : w'.uptime = w.uptime
  results : w'.results = w.results
  loaded : w'.loaded = w.loaded
  store : w'.store = w.store
  clock : w'.clock = w.clock
  delivered : w'.stats.delivered = w.stats.delivered
  kind : w'.journal.kind = w.journal.kind

end World

variable {a : Actor} {calm : Prop} {w v u : World}

theorem Job.Origin.of_eq {j : Job} (h : j.Origin a w) (hj : v.jobs = w.jobs)
    (hn : v.nextId = w.nextId) (hc : v.manager.crawler = w.manager.crawler) : j.Origin a v := by
  cases h with
  | kept hm => exact .kept (hj ▸ hm)
  | own k hk hi ht => exact .own k hk hi ht
  | doomed t hm ht => exact .doomed t (hj ▸ hm) ht
  | started hi hs => exact .started (hn ▸ hi) (hc ▸ hs)

theorem Job.Origin.trans {j : Job} (h : w.Tends a calm v) (ho : j.Origin a v) : j.Origin a w := by
  cases ho with
  | kept hm => exact h.jobs j hm
  | own k hk hi ht => exact .own k hk hi ht
  | started hi hs => exact .started (Nat.le_trans h.nextId hi) (h.crawler ▸ hs)
  | doomed t hm ht =>
    -- The crawler that was told to end may itself have gone on, been told before, or just started.
    rcases h.jobs _ hm with hm | ⟨k, hk, hi, hg⟩ | ⟨s, hm, hs⟩ | ⟨hi, hs⟩
    · exact .doomed t hm ht
    · refine .own k hk hi ?_
      rw [ht]
      rcases k with ⟨i, task⟩
      cases task with
      | crawl s => exact hg
      | _ => exact hg.elim
    · cases hs
      exact .doomed s hm ht
    · refine .started hi ?_
      rw [ht]
      rcases a with ⟨i, task⟩ | _ | s
      · cases task with
        | manage m => exact hs
        | _ => exact hs.elim
      · exact hs.elim
      · obtain ⟨rfl, he⟩ := hs
        cases he

namespace World

theorem mem_jobs_removeJob {id : TaskId} {j : Job} :
    j ∈ (w.removeJob id).jobs ↔ j ∈ w.jobs ∧ j.id ≠ id := by
  simp [removeJob]

theorem mem_jobs_keepFirst {id : TaskId} {t : Task} {j : Job} :
    j ∈ (w.keepFirst id t).jobs ↔ j = ⟨id, t⟩ ∨ j ∈ w.jobs ∧ j.id ≠ id := by
  rw [keepFirst, List.mem_cons, mem_jobs_removeJob]

theorem mem_jobs_keepLast {id : TaskId} {t : Task} {j : Job} :
    j ∈ (w.keepLast id t).jobs ↔ (j ∈ w.jobs ∧ j.id ≠ id) ∨ j = ⟨id, t⟩ := by
  rw [keepLast, List.mem_append, mem_jobs_removeJob, List.mem_singleton]

section Own

variable {id : TaskId} {t : Task} {P : Task → Prop}

theorem own_removeJob : ∀ j ∈ (w.removeJob id).jobs, j.id = id → P j.task :=
  fun _ hj hi => absurd hi (mem_jobs_removeJob.1 hj).2

theorem own_keepFirst (h : P t) : ∀ j ∈ (w.keepFirst id t).jobs, j.id = id → P j.task := by
  intro j hj hi
  rcases mem_jobs_keepFirst.1 hj with rfl | ⟨-, hn⟩
  · exact h
  · exact absurd hi hn

theorem own_keepLast (h : P t) : ∀ j ∈ (w.keepLast id t).jobs, j.id = id → P j.task := by
  intro j hj hi
  rcases mem_jobs_keepLast.1 hj with ⟨-, hn⟩ | rfl
  · exact absurd hi hn
  · exact h

theorem own_keepInPlace (h : P t) : ∀ j ∈ (w.keepInPlace id t).jobs, j.id = id → P j.task := by
  intro j hj hi
  obtain ⟨k, -, rfl⟩ := List.mem_map.1 hj
  split at hi
  · rename_i hk
    rw [if_pos hk]
    exact h
  · rename_i hk
    exact absurd (beq_iff_eq.2 hi) hk

end Own

theorem Tends.refl (w : World) : w.Tends a calm w :=
  ⟨Nat.le_refl _, rfl, rfl, fun _ hm => .kept hm, fun _ hm => .inl hm⟩

theorem Tends.trans (h : w.Tends a calm v) (k : v.Tends a calm u) : w.Tends a calm u := by
  refine ⟨Nat.le_trans h.nextId k.nextId, k.crawler.trans h.crawler,
    k.shutdownTimeout.trans h.shutdownTimeout, fun j hm => (k.jobs j hm).trans h, fun e hm => ?_⟩
  rcases k.ended e hm with hm | he
  · exact h.ended e hm
  · exact .inr he

theorem Tends.forall_tasks {P : Task → Prop} (h : w.Tends a calm v) (hw : ∀ j ∈ w.jobs, P j.task)
    (ha : ∀ k, a = .job k → P k.task) (hg : ∀ t u, t.GoesOn u → P t → P u)
    (hs : ∀ t, a.Starts w.manager.crawler t → P t) : ∀ j ∈ v.jobs, P j.task := by
  intro j hm
  rcases h.jobs j hm with hm | ⟨k, hk, -, ht⟩ | ⟨t, hm, ht⟩ | ⟨-, ht⟩
  · exact hw j hm
  · exact hg _ _ ht (ha k hk)
  · rw [ht]
    exact hg (.crawl t) _ ⟨rfl, rfl⟩ (hw _ hm)
  · exact hs _ ht

namespace Aside

theorem refl (w : World) : w.Aside a calm w := ⟨.refl w, rfl, rfl, rfl, rfl, rfl, rfl, rfl, rfl⟩

theorem trans (h : w.Aside a calm v) (k : v.Aside a calm u) : w.Aside a calm u :=
  ⟨h.toTends.trans k.toTends, k.now.trans h.now, k.uptime.trans h.uptime,
    k.results.trans h.results, k.loaded.trans h.loaded, k.store.trans h.store,
    k.clock.trans h.clock, k.delivered.trans h.delivered, k.kind.trans h.kind⟩

theorem pass (h : v.fixture = w.fixture) : w.Aside a calm v where
  nextId := Nat.le_of_eq (congrArg Fixture.nextId h).symm
  crawler := congrArg Fixture.crawler h
  shutdownTimeout := congrArg Fixture.shutdownTimeout h
  jobs j hm := .kept (show j ∈ w.fixture.jobs from h ▸ hm)
  ended e hm := .inl (show e ∈ w.fixture.ended from h ▸ hm)
  now := congrArg Fixture.now h
  uptime := congrArg Fixture.uptime h
  results := congrArg Fixture.results h
  loaded := congrArg Fixture.loaded h
  store := congrArg Fixture.store h
  clock := congrArg Fixture.clock h
  delivered := congrArg Fixture.delivered h
  kind := congrArg Fixture.kind h

theorem report (w : World) (e : Entry) : w.Aside a calm (w.report e) :=
  .pass (by simp only [fixture, World.report, Journal.kind_report])

theorem after (k : v.Aside a calm u) (h : v.fixture = w.fixture) : w.Aside a calm u :=
  .trans (.pass h) k

section Turns

variable {k : Job} {t : Task} {r : TaskResult}

theorem removeJob (w : World) (id : TaskId) : w.Aside a calm (w.removeJob id) :=
  ⟨⟨Nat.le_refl _, rfl, rfl, fun _ hm => .kept (mem_jobs_removeJob.1 hm).1, fun _ hm => .inl hm⟩,
    rfl, rfl, rfl, rfl, rfl, rfl, rfl, rfl⟩

theorem finish (w : World) (k : Job) (hr : calm → r.isCrash = false) :
    w.Aside (.job k) calm (w.finish k.id r) := by
  refine ⟨⟨Nat.le_refl _, rfl, rfl, fun _ hm => .kept (mem_jobs_removeJob.1 hm).1, fun e hm => ?_⟩,
    rfl, rfl, rfl, rfl, rfl, rfl, rfl, rfl⟩
  rcases List.mem_cons.1 hm with rfl | hm
  · exact .inr ⟨⟨k, rfl, rfl⟩, hr⟩
  · exact .inl hm

theorem keep (ht : k.task.GoesOn t) {jobs : List Job}
    (hj : ∀ j ∈ jobs, j ∈ w.jobs ∨ j = ⟨k.id, t⟩) :
    w.Aside (.job k) calm { w with jobs := jobs } := by
  refine ⟨⟨Nat.le_refl _, rfl, rfl, fun j hm => ?_, fun e hm => .inl hm⟩,
    rfl, rfl, rfl, rfl, rfl, rfl, rfl, rfl⟩
  rcases hj j hm with hm | rfl
  · exact .kept hm
  · exact .own k rfl rfl ht

theorem keepFirst (ht : k.task.GoesOn t) : w.Aside (.job k) calm (w.keepFirst k.id t) :=
  keep ht fun _ hm => (mem_jobs_keepFirst.1 hm).symm.imp_left And.left

theorem keepLast (ht : k.task.GoesOn t) : w.Aside (.job k) calm (w.keepLast k.id t) :=
  keep ht fun _ hm => (mem_jobs_keepLast.1 hm).imp_left And.left

theorem keepInPlace (ht : k.task.GoesOn t) : w.Aside (.job k) calm (w.keepInPlace k.id t) := by
  refine keep ht fun j hm => ?_
  obtain ⟨l, hl, rfl⟩ := List.mem_map.1 hm
  split
  · exact .inr rfl
  · exact .inl hl

theorem spawn (hs : a.Starts w.manager.crawler t) : w.Aside a calm (w.spawn t).2 := by
  refine ⟨⟨Nat.le_succ _, rfl, rfl, fun j hm => ?_, fun e hm => .inl hm⟩,
    rfl, rfl, rfl, rfl, rfl, rfl, rfl, rfl⟩
  rcases List.mem_append.1 hm with hm | hm
  · exact .kept hm
  · rw [List.mem_singleton.1 hm]
    exact .started (Nat.le_refl _) hs

theorem abort (w : World) (id : TaskId) : w.Aside a calm (w.abort id) := by
  obtain ⟨jobs, q, l, ha, -⟩ := w.abort_eq id
  have hj : ∀ j ∈ (w.abort id).jobs, j.Origin a w := by
    intro j hm
    rcases mem_jobs_abort hm with hm | ⟨t, item, -, hm, ht⟩
    · exact .kept hm
    · exact .doomed t hm ht
  rw [ha] at hj ⊢
  exact ⟨⟨Nat.le_refl _, rfl, rfl, hj, fun e hm => .inl hm⟩, rfl, rfl, rfl, rfl, rfl, rfl, rfl, rfl⟩

theorem foldl_abort (w : World) (tasks : List TaskId) :
    w.Aside a calm (tasks.foldl World.abort w) := by
  induction tasks generalizing w with
  | nil => exact refl w
  | cons id rest ih => exact (abort w id).trans (ih _)

theorem dropPool (w : World) (pool : Nat) : w.Aside a calm (w.dropPool pool) := by
  unfold World.dropPool
  split
  · exact refl w
  · exact (foldl_abort w _).trans (pass rfl)

end Turns

end Aside

end World

end CatalogCrawl

import CatalogCrawl.Proofs.World.Sessions

namespace CatalogCrawl

section Checks

theorem reportIf_eq_nil {b : Bool} {problem : String} : reportIf b problem = [] ↔ b = false := by
  cases b <;> simp [reportIf]

structure Config.Checked (c : Config) : Prop where
  capacity : 0 < c.crawler.resultQueueCapacity
  crawlers : 0 < c.partition.crawlerCount ∧ c.partition.crawlerCount ≤ PartitionConfig.maxCrawlers
  execution : c.partition.executionPeriod.nanos ≠ 0
  eviction : c.cache.evictionPeriod.nanos ≠ 0

theorem Config.checked {c : Config} (h : c.validate = .ok ()) : c.Checked := by
  have hp : c.problems = [] := by
    unfold validate at h
    split at h
    · rename_i he
      exact List.isEmpty_iff.1 he
    · cases h
  simp only [problems, CrawlerConfig.problems, PartitionConfig.problems, CacheConfig.problems,
    List.append_eq_nil_iff, reportIf_eq_nil, Span.isZero, beq_eq_false_iff_ne,
    decide_eq_false_iff_not, Nat.not_lt] at hp
  obtain ⟨⟨⟨⟨⟨⟨⟨⟨-, -⟩, hcap⟩, -⟩, -⟩, ⟨hz, hm⟩, he⟩, -, hv⟩, -⟩, -⟩ := hp
  exact ⟨Nat.pos_of_ne_zero hcap, ⟨Nat.pos_of_ne_zero hz, hm⟩, he, hv⟩

theorem Config.Checked.clampCount {c : Config} (h : c.Checked) :
    Manager.clampCount c.partition.crawlerCount = c.partition.crawlerCount := by
  obtain ⟨hz, hm⟩ := h.crawlers
  unfold Manager.clampCount
  omega

theorem Config.Checked.plan? {c : Config} (h : c.Checked) (number : Nat) :
    c.partition.plan? number =
      .ok ⟨c.partition.executionPeriod, c.partition.initialDelay, number⟩ := by
  rw [PartitionConfig.plan?, Plan.make?, if_neg h.execution]

end Checks

/-- Whether a clock that shows some uptime at the start can show an instant. -/
def shownFrom (uptime time : Nat) : Prop := uptime + time < Number.half64 * Span.nanosInSec

instance (uptime time : Nat) : Decidable (shownFrom uptime time) :=
  inferInstanceAs (Decidable (_ < _))

structure Config.Begins (c : Config) (uptime : Nat) : Prop where
  capacity : c.crawler.resultQueueCapacity ≤ ResultQueue.maxCapacity
  delay : shownFrom uptime c.partition.initialDelay.nanos

/-- The clock shows all deadlines that are set until some time. -/
structure Config.Lasts (c : Config) (uptime time : Nat) : Prop where
  wait : shownFrom uptime (time + c.crawler.waitForWorkItem.nanos)
  shutdown : shownFrom uptime (time + c.partition.shutdownTimeout.nanos)

theorem Config.Lasts.mono {c : Config} {uptime time earlier : Nat} (h : c.Lasts uptime time)
    (he : earlier ≤ time) : c.Lasts uptime earlier := by
  obtain ⟨hw, hs⟩ := h
  unfold shownFrom at hw hs
  constructor <;> unfold shownFrom <;> omega

section Calm

def Task.Keeps (config : CrawlerConfig) : Task → Prop
  | .crawl t => t.crawler.config = config
  | .evict t => t.period.nanos ≠ 0
  | .manage t => ∀ pool timeout, t.call ≠ .shutdownPool pool timeout
  | _ => True

theorem Task.Keeps.goesOn {config : CrawlerConfig} {t u : Task} (h : t.Keeps config)
    (hg : t.GoesOn u) : u.Keeps config := by
  unfold GoesOn at hg
  split at hg
  · exact (congrArg Crawler.config hg.1).trans h
  · trivial
  · trivial
  · exact fun hz => h (hg ▸ hz)
  · exact fun pool timeout => hg ▸ h pool timeout
  all_goals first | exact trivial | exact hg.elim

def Happening.isOrdinary : Happening → Bool
  | .event (.launch (.evict _)) | .event (.launch (.manage ⟨.shutdownPool .., _⟩)) => false
  | _ => true

theorem Happening.keeps_of_isOrdinary {t : Task} (config : CrawlerConfig) (he : t.isEntry = true)
    (h : (Happening.event (.launch t)).isOrdinary = true) : t.Keeps config := by
  cases t with
  | crawl t => cases he
  | evict t => cases h
  | manage t =>
    rcases t with ⟨call, stage⟩
    intro pool timeout hc
    subst hc
    cases h
  | _ => trivial

namespace World

variable {w v : World} {c : Config}

structure Calm (w : World) (c : Config) (uptime : Nat) : Prop where
  crawler : w.manager.crawler = c.crawler
  shutdownTimeout : w.manager.shutdownTimeout = c.partition.shutdownTimeout
  uptime : w.uptime = uptime
  tasks : ∀ j ∈ w.jobs, j.task.Keeps c.crawler
  ended : ∀ e ∈ w.ended, e.result.isCrash = false

variable {uptime : Nat}

theorem shows_iff (h : w.uptime = uptime) (time : Nat) :
    w.shows time = true ↔ shownFrom uptime time := by
  rw [shows, shownFrom, h, decide_eq_true_iff]

theorem Calm.safe (h : w.Calm c uptime) (hl : c.Lasts uptime w.now) {t : Task}
    (ht : t.Keeps c.crawler) : t.Safe w := by
  cases t with
  | crawl t =>
    have hc : t.crawler.config = c.crawler := ht
    rw [Task.Safe, hc, shows_iff h.uptime]
    exact hl.wait
  | evict t => exact ht
  | manage t =>
    refine ⟨?_, fun pool timeout hc => absurd hc (ht pool timeout)⟩
    rw [h.shutdownTimeout, shows_iff h.uptime]
    exact hl.shutdown
  | _ => trivial

theorem Calm.tends {a : Actor} (h : w.Calm c uptime) (hk : ∀ k, a = .job k → k.task.Keeps c.crawler)
    (ho : ∀ t, a.Starts c.crawler t → t.Keeps c.crawler) (ht : w.Tends a True v)
    (hu : v.uptime = w.uptime) : v.Calm c uptime where
  crawler := ht.crawler.trans h.crawler
  shutdownTimeout := ht.shutdownTimeout.trans h.shutdownTimeout
  uptime := hu.trans h.uptime
  tasks := ht.forall_tasks h.tasks hk (fun _ _ hg hp => hp.goesOn hg) (h.crawler ▸ ho)
  ended e hm := by
    rcases ht.ended e hm with hm | ⟨-, hc⟩
    · exact h.ended e hm
    · exact hc trivial

theorem Calm.react (h : w.Calm c uptime) (hl : c.Lasts uptime w.now) {e : Event}
    (he : (Happening.event e).isOrdinary = true) : (w.react e).Calm c uptime := by
  have keeps_actor : ∀ k, w.actor e = .job k → k.task.Keeps c.crawler := by
    intro k hk
    obtain ⟨id, signalFirst, -, hj⟩ := of_actor_eq_job hk
    exact h.tasks k (mem_of_acting? hj).2.1
  have hs : w.IsSafe e := by
    cases e with
    | step s =>
      cases s with
      | turn id signalFirst => exact fun j hj => h.safe hl (h.tasks j (mem_of_acting? hj).2.1)
      | pass nanos => trivial
    | _ => trivial
  refine h.tends keeps_actor (fun t ht => ?_) (react_tends fun _ => hs) (time_react w e).2
  unfold Actor.Starts at ht
  split at ht
  · exact ht.1
  · trivial
  · trivial
  · rename_i s u hu
    obtain ⟨rfl, hi⟩ := ht
    have hx := of_actor_eq_outside hu
    subst hx
    exact Happening.keeps_of_isOrdinary c.crawler hi he
  · exact ht.elim

theorem Calm.meet (h : w.Calm c uptime) (hl : c.Lasts uptime w.now) {x : Happening}
    (hx : x.isOrdinary = true) : (w.meet x).Calm c uptime := by
  cases x with
  | event e => exact h.react hl hx
  | _ => exact ⟨h.crawler, h.shutdownTimeout, h.uptime, h.tasks, h.ended⟩

theorem now_meet (w : World) (x : Happening) : w.now ≤ (w.meet x).now := by
  cases x with
  | event e => exact Nat.le.intro (time_react w e).1.symm
  | _ => exact Nat.le_refl _

theorem now_undergo (w : World) (list : List Happening) : w.now ≤ (w.undergo list).now := by
  induction list generalizing w with
  | nil => exact Nat.le_refl _
  | cons x rest ih => exact Nat.le_trans (now_meet w x) (ih (w.meet x))

theorem Calm.undergo (h : w.Calm c uptime) {list : List Happening} {time : Nat}
    (hl : c.Lasts uptime time) (ht : (w.undergo list).now ≤ time)
    (hx : ∀ x ∈ list, x.isOrdinary = true) : (w.undergo list).Calm c uptime := by
  induction list generalizing w with
  | nil => exact h
  | cons x rest ih =>
    have hn : w.now ≤ time := Nat.le_trans (now_undergo w (x :: rest)) ht
    exact ih (h.meet (hl.mono hn) (hx x List.mem_cons_self)) ht fun y hy =>
      hx y (List.mem_cons_of_mem x hy)

end World

end Calm

end CatalogCrawl

import CatalogCrawl.Proofs.World.Order

namespace CatalogCrawl

variable {w v u : World} {id other : TaskId} {n : Nat} {e : Event} {served : Served}

open World

namespace CrawlTask

variable {s t : CrawlTask}

def Follows (w : World) (s t : CrawlTask) : Prop :=
  t.signal = s.signal ∧ ∀ seen, t.Polls seen →
    s.Polls seen ∨ ¬ w.Raised s.signal ∧ (w.signal s.signal).version = seen

theorem Follows.same (hs : t.signal = s.signal) (ht : t.stage = s.stage) : s.Follows w t := by
  refine ⟨hs, fun seen hp => .inl ?_⟩
  rwa [Polls, ht] at hp

theorem Follows.still (hs : t.signal = s.signal) (ht : ∀ seen, ¬ t.Polls seen) : s.Follows w t :=
  ⟨hs, fun seen hp => absurd hp (ht seen)⟩

/-- The crawler has a signal, and notices when it is raised. -/
structure Attends (w : World) (t : CrawlTask) : Prop where
  signal : t.signal < w.signals.length
  heard : ∀ seen, t.Polls seen → (w.signal t.signal).Heard seen

theorem Attends.follows (h : s.Attends w) (hf : s.Follows w t) (ho : w.Onward v) :
    t.Attends v := by
  obtain ⟨hs, hp⟩ := hf
  have hr := ho.rises s.signal h.signal
  refine ⟨hs ▸ Nat.lt_of_lt_of_le h.signal ho.signals, fun seen hk => ?_⟩
  rw [hs]
  rcases hp seen hk with hk | ⟨hn, rfl⟩
  · exact (h.heard seen hk).rises hr
  · exact (Signal.heard_version hn).rises hr

theorem not_polls_looking (t : CrawlTask) (seen : Nat) :
    ¬ ({ t with stage := .looking } : CrawlTask).Polls seen := by
  rintro ⟨ticket, deadline, h⟩
  cases h

theorem not_polls_matching (t : CrawlTask) (item : WorkItem) (seen : Nat) :
    ¬ ({ t with stage := .matching item } : CrawlTask).Polls seen := by
  rintro ⟨ticket, deadline, h⟩
  cases h

theorem complete_crawls {activity : Nat} (hm : t.mode = .steady activity) {item : WorkItem}
    {i : TaskId} (h : ⟨i, .crawl s⟩ ∈ (t.complete w id item).jobs) :
    ⟨i, .crawl s⟩ ∈ w.jobs ∧ i ≠ id ∨ i = id ∧ s = { t with stage := .looking } := by
  have hw : ∀ i s, ⟨i, .crawl s⟩ ∈ (w.worked t activity item).jobs →
      (⟨i, .crawl s⟩ : Job) ∈ w.jobs := by
    intro i s hm
    rcases List.mem_append.1 hm with hm | hm
    · exact hm
    · obtain ⟨a, -, ht⟩ := task_of_mem_callsFrom hm
      cases ht
  rw [complete_eq hm] at h
  split at h
  · obtain ⟨hm, hi⟩ := mem_jobs_removeJob.1 h
    exact .inl ⟨hw _ _ hm, hi⟩
  · rcases mem_jobs_keepFirst.1 h with he | ⟨hm, hi⟩
    · cases he
      exact .inr ⟨rfl, rfl⟩
    · exact .inl ⟨hw _ _ hm, hi⟩

theorem Round.crawls (h : t.Round w id v) {i : TaskId} (hj : ⟨i, .crawl s⟩ ∈ v.jobs) :
    ⟨i, .crawl s⟩ ∈ w.jobs ∨ i = id ∧ t.Follows w s ∧ s.mode = t.mode := by
  have kept : ⟨i, .crawl s⟩ ∈ w.jobs ∧ i ≠ id ∨ i = id ∧ s = { t with stage := .looking } →
      ⟨i, .crawl s⟩ ∈ w.jobs ∨ i = id ∧ t.Follows w s ∧ s.mode = t.mode := by
    rintro (⟨hm, -⟩ | ⟨rfl, rfl⟩)
    · exact .inl hm
    · exact .inr ⟨rfl, .still rfl (not_polls_looking t), rfl⟩
  cases h with
  | rests => exact .inl hj
  | ends => exact .inl (mem_jobs_removeJob.1 hj).1
  | again b seen hp =>
    rcases mem_jobs_keepFirst.1 hj with he | ⟨hm, -⟩
    · cases he
      exact .inr ⟨rfl, .still rfl (not_polls_looking t), rfl⟩
    · exact .inl hm
  | waits b ticket deadline seen hs hp hn =>
    rcases mem_jobs_keepLast.1 hj with ⟨hm, -⟩ | he
    · exact .inl hm
    · cases he
      refine .inr ⟨rfl, ⟨rfl, fun k hk => ?_⟩, rfl⟩
      obtain ⟨_, _, hk⟩ := hk
      cases hk
      rcases hp with hl | hp
      · rw [Signal.hasNews, Bool.or_eq_false_iff] at hn
        refine .inr ⟨?_, by simpa using hn.1⟩
        simpa [Searches, hl, Raised] using hs
      · exact .inl hp
  | takes item rest b activity =>
    rcases mem_jobs_keepLast.1 hj with ⟨hm, -⟩ | he
    · exact .inl hm
    · cases he
      exact .inr ⟨rfl, .still rfl (not_polls_matching t item), rfl⟩
  | works item rest b activity _ _ hm =>
    have hc := complete_crawls hm hj
    exact kept hc
  | completes item activity _ hm =>
    have hc := complete_crawls hm hj
    exact kept hc

end CrawlTask

namespace World

theorem Sound.round {t : CrawlTask} (h : w.Sound none 0 served)
    (ha : w.acting? id = some ⟨id, .crawl t⟩) (signalFirst : Bool) :
    t.Round w id (w.react (.step (.turn id signalFirst))) := by
  obtain ⟨activity, hm⟩ := h.isSteady (mem_of_acting? ha).2.1
  rw [react, step_turn_eq, ha]
  exact t.turn_round hm signalFirst

theorem crawls_react (h : w.Sound none 0 served) (hm : w.isManaging e = false) {t : CrawlTask}
    (hj : (⟨id, .crawl t⟩ : Job) ∈ (w.react e).jobs) :
    ∃ s : CrawlTask, ⟨id, .crawl s⟩ ∈ w.jobs ∧ s.Follows w t ∧ t.mode = s.mode := by
  rcases (tends_react w e).jobs _ hj with hk | ⟨k, hk, hi, hg⟩ | ⟨s, hs, ht⟩ | ⟨-, hs⟩
  · exact ⟨t, hk, .same rfl rfl, rfl⟩
  · obtain ⟨i, signalFirst, rfl, ha⟩ := of_actor_eq_job hk
    obtain ⟨-, hw, hid⟩ := mem_of_acting? ha
    rcases k with ⟨k, task⟩
    cases task with
    | crawl s =>
      simp only at hi hid
      subst hi hid
      rcases (h.round ha signalFirst).crawls hj with hk | ⟨-, hf⟩
      · exact ⟨t, hk, .same rfl rfl, rfl⟩
      · exact ⟨s, hw, hf⟩
    | _ => exact hg.elim
  · cases ht
    exact ⟨s, hs, .same rfl rfl, rfl⟩
  · rcases ha : w.actor e with ⟨i, task⟩ | _ | started
    · obtain ⟨k, signalFirst, rfl, hk⟩ := of_actor_eq_job ha
      rw [ha] at hs
      cases task with
      | manage t => simp [isManaging, hk, Task.isManage] at hm
      | _ => exact hs.elim
    · rw [ha] at hs
      exact hs.elim
    · rw [ha] at hs
      obtain ⟨rfl, he⟩ := hs
      cases he

def Employs (w : World) (id : TaskId) : Prop :=
  ∃ (k : Nat) (p : Pool), w.manager.pool = some k ∧ w.pools[k]? = some p ∧ id ∈ p.crawlers

def EmploysBy (w : World) (id : TaskId) (signal : Nat) : Prop :=
  ∃ (k : Nat) (p : Pool), w.manager.pool = some k ∧ w.pools[k]? = some p ∧ id ∈ p.crawlers ∧
    p.signal = signal

structure Crewed (w : World) : Prop where
  crew : ∀ i (t : CrawlTask), (⟨i, .crawl t⟩ : Job) ∈ w.jobs →
    w.EmploysBy i t.signal ∨ w.Raised t.signal
  attends : ∀ i (t : CrawlTask), (⟨i, .crawl t⟩ : Job) ∈ w.jobs → t.Attends w
  size : ∀ p ∈ w.pools, p.crawlers.length ≤ w.manager.crawlerCount

theorem Crewed.onward (h : w.Crewed) (ho : w.Onward v)
    (hj : ∀ i (t : CrawlTask), (⟨i, .crawl t⟩ : Job) ∈ v.jobs →
      ∃ s : CrawlTask, ⟨i, .crawl s⟩ ∈ w.jobs ∧ s.Follows w t)
    (hk : ∀ i signal, w.EmploysBy i signal → v.EmploysBy i signal ∨ v.Raised signal)
    (hs : ∀ p ∈ v.pools, p.crawlers.length ≤ w.manager.crawlerCount) : v.Crewed := by
  refine ⟨fun i t hm => ?_, fun i t hm => ?_, fun p hp => ho.crawlerCount ▸ hs p hp⟩
  · obtain ⟨s, hm, hf⟩ := hj i t hm
    rw [hf.1]
    rcases h.crew i s hm with hc | hr
    · exact hk i s.signal hc
    · exact .inr (ho.raised (h.attends i s hm).signal hr)
  · obtain ⟨s, hm, hf⟩ := hj i t hm
    exact (h.attends i s hm).follows hf ho

theorem Crewed.apart (h : w.Crewed) (ha : w.Apart v)
    (hj : ∀ i (t : CrawlTask), (⟨i, .crawl t⟩ : Job) ∈ v.jobs →
      ∃ s : CrawlTask, ⟨i, .crawl s⟩ ∈ w.jobs ∧ s.Follows w t) : v.Crewed := by
  refine h.onward ha.onward hj (fun i signal hk => .inl ?_) fun p hp => ?_
  · unfold EmploysBy
    rw [ha.manager, ha.pools]
    exact hk
  · rw [ha.pools] at hp
    exact h.size p hp

theorem employsBy_changePool {k : Nat} (ht : w.Told k) (f : Pool → Pool) {i signal : Nat}
    (h : w.EmploysBy i signal) :
    (w.changePool k f).EmploysBy i signal ∨ (w.changePool k f).Raised signal := by
  obtain ⟨l, p, hm, hp, hi, hs⟩ := h
  by_cases he : k = l
  · obtain ⟨q, hq, hr⟩ := ht
    subst he
    cases hp.symm.trans hq
    exact .inr (hs ▸ hr)
  · exact .inl ⟨l, p, hm, by simp [changePool, he, hp], hi, hs⟩

theorem size_changePool {k m : Nat} {f : Pool → Pool}
    (hf : ∀ p, (f p).crawlers.length ≤ p.crawlers.length)
    (h : ∀ p ∈ w.pools, p.crawlers.length ≤ m) :
    ∀ p ∈ (w.changePool k f).pools, p.crawlers.length ≤ m := by
  intro q hq
  obtain ⟨i, hi⟩ := List.mem_iff_getElem?.1 hq
  rw [changePool, List.getElem?_modify] at hi
  obtain ⟨p, hp, rfl⟩ := Option.map_eq_some_iff.1 hi
  have hl := h p (List.mem_of_getElem? hp)
  split
  · exact Nat.le_trans (hf p) hl
  · exact hl

theorem Deed.crawls (h : w.Deed id 0 v) {i : TaskId} {t : CrawlTask}
    (hj : (⟨i, .crawl t⟩ : Job) ∈ v.jobs) :
    ∃ s : CrawlTask, ⟨i, .crawl s⟩ ∈ w.jobs ∧ s.Follows w t := by
  rcases h.jobs _ hj with hm | ⟨s, hm, ht⟩ | ⟨hn, -⟩
  · exact ⟨t, hm, .same rfl rfl⟩
  · cases ht
    exact ⟨s, hm, .same rfl rfl⟩
  · cases hn

theorem Chore.crewed (h : w.Chore v) (hc : w.Crewed) : v.Crewed := by
  have hd : w.Deed 0 0 v := .chore h
  have hj := fun i t => hd.crawls (i := i) (t := t)
  have ho := h.onward
  have keep : v.manager = w.manager → v.pools = w.pools → v.Crewed := fun hm hp =>
    hc.apart ⟨hm, hp, ho⟩ hj
  cases h with
  | note => exact keep rfl rfl
  | abort task => exact keep (w.abort_apart task).manager (w.abort_apart task).pools
  | raise i => exact keep rfl rfl
  | lose i => exact keep rfl rfl
  | close k ht =>
    exact hc.onward ho hj (fun i signal => employsBy_changePool ht _)
      (size_changePool (fun _ => Nat.le_refl _) hc.size)
  | bury k ht =>
    exact hc.onward ho hj (fun i signal => employsBy_changePool ht _)
      (size_changePool (fun _ => Nat.zero_le _) hc.size)

theorem Crewed.spawnPool (h : w.Crewed) (hn : w.manager.pool = none) : w.spawnPool.Crewed := by
  have ho := w.onward_spawnPool
  obtain ⟨journal, hs⟩ := w.spawnPool_eq
  rw [hs] at ho ⊢
  have hnew : (w.withPool journal).pools[w.pools.length]? = some ⟨.running, w.signals.length,
      w.activities.length, List.range' w.nextId w.manager.crawlerCount⟩ := by
    simp [withPool]
  have hj : ∀ i (t : CrawlTask), (⟨i, .crawl t⟩ : Job) ∈ (w.withPool journal).jobs →
      ⟨i, .crawl t⟩ ∈ w.jobs ∨ t.signal = w.signals.length ∧ (∀ seen, ¬ t.Polls seen) ∧
        i ∈ List.range' w.nextId w.manager.crawlerCount := by
    intro i t hm
    refine (List.mem_append.1 hm).imp_right fun hm => ?_
    obtain ⟨k, hk, he⟩ := List.mem_mapIdx.1 hm
    rw [length_makeCrawlers] at hk
    cases he
    refine ⟨rfl, ?_, List.mem_range'_1.2 ⟨Nat.le_add_right _ _, Nat.add_lt_add_left hk _⟩⟩
    rintro seen ⟨ticket, deadline, hp⟩
    cases hp
  refine ⟨fun i t hm => ?_, fun i t hm => ?_, fun p hp => ?_⟩
  · rcases hj i t hm with hm | ⟨ht, -, hi⟩
    · rcases h.crew i t hm with ⟨k, p, hk, -⟩ | hr
      · cases hn.symm.trans hk
      · exact .inr (ho.raised (h.attends i t hm).signal hr)
    · exact .inl ⟨_, _, rfl, hnew, hi, ht.symm⟩
  · rcases hj i t hm with hm | ⟨ht, hp, -⟩
    · exact (h.attends i t hm).follows (.same rfl rfl) ho
    · refine ⟨?_, fun seen hs => absurd hs (hp seen)⟩
      rw [ht]
      simp [withPool]
  · rcases List.mem_append.1 hp with hp | hp
    · exact h.size p hp
    · rw [List.mem_singleton.1 hp, List.length_range']
      exact Nat.le_refl _

theorem Deed.crewed (h : w.Deed id n v) (hc : w.Crewed) : v.Crewed := by
  have keep (m : Manager) (hp : m.pool = w.manager.pool)
      (hn : m.crawlerCount = w.manager.crawlerCount) :
      ({ w with manager := m } : World).Crewed := by
    refine hc.onward (.of_eq rfl rfl hn) (fun i t hm => ⟨t, hm, .same rfl rfl⟩)
      (fun i signal hk => .inl ?_) hc.size
    obtain ⟨k, p, hk, h⟩ := hk
    exact ⟨k, p, hp.trans hk, h⟩
  cases h with
  | chore h => exact h.crewed hc
  | pend => exact keep _ rfl rfl
  | enter => exact keep _ rfl rfl
  | leave => exact keep _ rfl rfl
  | forget => exact keep _ rfl rfl
  | vacate _ ht =>
    refine hc.onward (.of_eq rfl rfl rfl) (fun i t hm => ⟨t, hm, .same rfl rfl⟩)
      (fun i signal hk => .inr ?_) hc.size
    obtain ⟨k, p, hk, hp, -, hs⟩ := hk
    obtain ⟨q, hq, hr⟩ := ht k hk
    cases hp.symm.trans hq
    exact hs ▸ hr
  | opens _ hp => exact hc.spawnPool hp

theorem Deeds.crewed (h : Deeds id n w v) (hc : w.Crewed) : v.Crewed := by
  induction h with
  | refl => exact hc
  | head hd _ ih => exact ih (hd.crewed hc)

theorem Crewed.react (h : w.Crewed) (hw : w.Orderly none) (hs : w.Sound none 0 served)
    (hd : e ≠ .dropManager) : (w.react e).Crewed := by
  by_cases hm : w.isManaging e = true
  · rcases of_isManaging hm with ⟨id, signalFirst, t, rfl, ha, hr⟩ | ⟨p, rfl⟩ | rfl
    · rw [hr]
      have hj := (mem_of_acting? ha).2.1
      rcases t.turn_does hw.toWired (hw.proper id t hj nofun) with he | ⟨n, v, hv, he⟩
      · rw [he]
        exact h
      · refine (hv.crewed h).apart he.apart fun i s hk => ?_
        rcases he.jobs _ hk with ⟨hk, -⟩ | ⟨stage, hk, -⟩
        · exact ⟨s, hk, .same rfl rfl⟩
        · cases hk
    · obtain ⟨signals, hf, ho, -⟩ := w.follow_cases p
      rw [World.react, hf]
      have ho' : w.Onward (w.follow p) := by
        rw [hf]
        exact ⟨ho.signals, ho.rises, ho.pools, rfl⟩
      rw [hf] at ho'
      refine h.onward ho' (fun i t hk => ?_) (fun i signal hk => .inl hk) h.size
      rcases List.mem_append.1 hk with hk | hk
      · exact ⟨t, hk, .same rfl rfl⟩
      · cases List.mem_singleton.1 hk
    · exact absurd rfl hd
  · rw [Bool.not_eq_true] at hm
    refine h.apart (react_apart hs hm) fun i t hk => ?_
    obtain ⟨s, hj, hf, -⟩ := crawls_react hs hm hk
    exact ⟨s, hj, hf⟩

theorem setup_crewed (s : Setup) : s.world.Crewed := by
  obtain ⟨hj, hp, -⟩ := setup_fresh s
  refine ⟨?_, ?_, ?_⟩
  · simp [hj]
  · simp [hj]
  · simp [hp]

structure Manned (w : World) : Prop extends w.Settled, w.Crewed

theorem Manned.react (h : w.Manned) (hd : e ≠ .dropManager) : (w.react e).Manned := by
  obtain ⟨n, hs⟩ := h.sound
  exact ⟨h.toSettled.react e, h.toCrewed.react h.toOrderly hs hd⟩

theorem Manned.play (h : w.Manned) {events : List Event} (hd : .dropManager ∉ events) :
    (w.play events).Manned :=
  play_induction (fun _ _ he h => h.react fun hx => hd (hx ▸ he)) h

theorem play_manned (s : Setup) {events : List Event} (hd : .dropManager ∉ events) :
    (s.world.play events).Manned :=
  Manned.play ⟨setup_settled s, setup_crewed s⟩ hd

end World

end CatalogCrawl

import CatalogCrawl.Proofs.World.Busy
import CatalogCrawl.Proofs.World.Crew
import Mathlib.Logic.Function.Basic

namespace CatalogCrawl

open World

variable {w v u : World} {id : TaskId} {n : Nat} {e : Event} {served : Served}

def Task.busyMode? : Task → Option CrawlMode
  | .crawl t =>
    match t.stage with
    | .matching _ => some t.mode
    | _ => none
  | _ => none

theorem Task.isTrait_busyMode? : IsTrait busyMode? where
  isSome t := by
    cases t with
    | crawl t => cases h : t.stage <;> simp [busyMode?, isMidCycle, h]
    | _ => rfl
  doomed _ := rfl

/-- At most one guard comes or goes, and its count with it; one that goes has been live. -/
inductive Shift (a b : Nat → Activity) (live live' : Nat → Nat) : Prop
  | still (ha : b = a) (hl : live' = live)
  | begins (k : Nat) (ha : b = Function.update a k (a k).start)
    (hl : live' = Function.update live k (live k + 1))
  | drops (k : Nat) (hk : 0 < live k) (ha : b = Function.update a k (a k).finish)
    (hl : live' = Function.update live k (live k - 1))

namespace Shift

variable {a b : Nat → Activity} {live live' : Nat → Nat}

theorem exact (h : Shift a b live live') (he : ∀ i, (a i).busy = live i) (i : Nat) :
    (b i).busy = live' i := by
  cases h with
  | still ha hl => rw [ha, hl, he]
  | begins k ha hl =>
    rw [ha, hl]
    by_cases hi : i = k
    · subst hi
      rw [Function.update_self, Function.update_self, Activity.start, he]
    · rw [Function.update_of_ne hi, Function.update_of_ne hi, he]
  | drops k hk ha hl =>
    rw [ha, hl]
    by_cases hi : i = k
    · subst hi
      rw [Function.update_self, Function.update_self, Activity.finish, he]
    · rw [Function.update_of_ne hi, Function.update_of_ne hi, he]

theorem plus (h : Shift a b live live') (others : Nat → Nat) :
    Shift a b (fun i => live i + others i) (fun i => live' i + others i) := by
  have moved (k x y : Nat) (hx : x + others k = y) :
      (fun i => Function.update live k x i + others i) =
        Function.update (fun i => live i + others i) k y := by
    funext i
    by_cases hi : i = k
    · subst hi
      rw [Function.update_self, Function.update_self, hx]
    · rw [Function.update_of_ne hi, Function.update_of_ne hi]
  cases h with
  | still ha hl => exact .still ha (by rw [hl])
  | begins k ha hl => exact .begins k ha (by rw [hl, moved k _ _ (Nat.add_right_comm _ _ _)])
  | drops k hk ha hl =>
    refine .drops k (Nat.add_pos_left hk _) ha ?_
    rw [hl, moved k _ (live k + others k - 1) (by omega)]

end Shift

namespace World

theorem activity_changeActivity {k : Nat} (hk : k < w.activities.length)
    (f : Activity → Activity) :
    (w.changeActivity k f).activity = Function.update w.activity k (f (w.activity k)) := by
  funext i
  by_cases hi : i = k
  · subst hi
    rw [Function.update_self]
    simp [activity, changeActivity, hk]
  · rw [Function.update_of_ne hi]
    simp [activity, changeActivity, Ne.symm hi]

theorem activity_addActivity (w : World) : w.addActivity.2.activity = w.activity :=
  funext (AddsCounts.one rfl).activity

def guards (w : World) (i : Nat) : Nat :=
  (w.traits Task.busyMode?).countP fun x => x.2 == .steady i

theorem guards_eq_of_perm {held : List (TaskId × CrawlMode)}
    (h : (w.traits Task.busyMode?).Perm held) :
    w.guards = fun i => held.countP fun x => x.2 == .steady i :=
  funext fun _ => h.countP_eq _

theorem guards_of_idle {t : Task} (h : w.Sound none 0 served) (hm : ⟨id, t⟩ ∈ w.jobs)
    (ht : t.busyMode? = none) : w.guards = (w.removeJob id).guards := by
  have hw := gather_of_mem (Job.trait Task.busyMode?) h hm
  rw [Job.trait, ht] at hw
  exact guards_eq_of_perm hw

theorem guards_cons {k : Nat} (h : (w.traits Task.busyMode?).Perm
      ((id, .steady k) :: (v.removeJob id).traits Task.busyMode?)) :
    w.guards = Function.update (v.removeJob id).guards k ((v.removeJob id).guards k + 1) := by
  rw [guards_eq_of_perm h]
  funext i
  rw [List.countP_cons]
  by_cases hi : i = k
  · subst hi
    rw [Function.update_self, if_pos (by simp)]
    rfl
  · rw [Function.update_of_ne hi, if_neg (by simpa using Ne.symm hi)]
    rfl

theorem round_shift {t : CrawlTask} (h : w.Sound none 0 served) (hm : ⟨id, .crawl t⟩ ∈ w.jobs)
    (hk : ∀ k, t.mode = .steady k → k < w.activities.length) (hr : t.Round w id v) :
    Shift w.activity v.activity w.guards v.guards := by
  have free (hn : ∀ item, t.stage ≠ .matching item) : w.guards = (w.removeJob id).guards := by
    refine guards_of_idle h hm ?_
    cases hs : t.stage with
    | matching item => exact absurd hs (hn item)
    | _ => simp [Task.busyMode?, hs]
  have completed (u : World) (k : Nat) (ha : t.mode = .steady k) (item : WorkItem) :
      (t.complete u id item).activity = (u.changeActivity k Activity.finish).activity ∧
        (t.complete u id item).guards = (u.removeJob id).guards := by
    refine ⟨?_, guards_eq_of_perm (.of_eq (traits_complete Task.isTrait_busyMode? ha u id item))⟩
    rw [CrawlTask.complete_eq ha]
    split <;> rfl
  cases hr with
  | rests => exact .still rfl rfl
  | ends b r hn => exact .still rfl (free hn).symm
  | again b seen hs =>
    refine .still rfl ((guards_eq_of_perm ?_).trans (free (hs.searches w).no_item).symm)
    exact .of_eq (gather_keepFirst _ (w.rung b) id _)
  | waits b ticket deadline seen hs =>
    refine .still rfl ((guards_eq_of_perm ?_).trans (free hs.no_item).symm)
    have hg := gather_keepLast (Job.trait Task.busyMode?) (w.rung b) id
      (.crawl { t with stage := .polling ticket deadline seen })
    exact .of_eq (hg.trans (List.append_nil _))
  | takes item rest b k hs hi ha =>
    refine .begins k (activity_changeActivity (hk k ha) _) ?_
    have hb : Job.trait Task.busyMode? ⟨id, .crawl { t with stage := .matching item }⟩ =
        some (id, .steady k) := congrArg (fun mode => some (id, mode)) ha
    have hg := gather_keepLast (Job.trait Task.busyMode?) (w.taken rest b k) id
      (.crawl { t with stage := .matching item })
    rw [hb] at hg
    rw [free hs.no_item]
    exact guards_cons (v := w) ((List.Perm.of_eq hg).trans List.perm_append_comm)
  | works item rest b k hs hi ha =>
    obtain ⟨hb, hg⟩ := completed (w.taken rest b k) k ha item
    refine .still ?_ (hg.trans (free hs.no_item).symm)
    have hl : k < (w.taken rest b k).activities.length := by
      simpa [taken] using hk k ha
    have ht : (w.taken rest b k).activity = Function.update w.activity k (w.activity k).start :=
      activity_changeActivity (hk k ha) _
    rw [hb, activity_changeActivity hl, ht, Function.update_self, Function.update_idem,
      Activity.finish_start, Function.update_eq_self]
  | completes item k hs ha =>
    obtain ⟨hb, hg⟩ := completed w k ha item
    have hf : Job.trait Task.busyMode? ⟨id, .crawl t⟩ = some (id, .steady k) := by
      simp [Job.trait, Task.busyMode?, hs, ha]
    have hw := gather_of_mem (Job.trait Task.busyMode?) h hm
    rw [hf] at hw
    have hc := guards_cons (v := w) hw
    have hat : w.guards k = (w.removeJob id).guards k + 1 := by rw [hc, Function.update_self]
    refine .drops k (hat ▸ Nat.succ_pos _) (hb.trans (activity_changeActivity (hk k ha) _)) ?_
    rw [hg, hat, hc, Function.update_idem, Nat.add_sub_cancel, Function.update_eq_self]

structure Enlisted (w : World) : Prop where
  counts : ∀ i (t : CrawlTask), (⟨i, .crawl t⟩ : Job) ∈ w.jobs →
    i < w.nextId ∧ ∃ k < w.activities.length, t.mode = .steady k
  known : ∀ p ∈ w.pools, ∀ i ∈ p.crawlers, i < w.nextId
  crews : ∀ p ∈ w.pools, ∀ i ∈ p.crawlers, ∀ t : CrawlTask, (⟨i, .crawl t⟩ : Job) ∈ w.jobs →
    t.mode = .steady p.activity

namespace Enlisted

theorem lt_length (h : w.Enlisted) {t : CrawlTask} (hm : ⟨id, .crawl t⟩ ∈ w.jobs) {k : Nat}
    (ht : t.mode = .steady k) : k < w.activities.length := by
  obtain ⟨-, l, hl, he⟩ := h.counts id t hm
  cases ht.symm.trans he
  exact hl

theorem onward (h : w.Enlisted) (hn : w.nextId ≤ v.nextId)
    (ha : w.activities.length ≤ v.activities.length)
    (hp : ∀ q ∈ v.pools, ∃ p ∈ w.pools, q.activity = p.activity ∧ q.crawlers ⊆ p.crawlers)
    (hj : ∀ i (t : CrawlTask), (⟨i, .crawl t⟩ : Job) ∈ v.jobs →
      ∃ s : CrawlTask, ⟨i, .crawl s⟩ ∈ w.jobs ∧ t.mode = s.mode) : v.Enlisted := by
  refine ⟨fun i t hm => ?_, fun q hq i hi => ?_, fun q hq i hi t hm => ?_⟩
  · obtain ⟨s, hs, ht⟩ := hj i t hm
    obtain ⟨hlt, k, hk, he⟩ := h.counts i s hs
    exact ⟨Nat.lt_of_lt_of_le hlt hn, k, Nat.lt_of_lt_of_le hk ha, ht.trans he⟩
  · obtain ⟨p, hm, -, hc⟩ := hp q hq
    exact Nat.lt_of_lt_of_le (h.known p hm i (hc hi)) hn
  · obtain ⟨p, hw, ha, hc⟩ := hp q hq
    obtain ⟨s, hs, ht⟩ := hj i t hm
    rw [ht, ha, h.crews p hw i (hc hi) s hs]

theorem of_jobs (h : w.Enlisted) (hn : w.nextId ≤ v.nextId)
    (ha : w.activities.length ≤ v.activities.length) (hp : v.pools = w.pools)
    (hj : ∀ i (t : CrawlTask), (⟨i, .crawl t⟩ : Job) ∈ v.jobs →
      ∃ s : CrawlTask, ⟨i, .crawl s⟩ ∈ w.jobs ∧ t.mode = s.mode) : v.Enlisted :=
  h.onward hn ha (fun q hq => ⟨q, hp ▸ hq, rfl, List.Subset.refl _⟩) hj

theorem aside (h : w.Enlisted) (hn : v.nextId = w.nextId)
    (ha : v.activities.length = w.activities.length) (hp : v.pools = w.pools)
    (hj : v.jobs = w.jobs) : v.Enlisted :=
  h.of_jobs hn.ge ha.ge hp fun _ t hm => ⟨t, hj ▸ hm, rfl⟩

theorem changePool (h : w.Enlisted) (pool : Nat) {f : Pool → Pool}
    (hf : ∀ p, (f p).activity = p.activity ∧ (f p).crawlers ⊆ p.crawlers) :
    (w.changePool pool f).Enlisted := by
  refine h.onward (Nat.le_refl _) (Nat.le_refl _) (fun q hq => ?_) fun i t hm => ⟨t, hm, rfl⟩
  obtain ⟨i, hi⟩ := List.mem_iff_getElem?.1 hq
  rw [World.changePool, List.getElem?_modify] at hi
  obtain ⟨p, hp, rfl⟩ := Option.map_eq_some_iff.1 hi
  refine ⟨p, List.mem_of_getElem? hp, ?_⟩
  split
  · exact hf p
  · exact ⟨rfl, List.Subset.refl _⟩

theorem withCrew (h : w.Enlisted) (crew : List Crawler) : (w.withCrew crew).Enlisted := by
  have hnew : ∀ i (t : CrawlTask), (⟨i, .crawl t⟩ : Job) ∈ (w.withCrew crew).jobs →
      ⟨i, .crawl t⟩ ∈ w.jobs ∨
        (w.nextId ≤ i ∧ i < w.nextId + crew.length) ∧ t.mode = .steady w.activities.length := by
    intro i t hm
    rcases mem_jobs_withCrew hm with hm | ⟨hi, c, hc⟩
    · exact .inl hm
    · cases hc
      exact .inr ⟨hi, rfl⟩
  have hlength : (w.withCrew crew).activities.length = w.activities.length + 1 := by
    simp [World.withCrew]
  refine ⟨fun i t hm => ?_, fun p hp i hi => ?_, fun p hp i hi t hm => ?_⟩
  · rw [hlength]
    rcases hnew i t hm with hm | ⟨⟨-, hi⟩, ht⟩
    · obtain ⟨hi, k, hk, ht⟩ := h.counts i t hm
      exact ⟨Nat.lt_add_right _ hi, k, Nat.lt_succ_of_lt hk, ht⟩
    · exact ⟨hi, _, Nat.lt_succ_self _, ht⟩
  · rcases List.mem_append.1 hp with hp | hp
    · exact Nat.lt_add_right _ (h.known p hp i hi)
    · rw [List.mem_singleton.1 hp] at hi
      exact (List.mem_range'_1.1 hi).2
  · rcases List.mem_append.1 hp with hp | hp
    · rcases hnew i t hm with hm | ⟨⟨hn, -⟩, -⟩
      · exact h.crews p hp i hi t hm
      · exact absurd (h.known p hp i hi) (Nat.not_lt.2 hn)
    · rw [List.mem_singleton.1 hp] at hi ⊢
      rcases hnew i t hm with hm | ⟨-, ht⟩
      · exact absurd (h.counts i t hm).1 (Nat.not_lt.2 (List.mem_range'_1.1 hi).1)
      · exact ht

theorem spawnPool (h : w.Enlisted) : w.spawnPool.Enlisted := by
  obtain ⟨journal, hs⟩ := w.spawnPool_eq
  have hc := h.withCrew (makeCrawlers w.manager)
  have hv : w.withPool journal = { w.withCrew (makeCrawlers w.manager) with
      journal := journal
      manager := (w.withPool journal).manager } := by
    simp only [withPool, World.withCrew, length_makeCrawlers]
  rw [hs, hv]
  exact hc.aside rfl rfl rfl rfl

end Enlisted

theorem Deed.enlisted (h : w.Deed id n v) (hw : w.Enlisted) : v.Enlisted := by
  cases h with
  | chore hc =>
    cases hc with
    | abort task =>
      have ha := w.abort_apart task
      obtain ⟨jobs, q, l, he, -⟩ := w.abort_eq task
      refine hw.of_jobs (w.nextId_abort task).ge (Nat.le_of_eq (by rw [he])) ha.pools
        fun i t hm => ?_
      rcases mem_jobs_abort hm with hm | ⟨s, item, -, hm, ht⟩
      · exact ⟨t, hm, rfl⟩
      · cases ht
        exact ⟨s, hm, rfl⟩
    | close pool => exact hw.changePool pool fun p => ⟨rfl, List.Subset.refl _⟩
    | bury pool => exact hw.changePool pool fun p => ⟨rfl, List.nil_subset _⟩
    | _ => exact hw.aside rfl rfl rfl rfl
  | opens => exact hw.spawnPool
  | _ => exact hw.aside rfl rfl rfl rfl

theorem Deeds.enlisted (h : Deeds id n w v) (hw : w.Enlisted) : v.Enlisted := by
  induction h with
  | refl => exact hw
  | head hd _ ih => exact ih (hd.enlisted hw)

theorem round_length {t : CrawlTask} (hr : t.Round w id v) :
    v.activities.length = w.activities.length := by
  have completed (u : World) (k : Nat) (hm : t.mode = .steady k) (item : WorkItem) :
      (t.complete u id item).activities.length = u.activities.length := by
    rw [CrawlTask.complete_eq hm]
    split <;> exact List.length_modify _ _ _
  cases hr with
  | takes => exact List.length_modify _ _ _
  | works item rest b k hs hi hm => exact (completed _ k hm item).trans (List.length_modify _ _ _)
  | completes item k hs hm => exact completed w k hm item
  | _ => rfl

theorem length_activities_react (h : w.Settled) (e : Event) :
    w.activities.length ≤ (w.react e).activities.length := by
  by_cases hc : w.isCrawling e = true
  · obtain ⟨n, hs⟩ := h.sound
    obtain ⟨id, signalFirst, t, rfl, hj⟩ := of_isCrawling hc
    obtain ⟨k, hm⟩ := hs.isSteady (mem_of_job? hj).1
    simp only [react, step, hj]
    split
    · exact (round_length (t.turn_round hm signalFirst)).ge
    · exact Nat.le_refl _
  · exact (addsCounts_react h (Bool.not_eq_true _ ▸ hc)).length_le

theorem Enlisted.react (h : w.Enlisted) (hw : w.Settled) (e : Event) : (w.react e).Enlisted := by
  obtain ⟨n, hs⟩ := hw.sound
  have ha := length_activities_react hw e
  by_cases hm : w.isManaging e = true
  · rcases of_isManaging hm with ⟨id, signalFirst, t, rfl, hj, hr⟩ | ⟨p, rfl⟩ | rfl
    · rw [hr]
      rcases t.turn_does hw.toWired (hw.proper id t (mem_of_acting? hj).2.1 nofun) with
        he | ⟨n, v, hd, he⟩
      · rw [he]
        exact h
      · refine (hd.enlisted h).of_jobs he.nextId.ge (Nat.le_of_eq (by rw [he.activities]))
          he.apart.pools fun i s hk => ?_
        rcases he.jobs _ hk with ⟨hk, -⟩ | ⟨stage, hk, -⟩
        · exact ⟨s, hk, rfl⟩
        · cases hk
    · obtain ⟨signals, hf, -⟩ := w.follow_cases p
      rw [World.react, hf]
      refine h.of_jobs (Nat.le_succ _) (Nat.le_refl _) rfl fun i t hk => ?_
      rcases List.mem_append.1 hk with hk | hk
      · exact ⟨t, hk, rfl⟩
      · cases List.mem_singleton.1 hk
    · obtain ⟨v, hv, -, hd⟩ := w.dropManager_cases
      rw [World.react, hd]
      exact ((hv.deeds 0).enlisted h).aside rfl rfl rfl rfl
  · rw [Bool.not_eq_true] at hm
    refine h.of_jobs (w.nextId_react e) ha (react_apart hs hm).pools fun i t hk => ?_
    obtain ⟨s, hj, -, ht⟩ := crawls_react hs hm hk
    exact ⟨s, hj, ht⟩

theorem react_shift (h : w.Settled) (hw : w.Enlisted) (e : Event) :
    Shift w.activity (w.react e).activity w.guards (w.react e).guards := by
  obtain ⟨n, hs⟩ := h.sound
  by_cases hc : w.isCrawling e = true
  · obtain ⟨id, signalFirst, t, rfl, hj⟩ := of_isCrawling hc
    have hm := (mem_of_job? hj).1
    obtain ⟨k, hk⟩ := hs.isSteady hm
    simp only [react, step, hj]
    split
    · exact round_shift hs hm (fun _ ht => hw.lt_length hm ht) (t.turn_round hk signalFirst)
    · exact .still rfl rfl
  · rw [Bool.not_eq_true] at hc
    exact .still (funext (addsCounts_react h hc).activity)
      (guards_eq_of_perm (traits_react Task.isTrait_busyMode? h hc))

end World

end CatalogCrawl

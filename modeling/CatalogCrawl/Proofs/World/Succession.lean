import CatalogCrawl.Proofs.World.Conservation
import CatalogCrawl.Proofs.World.Crew
import CatalogCrawl.Proofs.World.Waiting

namespace CatalogCrawl

variable {w v : World} {id : TaskId} {e : Event}

open World

namespace CrawlStage

def turnsLeft : CrawlStage → Nat
  | .polling .. => 3
  | .matching _ => 2
  | .looking => 1

def itemsLeft : CrawlStage → Nat
  | .polling .. => 1
  | .matching _ | .looking => 0

end CrawlStage

def Task.ofCrawl (f : CrawlStage → Nat) : Task → Nat
  | .crawl t => f t.stage
  | _ => 0

namespace World

def takes (id : TaskId) (w : World) : Event → Bool
  | .step (.turn i signalFirst) =>
    i == id && w.queue.taken < (w.react (.step (.turn i signalFirst))).queue.taken
  | _ => false

theorem acts_of_takes (h : w.takes id e = true) : w.acts id e = true := by
  unfold takes at h
  split at h
  · rename_i i signalFirst
    rw [Bool.and_eq_true, beq_iff_eq, decide_eq_true_eq] at h
    obtain ⟨rfl, h⟩ := h
    cases ha : w.acting? i with
    | none =>
      rw [react, step_turn_eq, ha] at h
      exact absurd h (Nat.lt_irrefl _)
    | some j => simp [acts, ha]
  · cases h

end World

namespace CrawlTask

variable {t : CrawlTask}

theorem complete_own {activity : Nat} (hm : t.mode = .steady activity) {item : WorkItem} {j : Job}
    (h : j ∈ (t.complete w id item).jobs) (hi : j.id = id) :
    j.task = .crawl { t with stage := .looking } := by
  rw [complete_eq hm] at h
  split at h
  · exact own_removeJob (P := (· = .crawl { t with stage := .looking })) j h hi
  · exact own_keepFirst (P := (· = .crawl { t with stage := .looking })) rfl j h hi

theorem Round.told (h : t.Round w id v) (ha : t.Attends w) (hr : w.Raised t.signal)
    (hready : t.isReady w = true) :
    (decide (w.queue.taken < v.queue.taken)).toNat ≤ t.stage.itemsLeft ∧
    ∀ j ∈ v.jobs, j.id = id → ∃ s : CrawlTask, j.task = .crawl s ∧ s.signal = t.signal ∧
      s.stage.turnsLeft < t.stage.turnsLeft ∧
      (decide (w.queue.taken < v.queue.taken)).toNat + s.stage.itemsLeft ≤ t.stage.itemsLeft := by
  have waited (h : t.Searches w) : ∃ seen, t.Polls seen := by
    cases hs : t.stage with
    | looking =>
      simp only [Searches, hs] at h
      simp [Raised, h] at hr
    | polling ticket deadline seen => exact ⟨seen, ticket, deadline, hs⟩
    | matching item => simp [Searches, hs] at h
  cases h with
  | rests hn => simp [hready] at hn
  | ends b r =>
    have hq : decide (w.queue.taken < ((w.rung b).finish id r).queue.taken) = false := by
      simp [rung, World.finish, removeJob]
    rw [hq]
    exact ⟨Nat.zero_le _, fun j hj hi => absurd hi (mem_jobs_removeJob.1 hj).2⟩
  | again b seen hp =>
    obtain ⟨ticket, deadline, hs⟩ := hp
    have hq : decide (w.queue.taken < ((w.rung b).keepFirst id
        (.crawl { t with stage := .looking })).queue.taken) = false := by
      simp [rung, World.keepFirst]
    rw [hq, hs]
    refine ⟨Nat.zero_le _, fun j hj hi => ?_⟩
    rcases mem_jobs_keepFirst.1 hj with rfl | ⟨-, hn⟩
    · exact ⟨_, rfl, rfl, by simp [CrawlStage.turnsLeft], by simp [CrawlStage.itemsLeft]⟩
    · exact absurd hi hn
  | waits b ticket deadline seen hs hp hn =>
    -- It would see that it has been told to end before it waits.
    rcases hp with hl | hp
    · simp only [Searches, hl] at hs
      simp [Raised, hs] at hr
    · have hv := (ha.heard seen hp).news hr
      rw [Signal.hasNews, Bool.or_eq_false_iff] at hn
      exact absurd (by simpa using hn.1) (Nat.ne_of_gt hv)
  | takes item rest b activity hs =>
    obtain ⟨seen, ticket, deadline, hp⟩ := waited hs
    rw [hp]
    refine ⟨Bool.toNat_le _, fun j hj hi => ?_⟩
    rcases mem_jobs_keepLast.1 hj with ⟨-, hn⟩ | rfl
    · exact absurd hi hn
    · exact ⟨_, rfl, rfl, by simp [CrawlStage.turnsLeft], Bool.toNat_le _⟩
  | works item rest b activity hs _ hm =>
    obtain ⟨seen, ticket, deadline, hp⟩ := waited hs
    rw [hp]
    refine ⟨Bool.toNat_le _, fun j hj hi => ?_⟩
    exact ⟨_, complete_own hm hj hi, rfl, by simp [CrawlStage.turnsLeft], Bool.toNat_le _⟩
  | completes item activity hs hm =>
    rw [taken_complete, decide_eq_false (Nat.lt_irrefl _), hs]
    refine ⟨Nat.zero_le _, fun j hj hi => ?_⟩
    exact ⟨_, complete_own hm hj hi, rfl, by simp [CrawlStage.turnsLeft], Nat.le_refl _⟩

end CrawlTask

namespace World

structure Leaving (w : World) (id : TaskId) : Prop extends w.Manned where
  issued : id < w.nextId
  told : ∀ j ∈ w.jobs, j.id = id → ∃ t : CrawlTask, j.task = .crawl t ∧ w.Raised t.signal

theorem Leaving.react_acts (h : w.Leaving id) (signalFirst : Bool) {t : CrawlTask}
    (ha : w.acting? id = some ⟨id, .crawl t⟩) :
    (w.takes id (.step (.turn id signalFirst))).toNat ≤ t.stage.itemsLeft ∧
    ∀ j ∈ (w.react (.step (.turn id signalFirst))).jobs, j.id = id →
      ∃ s : CrawlTask, j.task = .crawl s ∧ s.signal = t.signal ∧
        s.stage.turnsLeft < t.stage.turnsLeft ∧
        (w.takes id (.step (.turn id signalFirst))).toNat + s.stage.itemsLeft ≤
          t.stage.itemsLeft := by
  obtain ⟨n, hs⟩ := h.sound
  have hm := (mem_of_acting? ha).2.1
  obtain ⟨t', ht, hr⟩ := h.told _ hm rfl
  cases ht
  have htakes : w.takes id (.step (.turn id signalFirst)) =
      decide (w.queue.taken < (w.react (.step (.turn id signalFirst))).queue.taken) := by
    simp [takes]
  rw [htakes]
  exact (hs.round ha signalFirst).told (h.attends id t hm) hr (Option.filter_eq_some_iff.1 ha).2

theorem Leaving.heir (h : w.Leaving id) (e : Event) : ∀ j ∈ (w.react e).jobs, j.id = id →
    ∃ t s : CrawlTask, ⟨id, .crawl t⟩ ∈ w.jobs ∧ w.Raised t.signal ∧ j.task = .crawl s ∧
      s.signal = t.signal := by
  rintro j hj hid
  have of_mem {task : Task} (hm : ⟨id, task⟩ ∈ w.jobs) :
      ∃ t : CrawlTask, task = .crawl t ∧ w.Raised t.signal := h.told _ hm rfl
  cases ha : w.acts id e with
  | true =>
    obtain ⟨signalFirst, ⟨i, task⟩, rfl, hk⟩ := acts_iff.1 ha
    obtain ⟨-, hm, rfl⟩ := mem_of_acting? hk
    obtain ⟨t, rfl, hr⟩ := of_mem hm
    obtain ⟨s, hs, hsig, -⟩ := (h.react_acts signalFirst hk).2 j hj hid
    exact ⟨t, s, hm, hr, hs, hsig⟩
  | false =>
    rcases bystander ha h.issued j hj hid with hm | ⟨t, hm, ht⟩
    · rcases j with ⟨i, task⟩
      cases hid
      obtain ⟨t, rfl, hr⟩ := of_mem hm
      exact ⟨t, t, hm, hr, rfl, rfl⟩
    · obtain ⟨t', ht', hr⟩ := of_mem hm
      cases ht'
      exact ⟨t, _, hm, hr, ht, rfl⟩

theorem Leaving.react (h : w.Leaving id) (hd : e ≠ .dropManager) : (w.react e).Leaving id := by
  refine ⟨h.toManned.react hd, Nat.lt_of_lt_of_le h.issued (w.nextId_react e), fun j hj hid => ?_⟩
  obtain ⟨t, s, hm, hr, hs, hsig⟩ := h.heir e j hj hid
  exact ⟨s, hs, hsig ▸ (h.onward e).raised (h.attends id t hm).signal hr⟩

theorem Leaving.acts_left (h : w.Leaving id) (e : Event) : (w.acts id e).toNat +
    (w.react e).ofTask id (Task.ofCrawl CrawlStage.turnsLeft) ≤
      w.ofTask id (Task.ofCrawl CrawlStage.turnsLeft) := by
  obtain ⟨n, hs⟩ := h.sound
  refine ofTask_react hs h.issued (fun _ => rfl) (fun hq => hq) ?_
  rintro signalFirst task rfl ha
  obtain ⟨t, rfl, -⟩ := h.told _ (mem_of_acting? ha).2.1 rfl
  refine ⟨Nat.le_trans (Bool.toNat_le _) ?_, fun j hj hid => ?_⟩
  · show 0 < t.stage.turnsLeft
    cases t.stage <;> simp [CrawlStage.turnsLeft]
  · obtain ⟨s, hs, -, hlt, -⟩ := (h.react_acts signalFirst ha).2 j hj hid
    have hb := Bool.toNat_le (w.acts id (.step (.turn id signalFirst)))
    rw [hs]
    show _ + s.stage.turnsLeft ≤ t.stage.turnsLeft
    omega

theorem Leaving.takes_left (h : w.Leaving id) (e : Event) : (w.takes id e).toNat +
    (w.react e).ofTask id (Task.ofCrawl CrawlStage.itemsLeft) ≤
      w.ofTask id (Task.ofCrawl CrawlStage.itemsLeft) := by
  obtain ⟨n, hs⟩ := h.sound
  refine ofTask_react hs h.issued (fun _ => rfl) (fun hq => ?_) ?_
  · rw [← Bool.not_eq_true]
    intro hx
    simp [acts_of_takes hx] at hq
  · rintro signalFirst task rfl ha
    obtain ⟨t, rfl, -⟩ := h.told _ (mem_of_acting? ha).2.1 rfl
    obtain ⟨htakes, hnext⟩ := h.react_acts signalFirst ha
    refine ⟨htakes, fun j hj hid => ?_⟩
    obtain ⟨s, hs, -, -, hle⟩ := hnext j hj hid
    rw [hs]
    exact hle

theorem Leaving.ends (h : w.Leaving id) {later : List Event} (hd : .dropManager ∉ later) :
    (w.play later).Leaving id ∧
    w.times (takes id) later ≤ w.ofTask id (Task.ofCrawl CrawlStage.itemsLeft) ∧
    w.times (acts id) later +
      (w.play later).ofTask id (Task.ofCrawl CrawlStage.turnsLeft) ≤
        w.ofTask id (Task.ofCrawl CrawlStage.turnsLeft) := by
  have hne : ∀ e ∈ later, e ≠ .dropManager := fun e he hx => hd (hx ▸ he)
  obtain ⟨hl, ht⟩ := times_add_le (takes id) (Leaving · id)
    (ofTask · id (Task.ofCrawl CrawlStage.itemsLeft))
    (fun w e (he : e ∈ later) h => ⟨h.react (hne e he), h.takes_left e⟩) h
  obtain ⟨-, ha⟩ := times_add_le (acts id) (Leaving · id)
    (ofTask · id (Task.ofCrawl CrawlStage.turnsLeft))
    (fun w e (he : e ∈ later) h => ⟨h.react (hne e he), h.acts_left e⟩) h
  exact ⟨hl, Nat.le_trans (Nat.le_add_right _ _) ht, ha⟩

theorem Leaving.isReady (h : w.Leaving id) {t : CrawlTask} (hm : ⟨id, .crawl t⟩ ∈ w.jobs) :
    t.isReady w = true ∨ (∃ item, t.stage = .matching item) ∧ w.isGated = true := by
  obtain ⟨t', ht, hr⟩ := h.told _ hm rfl
  cases ht
  unfold CrawlTask.isReady
  cases hs : t.stage with
  | looking => exact .inl rfl
  | polling ticket deadline seen =>
    have hv := ((h.attends id t hm).heard seen ⟨ticket, deadline, hs⟩).hasNews hr
    exact .inl (by simp [hv])
  | matching item =>
    cases hg : w.isGated with
    | true => exact .inr ⟨⟨item, rfl⟩, rfl⟩
    | false => exact .inl rfl

section Calls

variable {t : ManagerTask} {n : Nat}

theorem Deed.ended (h : w.Deed id n v) : v.ended = w.ended := by
  cases h with
  | chore hc =>
    cases hc with
    | abort task =>
      obtain ⟨jobs, q, l, ha, -⟩ := w.abort_eq task
      rw [ha]
    | _ => rfl
  | opens =>
    obtain ⟨journal, hs⟩ := w.spawnPool_eq
    rw [hs]
    rfl
  | _ => rfl

theorem Deeds.ended (h : Deeds id n w v) : v.ended = w.ended := by
  induction h with
  | refl => rfl
  | head hd _ ih => exact ih.trans hd.ended

/-- Whether a call to the manager comes back in its turn and says that a pool was put up. -/
def putsUp (w : World) : Event → Bool
  | .step (.turn id signalFirst) =>
    match w.acting? id with
    | some ⟨_, .manage t⟩ => (w.outcome? (.step (.turn id signalFirst))).any t.opens
    | _ => false
  | _ => false

theorem Deed.crawlers (h : w.Deed id n v) : w.nextId ≤ v.nextId ∧
    ∀ i s, (⟨i, .crawl s⟩ : Job) ∈ v.jobs →
      (∃ r, (⟨i, .crawl r⟩ : Job) ∈ w.jobs) ∨ w.nextId ≤ i := by
  constructor
  · cases h with
    | chore hc =>
      cases hc with
      | abort task => exact (w.nextId_abort task).ge
      | _ => exact Nat.le_refl _
    | opens =>
      obtain ⟨journal, hs⟩ := w.spawnPool_eq
      rw [hs]
      exact Nat.le_add_right _ _
    | _ => exact Nat.le_refl _
  · intro i s hm
    rcases h.jobs _ hm with hm | ⟨r, hm, -⟩ | ⟨-, c, -, hi⟩
    · exact .inl ⟨s, hm⟩
    · exact .inl ⟨r, hm⟩
    · exact .inr (List.mem_range'_1.1 hi).1

theorem Deeds.crawlers (h : Deeds id n w v) {i : TaskId} {s : CrawlTask}
    (hm : (⟨i, .crawl s⟩ : Job) ∈ v.jobs) :
    (∃ r, (⟨i, .crawl r⟩ : Job) ∈ w.jobs) ∨ w.nextId ≤ i := by
  induction h with
  | refl => exact .inl ⟨s, hm⟩
  | head hd _ ih =>
    obtain ⟨hn, hold⟩ := hd.crawlers
    rcases ih hm with ⟨r, hr⟩ | hi
    · exact hold i r hr
    · exact .inr (Nat.le_trans hn hi)

theorem of_putsUp (h : w.putsUp e = true) : ∃ id signalFirst t,
    e = .step (.turn id signalFirst) ∧ w.acting? id = some ⟨id, .manage t⟩ ∧
      (w.outcome? e).any t.opens = true := by
  unfold putsUp at h
  split at h
  · rename_i id signalFirst
    split at h
    · rename_i i t ha
      obtain ⟨-, -, rfl⟩ := mem_of_acting? ha
      exact ⟨i, signalFirst, t, rfl, ha, h⟩
    · cases h
  · cases h

theorem putUp_react (h : w.Settled) (hp : w.putsUp e = true) :
    ∃ p, (w.react e).pool? = some p ∧ (w.react e).PutUp p := by
  obtain ⟨id, signalFirst, t, rfl, ha, ho⟩ := of_putsUp hp
  obtain ⟨k, hs⟩ := h.sound
  have hm := (mem_of_acting? ha).2.1
  have hr : w.react (.step (.turn id signalFirst)) = t.turn w id := react_of_acts ha
  rcases t.turn_does h.toWired (h.proper id t hm nofun) with he | ⟨n, v, hd, he⟩
  · rw [outcome?_of_eq (by rw [hr, he])] at ho
    cases ho
  · rw [hr]
    generalize hu : t.turn w id = u at he hr
    cases he with
    | stays =>
      rw [outcome?_of_eq (by rw [hr]; exact hd.ended)] at ho
      cases ho
    | leaves =>
      rw [outcome?_of_eq (by rw [hr]; exact hd.ended)] at ho
      cases ho
    | returns r hopens =>
      rw [outcome?_of_cons (x := ⟨id, v.now, r⟩) (by rw [hr, ← hd.ended]; rfl)] at ho
      obtain ⟨p, hpool, hput⟩ := hopens ho
      refine ⟨p, hpool, hput.state, hput.untold, hput.size, hput.distinct, fun i hi => ?_⟩
      obtain ⟨c, hc⟩ := hput.crawlers i hi
      refine ⟨c, mem_jobs_removeJob.2 ⟨hc, ?_⟩⟩
      -- The call itself is an older task and no crawler.
      rintro rfl
      rcases hd.crawlers hc with ⟨s, hold⟩ | hnew
      · cases hs.eq_of_mem hm hold rfl
      · exact Nat.not_lt.2 hnew (hs.lt_nextId hm)

theorem built_react (h : w.Settled) (e : Event) : (w.react e).manager.built =
    w.manager.built + (w.putsUp e).toNat * w.manager.crawlerCount := by
  by_cases hm : w.isManaging e = true
  · rcases of_isManaging hm with ⟨id, signalFirst, t, rfl, ha, hr⟩ | ⟨p, rfl⟩ | rfl
    · have hp : w.putsUp (.step (.turn id signalFirst)) =
          (w.outcome? (.step (.turn id signalFirst))).any t.opens := by
        simp only [putsUp, ha]
      rw [hp]
      have hj := (mem_of_acting? ha).2.1
      rcases t.turn_does h.toWired (h.proper id t hj nofun) with he | ⟨n, v, hd, he⟩
      · rw [outcome?_of_eq (by rw [hr, he]), hr, he]
        simp
      · have hb := hd.built
        have hn : (w.react (.step (.turn id signalFirst))).manager.built = v.manager.built := by
          rw [hr, he.apart.manager]
        rw [hn, hb]
        generalize hu : t.turn w id = u at he hr
        cases he with
        | stays => rw [outcome?_of_eq (by rw [hr]; exact hd.ended)]; rfl
        | leaves => rw [outcome?_of_eq (by rw [hr]; exact hd.ended)]; rfl
        | returns r _ =>
          rw [outcome?_of_cons (x := ⟨id, v.now, r⟩)]
          · rfl
          · rw [hr, ← hd.ended]
            rfl
    · obtain ⟨signals, hf, -⟩ := w.follow_cases p
      rw [react, hf]
      simp [putsUp]
    · obtain ⟨v, -, -, hd⟩ := w.dropManager_cases
      rw [react, hd]
      simp [putsUp]
  · rw [Bool.not_eq_true] at hm
    obtain ⟨n, hs⟩ := h.sound
    have hn : w.putsUp e = false := by
      unfold putsUp
      split
      · split
        · rename_i ha
          simp [isManaging, ha, Task.isManage] at hm
        · rfl
      · rfl
    rw [(react_apart hs hm).manager, hn]
    simp

theorem built_play (h : w.Settled) (events : List Event) :
    (w.play events).manager.built =
      w.manager.built + w.times putsUp events * w.manager.crawlerCount ∧
    (w.play events).manager.crawlerCount = w.manager.crawlerCount := by
  induction events generalizing w with
  | nil => simp [times]
  | cons e rest ih =>
    obtain ⟨hb, hc⟩ := ih (h.react e)
    have hk := (h.onward e).crawlerCount
    refine ⟨?_, hc.trans hk⟩
    show ((w.react e).play rest).manager.built = _
    rw [hb, built_react h, hk, times, Nat.add_mul, Nat.add_assoc]

structure Untouched (w v : World) : Prop where
  pools : v.pools = w.pools
  manager : v.manager = { w.manager with slot := v.manager.slot }
  jobs : ∀ j ∈ v.jobs, j ∈ w.jobs

theorem start_answer (w : World) (id : TaskId) (stage : ManagerStage) :
    let v := ManagerTask.decideSlot w id ⟨.start, stage⟩
    (∃ p, w.pool? = some p ∧ w.Untouched v ∧
      v.ended = ⟨id, w.now, .managed (.error (.invalidState "start" p.state.name))⟩ :: w.ended) ∨
    w.pool? = none ∧ v.ended = ⟨id, w.now, .managed (.ok ())⟩ :: w.ended := by
  unfold ManagerTask.decideSlot
  simp only
  rw [show (w.manager.pool >>= (w.pools[·]?)) = w.pool? from rfl]
  cases hp : w.pool? with
  | some p =>
    exact .inl ⟨p, rfl, ⟨rfl, rfl, fun j hj => (mem_jobs_removeJob.1 hj).1⟩, rfl⟩
  | none =>
    refine .inr ⟨rfl, ?_⟩
    obtain ⟨journal, hs⟩ := w.spawnPool_eq
    rw [hs]
    rfl

theorem start_answers (h : w.Settled) {stage : ManagerStage} {signalFirst : Bool}
    {r : TaskResult} (ha : w.acting? id = some ⟨id, .manage ⟨.start, stage⟩⟩)
    (hr : w.outcome? (.step (.turn id signalFirst)) = some r) :
    (∃ p, w.pool? = some p ∧ r = .managed (.error (.invalidState "start" p.state.name)) ∧
      w.Untouched (w.react (.step (.turn id signalFirst)))) ∨
    w.pool? = none ∧ r = .managed (.ok ()) := by
  have hturn : w.react (.step (.turn id signalFirst)) =
      ManagerTask.turn w id ⟨.start, stage⟩ := react_of_acts ha
  have answered (v : World) (hp : v.pool? = w.pool?) (hu : ∀ x : World, v.Untouched x → w.Untouched x)
      (he : v.ended = w.ended)
      (hv : w.react (.step (.turn id signalFirst)) = ManagerTask.decideSlot v id ⟨.start, stage⟩) :
      (∃ p, w.pool? = some p ∧ r = .managed (.error (.invalidState "start" p.state.name)) ∧
        w.Untouched (w.react (.step (.turn id signalFirst)))) ∨
      w.pool? = none ∧ r = .managed (.ok ()) := by
    rcases start_answer v id stage with ⟨p, hk, hx, hy⟩ | ⟨hk, hy⟩
    · rw [he, ← hv] at hy
      rw [outcome?_of_cons hy] at hr
      cases hr
      exact .inl ⟨p, hp ▸ hk, rfl, hv ▸ hu _ hx⟩
    · rw [he, ← hv] at hy
      rw [outcome?_of_cons hy] at hr
      cases hr
      exact .inr ⟨hp ▸ hk, rfl⟩
  have idle (hv : (w.react (.step (.turn id signalFirst))).ended = w.ended) : False := by
    rw [outcome?_of_eq hv] at hr
    cases hr
  have hproper := h.proper id _ (mem_of_acting? ha).2.1 nofun
  cases stage with
  | entering =>
    by_cases hh : (w.enterSlot id).manager.slot.heldBy id = true
    · refine answered (w.enterSlot id) rfl (fun x hx => ⟨hx.pools, hx.manager, hx.jobs⟩) rfl ?_
      rw [hturn]
      exact if_pos hh
    · refine (idle ?_).elim
      rw [hturn]
      simp only [ManagerTask.turn, ManagerTask.enter, ManagerTask.askSlot, if_neg hh]
      rfl
  | planEnding plan deadline => cases hproper
  | slotWanted =>
    by_cases hh : w.manager.slot.heldBy id = true
    · refine answered w rfl (fun x hx => hx) rfl ?_
      rw [hturn]
      exact if_pos hh
    · refine (idle ?_).elim
      rw [hturn]
      simp only [ManagerTask.turn, if_neg hh]
  | crawlersEnding j => exact absurd rfl hproper.2.call
  | idleWanted activity deadline => exact (idle (by rw [hturn]; rfl)).elim

end Calls

/-- Whether a task is a crawler that has not been told to end. -/
def isUntold (w : World) (j : Job) : Bool :=
  match j.task with
  | .crawl t => !(w.signal t.signal).raised
  | _ => false

theorem Manned.employs (h : w.Manned) {t : CrawlTask} (hm : ⟨id, .crawl t⟩ ∈ w.jobs) :
    w.Employs id ∨ w.Raised t.signal := by
  refine (h.crew id t hm).imp_left ?_
  rintro ⟨k, p, hk, hp, hi, -⟩
  exact ⟨k, p, hk, hp, hi⟩

theorem Manned.untold (h : w.Manned) : w.jobs.countP w.isUntold ≤ w.manager.crawlerCount := by
  obtain ⟨n, hs⟩ := h.sound
  have hd := hs.distinct
  rw [others_none] at hd
  have untold : ∀ j ∈ w.jobs.filter w.isUntold, w.Employs j.id := by
    intro j hj
    obtain ⟨hm, hu⟩ := List.mem_filter.1 hj
    rcases j with ⟨i, task⟩
    cases task with
    | crawl t =>
      refine (h.employs hm).resolve_right fun hr => ?_
      simp [isUntold, show (w.signal t.signal).raised = true from hr] at hu
    | _ => cases hu
  rw [List.countP_eq_length_filter]
  cases hk : w.manager.pool with
  | none =>
    have hn : w.jobs.filter w.isUntold = [] := by
      refine List.eq_nil_iff_forall_not_mem.2 fun j hj => ?_
      obtain ⟨k, p, hk', -⟩ := untold j hj
      cases hk.symm.trans hk'
    rw [hn]
    exact Nat.zero_le _
  | some k =>
    obtain ⟨p, hp⟩ : ∃ p, w.pools[k]? = some p :=
      ⟨_, List.getElem?_eq_getElem (h.slot k hk)⟩
    have hsub : (w.jobs.filter w.isUntold).map Job.id ⊆ p.crawlers := by
      intro i hi
      obtain ⟨j, hj, rfl⟩ := List.mem_map.1 hi
      obtain ⟨k', p', hk', hp', hc⟩ := untold j hj
      cases hk.symm.trans hk'
      cases hp.symm.trans hp'
      exact hc
    have hnd : ((w.jobs.filter w.isUntold).map Job.id).Nodup :=
      hd.sublist (List.filter_sublist.map Job.id)
    have hl := (hnd.subperm hsub).length_le
    rw [List.length_map] at hl
    exact Nat.le_trans hl (h.size p (List.mem_of_getElem? hp))

/-- Pools succeed one another, and whatever the calls that start, restart and stop them and however
their turns and those of the crawlers follow one another: every crawler is one of the pool in the
slot or has been told to end, so that no more are left to themselves than a pool has; one that was
told takes at most one more item, and has ended after three turns, for which only its adapters can
keep it waiting; a call that is to start a pool fails if and only if there is one in the slot, and
then changes nothing; and as many crawlers have been made as a pool has, for every call that said it
put one up. -/
theorem succession (s : Setup) (events later : List Event) (h : .dropManager ∉ events ++ later) :
    let count := Manager.clampCount s.partition.crawlerCount
    let w := s.world.play events
    let v := w.play later
    (∀ id t, ⟨id, .crawl t⟩ ∈ w.jobs → w.Employs id ∨ w.Raised t.signal) ∧
    w.jobs.countP w.isUntold ≤ count ∧
    (∀ id t, ⟨id, .crawl t⟩ ∈ w.jobs → w.Raised t.signal →
      w.times (takes id) later ≤ 1 ∧ w.times (acts id) later ≤ 3 ∧
      (w.times (acts id) later = 3 → v.isLive id = false) ∧
      ∀ u, ⟨id, .crawl u⟩ ∈ v.jobs →
        u.isReady v = true ∨ (∃ item, u.stage = .matching item) ∧ v.isGated = true) ∧
    (∀ id stage signalFirst r, w.acting? id = some ⟨id, .manage ⟨.start, stage⟩⟩ →
      w.outcome? (.step (.turn id signalFirst)) = some r →
      (∃ p, w.pool? = some p ∧ r = .managed (.error (.invalidState "start" p.state.name)) ∧
        w.Untouched (w.react (.step (.turn id signalFirst)))) ∨
      w.pool? = none ∧ r = .managed (.ok ())) ∧
    (∀ e, w.putsUp e = true → ∃ p, (w.react e).pool? = some p ∧ (w.react e).PutUp p ∧
      p.crawlers.length = count) ∧
    (∀ e, (w.react e).manager.built = w.manager.built + (w.putsUp e).toNat * count) ∧
    w.manager.built = count * s.world.times putsUp events := by
  intro count w v
  rw [List.mem_append, not_or] at h
  have hw : w.Manned := play_manned s h.1
  have hcount : s.world.manager.crawlerCount = count := (setup_fresh s).2.2.2.2.2.2
  obtain ⟨hbuilt, hkept⟩ := built_play (setup_settled s) events
  have hsize : w.manager.crawlerCount = count := hkept.trans hcount
  refine ⟨fun id t hm => hw.employs hm, ?_, fun id t hm hr => ?_, ?_, fun e hp => ?_,
    fun e => ?_, ?_⟩
  · exact hsize ▸ hw.untold
  · obtain ⟨n, hs⟩ := hw.sound
    have hi : id < w.nextId := hs.lt_nextId hm
    have hl : w.Leaving id := by
      refine ⟨hw, hi, fun j hj he => ?_⟩
      rw [hs.eq_of_mem hm hj he]
      exact ⟨t, rfl, hr⟩
    obtain ⟨hv, htakes, hacts⟩ := hl.ends h.2
    rw [ofTask_of_mem hs hm] at htakes hacts
    simp only [Task.ofCrawl] at htakes hacts
    have hitems : t.stage.itemsLeft ≤ 1 := by cases t.stage <;> simp [CrawlStage.itemsLeft]
    have hturns : t.stage.turnsLeft ≤ 3 := by cases t.stage <;> simp [CrawlStage.turnsLeft]
    refine ⟨Nat.le_trans htakes hitems, by omega, fun h3 => ?_, fun u hu => hv.isReady hu⟩
    rw [← Bool.not_eq_true]
    intro hlive
    obtain ⟨j, hj, he⟩ := List.any_eq_true.1 hlive
    obtain ⟨u, hu, -⟩ := hv.told j hj (by simpa using he)
    rcases j with ⟨i, task⟩
    simp only [beq_iff_eq] at he hu
    subst he hu
    obtain ⟨m, hs'⟩ := hv.sound
    have hpos : 0 < u.stage.turnsLeft := by cases u.stage <;> simp [CrawlStage.turnsLeft]
    rw [ofTask_of_mem hs' hj, Task.ofCrawl] at hacts
    omega
  · intro id stage signalFirst r ha hr
    exact start_answers hw.toSettled ha hr
  · obtain ⟨p, hpool, hput⟩ := putUp_react hw.toSettled hp
    refine ⟨p, hpool, hput, ?_⟩
    rw [hput.size, (hw.toSettled.onward e).crawlerCount, hsize]
  · rw [built_react hw.toSettled, hsize]
  · have hzero : s.world.manager.built = 0 := (setup_fresh s).2.2.2.2.1
    rw [hbuilt, hzero, hcount, Nat.zero_add, Nat.mul_comm]

end World

namespace Setup

def pair : Setup := { Account.lone with
  partition := { PartitionConfig.standard with crawlerCount := 2 } }

def turnover : List Event :=
  [.launch (.manage ⟨.start, .entering⟩), .step (.turn 0 true), .step (.turn 1 true),
    .step (.turn 2 true), .launch (.manage ⟨.stop, .entering⟩), .step (.turn 3 true),
    .offer Account.unserved]

def lastLap : List Event := [.step (.turn 1 false), .step (.turn 1 false)]

theorem succession_turnover :
    let w := pair.world.play turnover
    let start : World := pair.world.play (turnover.take 1)
    .dropManager ∉ turnover ++ lastLap ∧
    (∃ t, ⟨1, .crawl t⟩ ∈ w.jobs ∧ w.Raised t.signal) ∧
    w.times (takes 1) lastLap = 1 ∧ w.times (takes 1) lastLap ≤ 1 ∧
    (w.play lastLap).isLive 1 = false ∧
    start.putsUp (.step (.turn 0 true)) = true ∧
    (∃ p, (start.react (.step (.turn 0 true))).pool? = some p ∧ p.crawlers.length = 2) ∧
    pair.world.times putsUp turnover = 1 ∧ w.manager.built = 2 := by
  intro w start
  have h : .dropManager ∉ turnover ++ lastLap := by simp [turnover, lastLap]
  have hstart : .dropManager ∉ turnover.take 1 ++ [] := by simp [turnover]
  obtain ⟨t, hj, hr⟩ : ∃ t, w.job? 1 = some ⟨1, .crawl t⟩ ∧ w.Raised t.signal := ⟨_, rfl, rfl⟩
  have hm := (mem_of_job? hj).1
  have hopens : start.putsUp (.step (.turn 0 true)) = true := by decide
  have honce : pair.world.times putsUp turnover = 1 := by decide
  obtain ⟨-, -, hlast, -, -, -, hbuilt⟩ := succession pair turnover lastLap h
  obtain ⟨-, -, -, -, hput, -⟩ := succession pair (turnover.take 1) [] hstart
  obtain ⟨p, hpool, -, hsize⟩ := hput _ hopens
  rw [honce] at hbuilt
  exact ⟨h, ⟨t, hm, hr⟩, by decide, (hlast 1 t hm hr).1, by decide, hopens, ⟨p, hpool, hsize⟩,
    honce, hbuilt⟩

end Setup

end CatalogCrawl

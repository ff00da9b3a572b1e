import CatalogCrawl.Proofs.World.Agreement
import CatalogCrawl.Proofs.World.Guards
import CatalogCrawl.Proofs.World.Succession

namespace CatalogCrawl

open World

variable {w v : World} {id : TaskId} {e : Event} {i a d : Nat} {p : Plan} {stage : ManagerStage}

theorem World.isReady_of_acting? {j : Job} (h : w.acting? id = some j) :
    j.task.isReady w id = true := by
  obtain ⟨-, -, rfl⟩ := mem_of_acting? h
  exact (Option.filter_eq_some_iff.1 h).2

/-- A world, and the guards that are held from outside: of each the count that it is of. -/
structure Ward where
  world : World
  held : List Nat

inductive Move
  | event (e : Event)
  | crew (crew : List Crawler)
  | count
  | take (i : Nat)
  | drop (i : Nat)

namespace Ward

variable {c : Ward}

def opened (s : Setup) : Ward := ⟨s.world, []⟩

def live (c : Ward) (i : Nat) : Nat := c.world.guards i + c.held.count i

def move (c : Ward) : Move → Ward
  | .event e => { c with world := c.world.react e }
  | .crew crew => { c with world := c.world.withCrew crew }
  | .count => { c with world := c.world.addActivity.2 }
  | .take i =>
    if i < c.world.activities.length then
      ⟨c.world.changeActivity i Activity.start, i :: c.held⟩
    else c
  | .drop i =>
    if i ∈ c.held then ⟨c.world.changeActivity i Activity.finish, c.held.erase i⟩ else c

def run (c : Ward) (moves : List Move) : Ward := moves.foldl move c

structure Kept (c : Ward) : Prop where
  settled : c.world.Settled
  enlisted : c.world.Enlisted
  held : ∀ i ∈ c.held, i < c.world.activities.length
  exact : ∀ i, (c.world.activity i).busy = c.live i

theorem opened_kept (s : Setup) : (opened s).Kept := by
  obtain ⟨hj, hp, -⟩ := setup_fresh s
  have ha : s.world.activities = [] := by
    simp only [Setup.world, withManager]
    split <;> rfl
  refine ⟨setup_settled s, ⟨?_, ?_, ?_⟩, List.forall_mem_nil _, fun i => ?_⟩
  · simp [opened, hj]
  · simp [opened, hp]
  · simp [opened, hp]
  · simp [opened, live, guards, traits, gather, hj, activity, ha, Activity.idle]

theorem guards_withCrew (w : World) (crew : List Crawler) : (w.withCrew crew).guards = w.guards := by
  refine guards_eq_of_perm (.of_eq ?_)
  have hn : (crew.mapIdx fun i c => (⟨w.nextId + i,
      crawlTask ⟨.created, w.signals.length, w.activities.length, []⟩ c⟩ : Job)).filterMap
        (Job.trait Task.busyMode?) = [] := by
    rw [List.filterMap_eq_nil_iff]
    intro j hj
    obtain ⟨k, hk, rfl⟩ := List.mem_mapIdx.1 hj
    rfl
  rw [traits, gather, withCrew, List.filterMap_append, hn, List.append_nil]
  rfl

theorem Kept.shift (h : c.Kept) (m : Move) :
    Shift c.world.activity (c.move m).world.activity c.live (c.move m).live := by
  cases m with
  | event e => exact (react_shift h.settled h.enlisted e).plus fun i => c.held.count i
  | crew crew =>
    refine .still (funext (AddsCounts.one rfl).activity) (funext fun i => ?_)
    exact congrArg (fun g : Nat → Nat => g i + c.held.count i) (guards_withCrew c.world crew)
  | count => exact .still (activity_addActivity c.world) rfl
  | take i =>
    simp only [move]
    split
    · rename_i hi
      refine .begins i (activity_changeActivity hi _) (funext fun k => ?_)
      by_cases hk : k = i
      · subst hk
        rw [Function.update_self, live, List.count_cons_self]
        rfl
      · rw [Function.update_of_ne hk, live, List.count_cons_of_ne (Ne.symm hk)]
        rfl
    · exact .still rfl rfl
  | drop i =>
    simp only [move]
    split
    · rename_i hi
      have hc := List.count_pos_iff.2 hi
      refine .drops i (Nat.add_pos_right _ hc) (activity_changeActivity (h.held i hi) _)
        (funext fun k => ?_)
      by_cases hk : k = i
      · subst hk
        rw [Function.update_self, live, List.count_erase_self]
        exact (Nat.add_sub_assoc hc _).symm
      · rw [Function.update_of_ne hk, live, List.count_erase_of_ne hk]
        rfl
    · exact .still rfl rfl

theorem Kept.recount (h : c.Kept) {counts : List Activity} {held : List Nat}
    (hl : c.world.activities.length ≤ counts.length) (hh : ∀ i ∈ held, i < counts.length)
    (he : ∀ i, (activity { c.world with activities := counts } i).busy =
      live ⟨{ c.world with activities := counts }, held⟩ i) :
    Kept ⟨{ c.world with activities := counts }, held⟩ := by
  obtain ⟨n, hs⟩ := h.settled.sound
  refine ⟨h.settled.aside (.of_eq rfl rfl rfl) rfl rfl rfl ⟨n, ?_⟩, ?_, hh, he⟩
  · exact hs.pass rfl rfl rfl rfl rfl rfl rfl rfl
  · exact h.enlisted.of_jobs (Nat.le_refl _) hl rfl fun _ t hm => ⟨t, hm, rfl⟩

theorem Kept.move (h : c.Kept) (m : Move) : (c.move m).Kept := by
  have he := (h.shift m).exact h.exact
  cases m with
  | event e =>
    have hl := length_activities_react h.settled e
    exact ⟨h.settled.react e, h.enlisted.react h.settled e,
      fun i hi => Nat.lt_of_lt_of_le (h.held i hi) hl, he⟩
  | crew crew =>
    have hl : c.world.AddsCounts (c.world.withCrew crew) := .one rfl
    exact ⟨h.settled.withCrew crew, h.enlisted.withCrew crew,
      fun i hi => Nat.lt_of_lt_of_le (h.held i hi) hl.length_le, he⟩
  | count =>
    have hl : c.world.AddsCounts c.world.addActivity.2 := .one rfl
    exact h.recount hl.length_le (fun i hi => Nat.lt_of_lt_of_le (h.held i hi) hl.length_le) he
  | take i =>
    simp only [Ward.move] at he ⊢
    split
    · rename_i hi
      rw [if_pos hi] at he
      have hl := List.length_modify Activity.start c.world.activities i
      exact h.recount hl.ge (hl.symm ▸ List.forall_mem_cons.2 ⟨hi, h.held⟩) he
    · exact h
  | drop i =>
    simp only [Ward.move] at he ⊢
    split
    · rename_i hi
      rw [if_pos hi] at he
      have hl := List.length_modify Activity.finish c.world.activities i
      exact h.recount hl.ge (fun k hk => hl.symm ▸ h.held k (List.mem_of_mem_erase hk)) he
    · exact h

theorem Kept.run (h : c.Kept) (moves : List Move) : (c.run moves).Kept := by
  induction moves generalizing c with
  | nil => exact h
  | cons m rest ih => exact ih (h.move m)

theorem Kept.isIdle (h : c.Kept) (i : Nat) : (c.world.activity i).isIdle = true ↔ c.live i = 0 := by
  rw [Activity.isIdle, beq_iff_eq, h.exact]

theorem Kept.at_rest (h : c.Kept) {a : Nat} (hl : c.live a = 0) :
    ∀ pool ∈ c.world.pools, pool.activity = a → ∀ j ∈ c.world.jobs, j.id ∈ pool.crawlers →
      j.task.isMidCycle = false := by
  rintro pool hp rfl ⟨i, task⟩ hj hi
  cases task with
  | crawl t =>
    cases hs : t.stage with
    | matching item =>
      -- Its guard would be live.
      have hm := h.enlisted.crews pool hp i hi t hj
      have hg : (i, CrawlMode.steady pool.activity) ∈ c.world.traits Task.busyMode? := by
        refine List.mem_filterMap.2 ⟨_, hj, ?_⟩
        simp [Job.trait, Task.busyMode?, hs, hm]
      have hc : 0 < c.world.guards pool.activity := List.countP_pos_iff.2 ⟨_, hg, by simp⟩
      exact absurd (Nat.eq_zero_of_add_eq_zero hl).1 (Nat.ne_of_gt hc)
    | _ => simp [Task.isMidCycle, hs]
  | _ => rfl

section Waits

def Waits (c : Ward) (id : TaskId) (i deadline : Nat) : Prop :=
  id < c.world.nextId ∧ ∀ j ∈ c.world.jobs, j.id = id → j = ⟨id, .awaitIdle i deadline⟩

theorem idleTurn_own (w : World) (id : TaskId) (i deadline : Nat)
    (h : (Task.awaitIdle i deadline).isReady w id = true) :
    ∀ j ∈ (w.idleTurn id i deadline).jobs, j.id ≠ id := by
  intro j hj
  unfold idleTurn at hj
  split at hj
  · exact (mem_jobs_removeJob.1 hj).2
  · split at hj
    · exact (mem_jobs_removeJob.1 hj).2
    · rename_i hi hd
      simp [Task.isReady, hi, hd] at h

theorem Waits.move {deadline : Nat} (h : c.Waits id i deadline) (m : Move) :
    (c.move m).Waits id i deadline := by
  obtain ⟨hi, hj⟩ := h
  cases m with
  | event e =>
    refine ⟨Nat.lt_of_lt_of_le hi (c.world.nextId_react e), fun j hk hid => ?_⟩
    cases ha : c.world.acts id e with
    | true =>
      obtain ⟨signalFirst, k, rfl, hact⟩ := acts_iff.1 ha
      obtain ⟨-, hm, he⟩ := mem_of_acting? hact
      obtain rfl := hj k hm he
      have hr : c.world.react (.step (.turn id signalFirst)) = c.world.idleTurn id i deadline :=
        react_of_acts hact
      rw [Ward.move, hr] at hk
      exact absurd hid (idleTurn_own _ _ _ _ (isReady_of_acting? hact) j hk)
    | false =>
      rcases bystander ha hi j hk hid with hm | ⟨t, hm, -⟩
      · exact hj j hm hid
      · cases hj _ hm rfl
  | crew crew =>
    refine ⟨Nat.lt_add_right _ hi, fun j hk hid => ?_⟩
    rcases mem_jobs_withCrew hk with hk | ⟨⟨hn, -⟩, -⟩
    · exact hj j hk hid
    · exact absurd hi (Nat.not_lt.2 (hid ▸ hn))
  | count => exact ⟨hi, hj⟩
  | take k =>
    simp only [Ward.move]
    split <;> exact ⟨hi, hj⟩
  | drop k =>
    simp only [Ward.move]
    split <;> exact ⟨hi, hj⟩

theorem Waits.run {deadline : Nat} (h : c.Waits id i deadline) (moves : List Move) :
    (c.run moves).Waits id i deadline := by
  induction moves generalizing c with
  | nil => exact h
  | cons m rest ih => exact ih (h.move m)

theorem Kept.launch (h : c.Kept) (i deadline : Nat) :
    (c.move (.event (.launch (.awaitIdle i deadline)))).Waits c.world.nextId i deadline := by
  obtain ⟨n, hs⟩ := h.settled.sound
  refine ⟨Nat.lt_succ_self _, fun j hj hid => ?_⟩
  rcases List.mem_append.1 hj with hj | hj
  · exact absurd hid (Nat.ne_of_lt (hs.issued j (by rwa [others_none])))
  · exact List.mem_singleton.1 hj

theorem Waits.comes_back {deadline : Nat} (h : c.Waits id i deadline) (hk : c.Kept)
    (ha : c.world.acts id e = true) :
    ∃ b, c.world.outcome? e = some (.flag b) ∧ (b = true ↔ c.live i = 0) ∧
      (b = false → deadline ≤ c.world.now) := by
  obtain ⟨signalFirst, k, rfl, hact⟩ := acts_iff.1 ha
  obtain ⟨-, hm, he⟩ := mem_of_acting? hact
  obtain rfl := h.2 k hm he
  have hr : c.world.react (.step (.turn id signalFirst)) = c.world.idleTurn id i deadline :=
    react_of_acts hact
  have hready := isReady_of_acting? hact
  cases hi : (c.world.activity i).isIdle with
  | true =>
    refine ⟨true, outcome?_of_cons (x := ⟨id, c.world.now, .flag true⟩) ?_,
      iff_of_true rfl ((hk.isIdle i).1 hi), nofun⟩
    rw [hr, idleTurn, if_pos hi]
    rfl
  | false =>
    have hd : deadline ≤ c.world.now := by simpa [Task.isReady, hi] using hready
    refine ⟨false, outcome?_of_cons (x := ⟨id, c.world.now, .flag false⟩) ?_,
      iff_of_false Bool.false_ne_true fun hl => ?_, fun _ => hd⟩
    · rw [hr, idleTurn, if_neg (by simp [hi]), if_pos hd]
      rfl
    · exact Bool.false_ne_true (hi.symm.trans ((hk.isIdle i).2 hl))

end Waits

end Ward

section Updates

def World.awaits? (w : World) : ManagerStage → Option (Nat × Nat)
  | .idleWanted a d => some (a, d)
  | _ => w.pool?.map fun pool => (pool.activity, w.now + w.manager.joinTimeout.nanos)

namespace ManagerTask

inductive Updates (w : World) (id : TaskId) (p : Plan) (stage : ManagerStage) : World → Prop
  | waits (m : Manager) (next : ManagerStage)
    (h : ∀ a d, next = .idleWanted a d → w.awaits? stage = some (a, d)) :
    Updates w id p stage ({ w with manager := m }.keepLast id (.manage ⟨.update p, next⟩))
  | agrees (m : Manager) (q : Plan)
    (h : ∀ a d, w.awaits? stage = some (a, d) → (w.activity a).isIdle = true) :
    Updates w id p stage ({ w with manager := m }.finish id (.plan q))
  | late (m : Manager) (q : Plan) (a d : Nat) (h : w.awaits? stage = some (a, d))
    (hb : (w.activity a).isIdle = false) (hd : d ≤ w.now) :
    Updates w id p stage (({ w with manager := m }.report
      (.severe "Warning: not all crawlers finished in time!")).finish id (.plan q))

theorem awaitIdle_updates (m : Manager) (h : w.awaits? stage = some (a, d)) :
    Updates w id p stage
      (awaitIdle { w with manager := m } id ⟨.update p, stage⟩ p a d) := by
  unfold awaitIdle
  split
  · rename_i hi
    refine .agrees _ _ fun b k hb => ?_
    cases h.symm.trans hb
    exact hi
  · rename_i hi
    split
    · rename_i hd
      exact .late _ _ a d h (Bool.not_eq_true _ ▸ hi) hd
    · refine .waits m _ fun b k hb => ?_
      cases hb
      exact h

theorem decideSlot_updates (m : Manager) (hp : m.pool = w.manager.pool)
    (ht : m.joinTimeout = w.manager.joinTimeout)
    (hs : w.awaits? stage =
      w.pool?.map fun pool => (pool.activity, w.now + w.manager.joinTimeout.nanos)) :
    Updates w id p stage (decideSlot { w with manager := m } id ⟨.update p, stage⟩) := by
  have hk : m.pool >>= (w.pools[·]?) = w.pool? := by rw [hp]; rfl
  unfold decideSlot
  simp only [hk]
  cases hw : w.pool? with
  | none =>
    refine .agrees _ _ fun a d ha => ?_
    rw [hs, hw] at ha
    cases ha
  | some pool =>
    rw [hw] at hs
    exact awaitIdle_updates _ (hs.trans (by rw [← ht]; rfl))

theorem askSlot_updates (m : Manager) (hp : m.pool = w.manager.pool)
    (ht : m.joinTimeout = w.manager.joinTimeout)
    (hs : w.awaits? stage =
      w.pool?.map fun pool => (pool.activity, w.now + w.manager.joinTimeout.nanos)) :
    Updates w id p stage (askSlot { w with manager := m } id ⟨.update p, stage⟩) := by
  unfold askSlot
  simp only
  split
  · exact decideSlot_updates _ hp ht hs
  · exact .waits _ .slotWanted nofun

theorem turn_updates (hr : (⟨.update p, stage⟩ : ManagerTask).isReady w id = true)
    (hn : ∀ plan k, stage ≠ .planEnding plan k) (hj : ∀ j, stage ≠ .crawlersEnding j) :
    Updates w id p stage (turn w id ⟨.update p, stage⟩) := by
  cases stage with
  | entering => exact askSlot_updates (w.submit p).manager rfl rfl rfl
  | planEnding plan k => exact absurd rfl (hn plan k)
  | slotWanted =>
    have hh : w.manager.slot.heldBy id = true := hr
    simp only [turn, if_pos hh]
    exact decideSlot_updates w.manager rfl rfl rfl
  | crawlersEnding j => exact absurd rfl (hj j)
  | idleWanted b k => exact awaitIdle_updates w.manager rfl

theorem awaitCrawlers_of_update (hw : w.Wired) {j : Join} (ht : w.Told j.pool) :
    let v := awaitCrawlers w id ⟨.update p, stage⟩ j
    (∀ k ∈ v.jobs, k.id = id → k.task ≠ .manage ⟨.update p, .idleWanted a d⟩) ∧
      (v.ended = w.ended ∨ ∃ time r, v.ended = ⟨id, time, .managed r⟩ :: w.ended) := by
  have hj := join_chores w j.deadline j.aborted j.left
  unfold awaitCrawlers
  rcases hv : w.join j.deadline j.aborted j.left with ⟨v, _ | ⟨task, rest⟩, aborted⟩
  · rw [hv] at hj
    have he := endShutdown_chores (hj.wired hw) { j with left := [], aborted := aborted }
      (hj.told hw ht)
    have hx := (Chores.deeds (hj.trans he) id).ended
    refine ⟨fun k hk hi => absurd hi (mem_jobs_removeJob.1 hk).2, .inr ?_⟩
    exact ⟨_, _, congrArg (List.cons _) hx⟩
  · rw [hv] at hj
    have hx := (Chores.deeds hj id).ended
    refine ⟨fun k hk hi => ?_, .inl hx⟩
    rcases mem_jobs_keepLast.1 hk with ⟨-, hn⟩ | rfl
    · exact absurd hi hn
    · exact nofun

end ManagerTask

namespace World

theorem updates_react (h : w.Settled) (signalFirst : Bool)
    (ha : w.acting? id = some ⟨id, .manage ⟨.update p, stage⟩⟩) :
    ManagerTask.Updates w id p stage (w.react (.step (.turn id signalFirst))) ∨
    ∃ j, w.Told j.pool ∧ w.react (.step (.turn id signalFirst)) =
      ManagerTask.awaitCrawlers w id ⟨.update p, stage⟩ j := by
  have hp := h.proper id _ (mem_of_acting? ha).2.1 nofun
  have hv : w.react (.step (.turn id signalFirst)) = ManagerTask.turn w id ⟨.update p, stage⟩ :=
    react_of_acts ha
  have hr : (⟨.update p, stage⟩ : ManagerTask).isReady w id = true := isReady_of_acting? ha
  rw [hv]
  cases stage with
  | planEnding plan k => cases hp
  | crawlersEnding j => exact .inr ⟨j, hp.1, rfl⟩
  | _ => exact .inl (ManagerTask.turn_updates hr nofun nofun)

theorem awaits_since (h : w.Settled)
    (hj : (⟨id, .manage ⟨.update p, .idleWanted a d⟩⟩ : Job) ∈ (w.react e).jobs) :
    (⟨id, .manage ⟨.update p, .idleWanted a d⟩⟩ : Job) ∈ w.jobs ∨
    ∃ stage signalFirst, e = .step (.turn id signalFirst) ∧
      w.acting? id = some ⟨id, .manage ⟨.update p, stage⟩⟩ ∧ w.awaits? stage = some (a, d) := by
  rcases (tends_react w e).jobs _ hj with hm | ⟨k, hk, hi, hg⟩ | ⟨t, -, ht⟩ | ⟨-, hs⟩
  · exact .inl hm
  · obtain ⟨i, signalFirst, rfl, ha⟩ := of_actor_eq_job hk
    obtain ⟨-, -, rfl⟩ := mem_of_acting? ha
    rcases k with ⟨k, task⟩
    simp only at hi
    subst hi
    cases task with
    | manage t =>
      obtain ⟨call, stage⟩ := t
      obtain rfl : ManagerCall.update p = call := hg
      refine .inr ⟨stage, signalFirst, rfl, ha, ?_⟩
      rcases updates_react h signalFirst ha with hu | ⟨j, ht, he⟩
      · generalize w.react _ = v at hu hj
        cases hu with
        | waits m next hn =>
          rcases mem_jobs_keepLast.1 hj with ⟨-, hi⟩ | hj
          · exact absurd rfl hi
          · cases hj
            exact hn a d rfl
        | agrees => exact absurd rfl (mem_jobs_removeJob.1 hj).2
        | late => exact absurd rfl (mem_jobs_removeJob.1 hj).2
      · rw [he] at hj
        exact absurd rfl ((ManagerTask.awaitCrawlers_of_update h.toWired ht).1 _ hj rfl)
    | _ => exact hg.elim
  · cases ht
  · rcases ha : w.actor e with ⟨i, task⟩ | _ | started
    · rw [ha] at hs
      cases task <;> exact hs.elim
    · rw [ha] at hs
      exact hs.elim
    · rw [ha] at hs
      obtain ⟨rfl, he⟩ := hs
      cases he

theorem updates_come_back (h : w.Settled) {signalFirst : Bool} {q : Plan}
    (ha : w.acting? id = some ⟨id, .manage ⟨.update p, stage⟩⟩)
    (hr : w.outcome? (.step (.turn id signalFirst)) = some (.plan q)) :
    let v := w.react (.step (.turn id signalFirst))
    (v.journal = w.journal ∧
      ∀ a d, w.awaits? stage = some (a, d) → (w.activity a).isIdle = true) ∨
    v.journal = w.journal.report (.severe "Warning: not all crawlers finished in time!") ∧
      ∃ a d, w.awaits? stage = some (a, d) ∧ (w.activity a).isIdle = false ∧ d ≤ w.now := by
  intro v
  rcases updates_react h signalFirst ha with hu | ⟨j, ht, he⟩
  · have hv : w.react (.step (.turn id signalFirst)) = v := rfl
    rw [hv] at hu
    clear_value v
    cases hu with
    | waits m next =>
      rw [outcome?_of_eq (by rw [hv]; rfl)] at hr
      cases hr
    | agrees m q hi => exact .inl ⟨rfl, hi⟩
    | late m q a d hd hb hle => exact .inr ⟨rfl, a, d, hd, hb, hle⟩
  · rcases (ManagerTask.awaitCrawlers_of_update (a := 0) (d := 0) h.toWired ht).2 with hk | ⟨_, _, hk⟩
    · rw [outcome?_of_eq (by rw [he]; exact hk)] at hr
      cases hr
    · rw [outcome?_of_cons (by rw [he]; exact hk)] at hr
      cases hr

end World

end Updates

section Theorem

/-- In every run a count is the number of its guards that are live, and one that is lowered is not
zero. One who waits until nobody is busy comes back with yes if and only if no guard is live, and
with no only when the time is up. An update waits for the pool that it found in the slot: it comes
back with its time up and says so, or when no guard is live and no crawler of the pool is busy with
an item. -/
theorem guards_are_counted (s : Setup) (moves : List Move) :
    let c := (Ward.opened s).run moves
    (∀ i, (c.world.activity i).busy = c.live i) ∧
    (∀ m, Shift c.world.activity (c.move m).world.activity c.live (c.move m).live) ∧
    (∀ i timeout later e,
      let deadline := c.world.now + Span.nanos timeout
      let d := (c.move (.event (.launch (.awaitIdle i deadline)))).run later
      d.world.acts c.world.nextId e = true →
      ∃ b, d.world.outcome? e = some (.flag b) ∧ (b = true ↔ d.live i = 0) ∧
        (b = false → deadline ≤ d.world.now)) ∧
    (∀ id p stage signalFirst q,
      let e := .step (.turn id signalFirst)
      c.world.acting? id = some ⟨id, .manage ⟨.update p, stage⟩⟩ →
      c.world.outcome? e = some (.plan q) →
      ((c.world.react e).journal = c.world.journal ∧
        ∀ a d, c.world.awaits? stage = some (a, d) → c.live a = 0 ∧
          ∀ pool ∈ c.world.pools, pool.activity = a → ∀ j ∈ c.world.jobs, j.id ∈ pool.crawlers →
            j.task.isMidCycle = false) ∨
      (c.world.react e).journal =
          c.world.journal.report (.severe "Warning: not all crawlers finished in time!") ∧
        ∃ a d, c.world.awaits? stage = some (a, d) ∧ 0 < c.live a ∧ d ≤ c.world.now) ∧
    ∀ e id p a d, (⟨id, .manage ⟨.update p, .idleWanted a d⟩⟩ : Job) ∈ (c.world.react e).jobs →
      (⟨id, .manage ⟨.update p, .idleWanted a d⟩⟩ : Job) ∈ c.world.jobs ∨
      ∃ stage signalFirst, e = .step (.turn id signalFirst) ∧
        c.world.acting? id = some ⟨id, .manage ⟨.update p, stage⟩⟩ ∧
        c.world.awaits? stage = some (a, d) := by
  intro c
  have h : c.Kept := (Ward.opened_kept s).run moves
  refine ⟨h.exact, h.shift, fun i timeout later e => ?_, fun id p stage signalFirst q => ?_,
    fun e id p a d hj => awaits_since h.settled hj⟩
  · intro deadline d ha
    have hd : d.Kept := (h.move _).run later
    exact ((h.launch i deadline).run later).comes_back hd ha
  · intro e ha hr
    rcases updates_come_back h.settled ha hr with ⟨hj, hi⟩ | ⟨hj, a, d, hd, hb, hle⟩
    · refine .inl ⟨hj, fun a d hd => ?_⟩
      have hl := (h.isIdle a).1 (hi a d hd)
      exact ⟨hl, h.at_rest hl⟩
    · refine .inr ⟨hj, a, d, hd, Nat.pos_of_ne_zero fun hl => ?_, hle⟩
      exact Bool.false_ne_true (hb.symm.trans ((h.isIdle a).2 hl))

def guarded : List Move :=
  [.event (.launch (.manage ⟨.start, .entering⟩)), .event (.step (.turn 0 true)), .take 0,
    .event (updating 1), .event (.step (.turn 2 true)), .drop 0]

def retaken : List Move := [.take 0]

theorem guards_are_counted_guarded :
    let c := (Ward.opened Account.lone).run guarded
    let d := (c.move (.event (.launch (.awaitIdle 0 (c.world.now + Span.zero.nanos))))).run retaken
    let e := .step (.turn 2 true)
    let f := .step (.turn 3 true)
    c.world.outcome? e = some (.plan (planNumbered 1)) ∧ c.live 0 = 0 ∧
      d.world.outcome? f = some (.flag false) ∧ d.live 0 ≠ 0 := by
  intro c d e f
  obtain ⟨-, -, hwait, hupdate, -⟩ := guards_are_counted Account.lone guarded
  have hacting : c.world.acting? 2 = some ⟨2, .manage ⟨.update (planNumbered 1),
      .idleWanted 0 (Account.lone.partition.joinTimeout.nanos)⟩⟩ := rfl
  have hplan : c.world.outcome? e = some (.plan (planNumbered 1)) := rfl
  have hquiet : (c.world.react e).journal ≠
      c.world.journal.report (.severe "Warning: not all crawlers finished in time!") := by decide
  obtain ⟨-, hrest⟩ := (hupdate 2 _ _ true _ hacting hplan).resolve_right fun h => hquiet h.1
  obtain ⟨b, hflag, hidle, -⟩ := hwait 0 .zero retaken f (by decide)
  have hbusy : d.world.outcome? f = some (.flag false) := rfl
  cases hbusy.symm.trans hflag
  refine ⟨hplan, (hrest 0 _ rfl).1, hbusy, fun hl => ?_⟩
  exact Bool.false_ne_true (hidle.2 hl)

end Theorem

end CatalogCrawl

import CatalogCrawl.Proofs.World.Signals
import Mathlib.Logic.Relation

namespace CatalogCrawl

variable {w v u : World} {id : TaskId} {t : ManagerTask} {m n : Nat}

namespace World

/-- The signals that are told of are there, those of pools that were shut down are raised, and so is
the pool in the slot. -/
structure Wired (w : World) : Prop where
  signals : ∀ p ∈ w.pools, p.signal < w.signals.length
  closed : ∀ p ∈ w.pools, p.state = .shuttingDown ∨ p.state = .shutDown → w.Raised p.signal
  slot : ∀ k, w.manager.pool = some k → k < w.pools.length
  plan : ∀ s, w.manager.schedule = some s → s.signal < w.signals.length

def Told (w : World) (pool : Nat) : Prop :=
  ∃ p : Pool, w.pools[pool]? = some p ∧ w.Raised p.signal

theorem Told.onward {pool : Nat} (h : w.Told pool) (hw : w.Wired) (ho : w.Onward v) :
    v.Told pool := by
  obtain ⟨p, hp, hr⟩ := h
  obtain ⟨q, hq, hs⟩ := ho.pools pool p hp
  exact ⟨q, hq, hs ▸ ho.raised (hw.signals p (List.mem_of_getElem? hp)) hr⟩

/-- What leaves the manager as it is. -/
inductive Chore (w : World) : World → Prop
  | note (journal : Journal) : w.Chore { w with journal := journal }
  | abort (task : TaskId) : w.Chore (w.abort task)
  | raise (i : Nat) : w.Chore (w.setSignal i true)
  | lose (i : Nat) : w.Chore (w.loseSignal i)
  | close (pool : Nat) (h : w.Told pool) :
    w.Chore (w.changePool pool fun p => { p with state := .shuttingDown })
  | bury (pool : Nat) (h : w.Told pool) :
    w.Chore (w.changePool pool fun p => { p with state := .shutDown, crawlers := [] })

abbrev Chores : World → World → Prop := Relation.ReflTransGen Chore

inductive Deed (id : TaskId) (w : World) : Nat → World → Prop
  | chore {v : World} (h : w.Chore v) : w.Deed id 0 v
  | pend (plans : List Plan) : w.Deed id 0 (w.changeManager fun m => { m with pending := plans })
  | enter : w.Deed id 0 (w.enterSlot id)
  | leave : w.Deed id 0 (w.leaveSlot id)
  | vacate (hh : w.manager.slot.heldBy id = true) (ht : ∀ k, w.manager.pool = some k → w.Told k) :
    w.Deed id 0 (w.setPool none)
  | forget (ht : ∀ s, w.manager.schedule = some s → w.Raised s.signal) :
    w.Deed id 0 (w.changeManager fun m => { m with schedule := none })
  | opens (hh : w.manager.slot.heldBy id = true) (hp : w.manager.pool = none) :
    w.Deed id 1 w.spawnPool

inductive Deeds (id : TaskId) : Nat → World → World → Prop
  | refl (w : World) : Deeds id 0 w w
  | head {w v u : World} {m n : Nat} (h : w.Deed id m v) (k : Deeds id n v u) :
    Deeds id (n + m) w u

theorem Chore.manager (h : w.Chore v) : v.manager = w.manager := by
  cases h with
  | abort task => exact (w.abort_apart task).manager
  | _ => rfl

theorem Chore.onward (h : w.Chore v) : w.Onward v := by
  cases h with
  | note => exact .of_eq rfl rfl rfl
  | abort task => exact (w.abort_apart task).onward
  | raise i => exact w.onward_setSignal i
  | lose i => exact w.onward_loseSignal i
  | close pool => exact w.onward_changePool pool fun _ => rfl
  | bury pool => exact w.onward_changePool pool fun _ => rfl

theorem Wired.of_onward (h : w.Wired) (ho : w.Onward v) (hp : v.pools = w.pools)
    (hm : v.manager.pool = w.manager.pool) (hs : v.manager.schedule = w.manager.schedule) :
    v.Wired := by
  refine ⟨fun p hk => ?_, fun p hk hs => ?_, fun k hk => ?_, fun s hk => ?_⟩
  · rw [hp] at hk
    exact Nat.lt_of_lt_of_le (h.signals p hk) ho.signals
  · rw [hp] at hk
    exact ho.raised (h.signals p hk) (h.closed p hk hs)
  · rw [hp]
    exact h.slot k (hm ▸ hk)
  · exact Nat.lt_of_lt_of_le (h.plan s (hs ▸ hk)) ho.signals

theorem Wired.changePool (h : w.Wired) {pool : Nat} (ht : w.Told pool) {f : Pool → Pool}
    (hf : ∀ p, (f p).signal = p.signal) : (w.changePool pool f).Wired := by
  have hm : ∀ q ∈ w.pools.modify pool f, q ∈ w.pools ∨
      ∃ p, w.pools[pool]? = some p ∧ q = f p := by
    intro q hq
    obtain ⟨i, hi⟩ := List.mem_iff_getElem?.1 hq
    rw [List.getElem?_modify] at hi
    obtain ⟨p, hp, rfl⟩ := Option.map_eq_some_iff.1 hi
    split
    · rename_i he
      exact .inr ⟨p, he ▸ hp, rfl⟩
    · exact .inl (List.mem_of_getElem? hp)
  refine ⟨fun q hq => ?_, fun q hq hs => ?_, fun k hk => ?_, h.plan⟩
  · rcases hm q hq with hq | ⟨p, hp, rfl⟩
    · exact h.signals q hq
    · rw [hf]
      exact h.signals p (List.mem_of_getElem? hp)
  · rcases hm q hq with hq | ⟨p, hp, rfl⟩
    · exact h.closed q hq hs
    · obtain ⟨p', hp', hr⟩ := ht
      cases hp.symm.trans hp'
      rw [hf]
      exact hr
  · simpa [World.changePool] using h.slot k hk

theorem Chore.wired (h : w.Chore v) (hw : w.Wired) : v.Wired := by
  have ho := h.onward
  have hm := h.manager
  cases h with
  | note => exact hw.of_onward ho rfl rfl rfl
  | abort task => exact hw.of_onward ho (w.abort_apart task).pools (by rw [hm]) (by rw [hm])
  | raise i => exact hw.of_onward ho rfl rfl rfl
  | lose i => exact hw.of_onward ho rfl rfl rfl
  | close pool ht => exact hw.changePool ht fun _ => rfl
  | bury pool ht => exact hw.changePool ht fun _ => rfl

theorem Chores.manager (h : w.Chores v) : v.manager = w.manager := by
  induction h with
  | refl => rfl
  | tail _ hc ih => exact hc.manager.trans ih

theorem Chores.onward (h : w.Chores v) : w.Onward v := by
  induction h with
  | refl => exact .refl w
  | tail _ hc ih => exact ih.trans hc.onward

theorem Chores.wired (h : w.Chores v) (hw : w.Wired) : v.Wired := by
  induction h with
  | refl => exact hw
  | tail _ hc ih => exact hc.wired ih

theorem Chores.told {pool : Nat} (h : w.Chores v) (hw : w.Wired) (ht : w.Told pool) :
    v.Told pool :=
  ht.onward hw h.onward

theorem Chores.deeds (h : w.Chores v) (id : TaskId) : Deeds id 0 w v := by
  induction h using Relation.ReflTransGen.head_induction_on with
  | refl => exact .refl v
  | head hc _ ih => exact .head (.chore hc) ih

theorem Wired.spawnPool (h : w.Wired) : w.spawnPool.Wired := by
  obtain ⟨journal, hs⟩ := w.spawnPool_eq
  rw [hs]
  have ho : w.Onward { w with signals := w.signals ++ [.fresh false] } := w.onward_addSignal false
  have hl : w.signals.length < (w.signals ++ [Signal.fresh false]).length := by simp
  refine ⟨fun p hp => ?_, fun p hp hc => ?_, fun k hk => ?_, fun s hk => ?_⟩
  · rcases List.mem_append.1 hp with hp | hp
    · exact Nat.lt_of_lt_of_le (h.signals p hp) ho.signals
    · rw [List.mem_singleton.1 hp]
      exact hl
  · rcases List.mem_append.1 hp with hp | hp
    · exact ho.raised (h.signals p hp) (h.closed p hp hc)
    · rw [List.mem_singleton.1 hp] at hc
      simp at hc
  · cases hk
    simp [withPool]
  · exact Nat.lt_of_lt_of_le (h.plan s hk) ho.signals

theorem onward_spawnPool (w : World) : w.Onward w.spawnPool := by
  obtain ⟨journal, hs⟩ := w.spawnPool_eq
  rw [hs]
  have ho : w.Onward { w with signals := w.signals ++ [.fresh false] } := w.onward_addSignal false
  refine ⟨ho.signals, ho.rises, fun k p hp => ⟨p, ?_, rfl⟩, rfl⟩
  exact (List.getElem?_append_left (List.getElem?_eq_some_iff.1 hp).1).trans hp

def pool? (w : World) : Option Pool := w.manager.pool >>= (w.pools[·]?)

/-- A pool in which all crawlers that the manager makes for one have just begun. -/
structure PutUp (w : World) (p : Pool) : Prop where
  state : p.state = .running
  untold : ¬ w.Raised p.signal
  size : p.crawlers.length = w.manager.crawlerCount
  distinct : p.crawlers.Nodup
  crawlers : ∀ i ∈ p.crawlers, ∃ c, (⟨i, crawlTask p c⟩ : Job) ∈ w.jobs

theorem putUp_spawnPool (w : World) :
    ∃ p, w.spawnPool.pool? = some p ∧ w.spawnPool.PutUp p := by
  obtain ⟨journal, hs⟩ := w.spawnPool_eq
  rw [hs]
  refine ⟨⟨.running, w.signals.length, w.activities.length,
    List.range' w.nextId w.manager.crawlerCount⟩, ?_, rfl, ?_, List.length_range', List.nodup_range',
    fun i hi => ?_⟩
  · simp [pool?, withPool]
  · simp [Raised, signal, withPool, Signal.fresh]
  · obtain ⟨k, hk, rfl⟩ := List.mem_range'.1 hi
    rw [← length_makeCrawlers] at hk
    refine ⟨(makeCrawlers w.manager)[k], List.mem_append_right _ (List.mem_mapIdx.2 ⟨k, hk, ?_⟩)⟩
    rw [Nat.one_mul]
    rfl

theorem Deed.onward (h : w.Deed id n v) : w.Onward v := by
  cases h with
  | chore hc => exact hc.onward
  | opens => exact w.onward_spawnPool
  | _ => exact .of_eq rfl rfl rfl

theorem Deed.wired (h : w.Deed id n v) (hw : w.Wired) : v.Wired := by
  have ho := h.onward
  cases h with
  | chore hc => exact hc.wired hw
  | pend => exact hw.of_onward ho rfl rfl rfl
  | enter => exact hw.of_onward ho rfl rfl rfl
  | leave => exact hw.of_onward ho rfl rfl rfl
  | vacate => exact ⟨hw.signals, hw.closed, fun k hk => (by cases hk), hw.plan⟩
  | forget => exact ⟨hw.signals, hw.closed, hw.slot, fun s hk => (by cases hk)⟩
  | opens => exact hw.spawnPool

theorem Deed.built (h : w.Deed id n v) :
    v.manager.built = w.manager.built + n * w.manager.crawlerCount := by
  cases h with
  | chore hc => rw [hc.manager, Nat.zero_mul, Nat.add_zero]
  | opens =>
    obtain ⟨journal, hs⟩ := w.spawnPool_eq
    rw [hs, Nat.one_mul]
    rfl
  | _ => exact (Nat.zero_mul w.manager.crawlerCount).symm ▸ rfl

theorem Deeds.onward (h : Deeds id n w v) : w.Onward v := by
  induction h with
  | refl w => exact .refl w
  | head hd _ ih => exact hd.onward.trans ih

theorem Deeds.built (h : Deeds id n w v) :
    v.manager.built = w.manager.built + n * w.manager.crawlerCount := by
  induction h with
  | refl w => simp
  | head hd _ ih =>
    rw [ih, hd.built, hd.onward.crawlerCount, Nat.add_mul, Nat.add_assoc, Nat.add_comm (_ * _)]

end World

namespace ManagerTask

open World

def opens (t : ManagerTask) : TaskResult → Bool
  | .managed (.ok _) => t.call = .start ∨ t.call = .restart
  | _ => false

structure Clears (w : World) (id : TaskId) (t : ManagerTask) : Prop where
  call : t.call ≠ .start
  slot : t.call = .restart → w.manager.slot.heldBy id = true ∧ w.manager.pool = none

def Proper (w : World) (id : TaskId) (t : ManagerTask) : Prop :=
  match t.stage with
  | .planEnding _ _ => t.call = .stop
  | .crawlersEnding j => w.Told j.pool ∧ t.Clears w id
  | _ => True

inductive Ends (id : TaskId) (t : ManagerTask) (w : World) : Nat → World → Prop
  | stays (stage : ManagerStage) (h : Proper w id { t with stage := stage }) :
    t.Ends id w 0 (t.stay w id stage)
  | returns (r : TaskResult) (h : t.opens r = true → ∃ p, w.pool? = some p ∧ w.PutUp p) :
    t.Ends id w (t.opens r).toNat (w.finish id r)
  | leaves : t.Ends id w 0 (w.removeJob id)

def Does (id : TaskId) (t : ManagerTask) (w u : World) : Prop :=
  ∃ n v, Deeds id n w v ∧ t.Ends id v n u

theorem Does.after (k : t.Does id v u) (h : w.Deed id 0 v) : t.Does id w u := by
  obtain ⟨n, x, hd, he⟩ := k
  exact ⟨n, x, .head h hd, he⟩

theorem Does.afterChores (k : t.Does id v u) (h : w.Chores v) : t.Does id w u := by
  induction h using Relation.ReflTransGen.head_induction_on with
  | refl => exact k
  | head hc _ ih => exact ih.after (.chore hc)

theorem returns_does {r : TaskResult} (hr : t.opens r = false) (w : World) :
    t.Does id w (w.finish id r) := by
  refine ⟨0, w, .refl w, ?_⟩
  have he : t.Ends id w (t.opens r).toNat (w.finish id r) :=
    .returns r fun ho => absurd (hr.symm.trans ho) Bool.false_ne_true
  rwa [hr] at he

theorem stays_does (stage : ManagerStage) (h : Proper w id { t with stage := stage }) :
    t.Does id w (t.stay w id stage) :=
  ⟨0, w, .refl w, .stays stage h⟩

theorem start_does (ht : t.call = .start ∨ t.call = .restart)
    (hh : w.manager.slot.heldBy id = true) (hp : w.manager.pool = none) :
    t.Does id w (done (w.spawnPool.leaveSlot id) id) := by
  refine ⟨1, _, .head (.opens hh hp) (.head .leave (.refl _)), ?_⟩
  obtain ⟨p, hpool, hput⟩ := w.putUp_spawnPool
  have he : t.Ends id (w.spawnPool.leaveSlot id) (t.opens (.managed (.ok ()))).toNat
      (done (w.spawnPool.leaveSlot id) id) := .returns _ fun _ => ⟨p, hpool,
        hput.state, hput.untold, hput.size, hput.distinct, hput.crawlers⟩
  rwa [show t.opens (.managed (.ok ())) = true by simpa [opens] using ht] at he

theorem reportLate_chores (w : World) (message : String) (r : Except CrawlFault Unit) :
    w.Chores (reportLate w message r) := by
  cases r with
  | ok _ => exact .refl
  | error fault => exact .single (.note _)

theorem foldl_abort_chores (w : World) (tasks : List TaskId) :
    w.Chores (tasks.foldl World.abort w) := by
  induction tasks generalizing w with
  | nil => exact .refl
  | cons task rest ih => exact .head (.abort task) (ih _)

theorem dropPool_chores (w : World) (pool : Nat) : w.Chores (w.dropPool pool) := by
  unfold dropPool
  split
  · exact .refl
  · exact .tail (foldl_abort_chores w _) (.lose _)

theorem Clears.congr {s : ManagerTask} (h : t.Clears w id) (hm : v.manager = w.manager)
    (hs : s.call = t.call) : s.Clears v id :=
  ⟨hs ▸ h.call, fun hr => hm ▸ h.slot (hs ▸ hr)⟩

theorem afterShutdown_does (h : t.Clears w id) (pool : Nat) (r : Except CrawlFault Unit) :
    t.Does id w (t.afterShutdown w id pool r) := by
  unfold afterShutdown
  split
  · rename_i ht
    refine .afterChores (.afterChores (returns_does ?_ _) (dropPool_chores _ pool))
      (reportLate_chores w _ r)
    cases r <;> simp [opens, ht]
  · rename_i ht
    have hc : w.Chores _ :=
      (reportLate_chores w "Crawlers did not stop in time during restart" r).trans
        (dropPool_chores _ pool)
    obtain ⟨hh, hp⟩ := (h.congr hc.manager rfl).slot ht
    exact .afterChores (start_does (.inr ht) hh hp) hc
  · rename_i ht
    refine returns_does ?_ w
    cases r with
    | ok _ => simpa [opens, h.call] using ht
    | error fault => rfl

theorem join_chores (w : World) (deadline aborted : Nat) (left : List TaskId) :
    w.Chores (w.join deadline aborted left).1 := by
  induction left generalizing w aborted with
  | nil => exact .refl
  | cons task rest ih =>
    unfold join
    split
    · exact ih w aborted
    split
    · exact .head (.abort task) (ih _ _)
    · exact .refl

theorem endShutdown_chores (hw : w.Wired) (j : Join) (ht : w.Told j.pool) :
    w.Chores (w.endShutdown j).1 := by
  have noted : w.Chores (if w.crashedCrawlers j.pool = 0 then w
      else w.warn (toString (w.crashedCrawlers j.pool) ++ " crawlers panicked before shutdown")) := by
    split
    · exact .refl
    · exact .single (.note _)
  have buried := noted.tail (.bury j.pool (noted.told hw ht))
  unfold endShutdown
  simp only
  split
  · exact buried
  · exact buried.tail (.note _)

theorem awaitCrawlers_does (hw : w.Wired) {j : Join} (ht : w.Told j.pool) (h : t.Clears w id) :
    t.Does id w (t.awaitCrawlers w id j) := by
  have hj := join_chores w j.deadline j.aborted j.left
  unfold awaitCrawlers
  rcases hv : w.join j.deadline j.aborted j.left with ⟨v, _ | ⟨task, rest⟩, aborted⟩
  · rw [hv] at hj
    have he := endShutdown_chores (hj.wired hw) { j with left := [], aborted := aborted }
      (hj.told hw ht)
    have hc := hj.trans he
    exact .afterChores (afterShutdown_does (h.congr (Chores.manager hc) rfl) j.pool _) hc
  · rw [hv] at hj
    exact .afterChores (stays_does _ ⟨hj.told hw ht, h.congr hj.manager rfl⟩) hj

theorem crash_does (w : World) (pool : Nat) (crash : Crash) :
    t.Does id w (t.crash w id pool crash) := by
  unfold ManagerTask.crash
  split
  · exact returns_does rfl w
  · exact .afterChores (.after (returns_does rfl _) .leave) (dropPool_chores w pool)

def shutOff (id : TaskId) (t : ManagerTask) (pool : Nat) : World × Option Join → World
  | (w, none) => t.afterShutdown w id pool (.ok ())
  | (w, some j) =>
    if w.shows j.deadline then t.awaitCrawlers w id j else t.crash w id pool .instant

theorem shutDown_eq (w : World) (pool : Nat) (timeout : Span) :
    t.shutDown w id pool timeout = t.shutOff id pool (w.beginShutdown pool timeout) := by
  unfold shutDown
  rcases w.beginShutdown pool timeout with ⟨v, _ | j⟩ <;> rfl

theorem tell_chores (hw : w.Wired) {pool : Nat} {p : Pool} (hp : w.pools[pool]? = some p) :
    w.Chores ((w.changePool pool fun p => { p with state := .shuttingDown }).setSignal
      p.signal true) ∧
    ((w.changePool pool fun p => { p with state := .shuttingDown }).setSignal p.signal true).Told
      pool := by
  -- The signal could as well be raised before the state is changed.
  have hr : w.Chore (w.setSignal p.signal true) := .raise p.signal
  have ht : (w.setSignal p.signal true).Told pool :=
    ⟨p, hp, raised_setSignal (hw.signals p (List.mem_of_getElem? hp))⟩
  have hc : (w.setSignal p.signal true).Chore
      ((w.setSignal p.signal true).changePool pool fun p => { p with state := .shuttingDown }) :=
    .close pool ht
  exact ⟨.tail (.single hr) hc, ht.onward (hr.wired hw) hc.onward⟩

theorem beginShutdown_chores (hw : w.Wired) (pool : Nat) (timeout : Span) :
    w.Chores (w.beginShutdown pool timeout).1 ∧
      (pool < w.pools.length → (w.beginShutdown pool timeout).1.Told pool) ∧
      ∀ j ∈ (w.beginShutdown pool timeout).2, j.pool = pool ∧ pool < w.pools.length := by
  unfold beginShutdown
  cases hp : w.pools[pool]? with
  | none =>
    exact ⟨.refl, fun hl => absurd (List.getElem?_eq_none_iff.1 hp) (Nat.not_le.2 hl),
      fun j hj => by cases hj⟩
  | some p =>
    have hl := (List.getElem?_eq_some_iff.1 hp).1
    have hjoin : ∀ j ∈ some (⟨pool, p.crawlers, w.now + timeout.nanos, timeout, 0⟩ : Join),
        j.pool = pool ∧ pool < w.pools.length := by
      intro j hj
      cases hj
      exact ⟨rfl, hl⟩
    simp only
    split
    · rename_i hs
      have ht : w.Told pool := ⟨p, hp, hw.closed p (List.mem_of_getElem? hp) (.inr hs)⟩
      exact ⟨.refl, fun _ => ht, fun j hj => by cases hj⟩
    split
    · obtain ⟨hc, ht⟩ := tell_chores hw hp
      exact ⟨hc, fun _ => ht, hjoin⟩
    · have hn : w.Chore (w.warn ("Shutting down crawler pool in state: " ++ p.state.name)) :=
        .note _
      obtain ⟨hc, ht⟩ := tell_chores (hn.wired hw) (show _ = some p from hp)
      exact ⟨.head hn hc, fun _ => ht, hjoin⟩

theorem shutOff_does (hw : w.Wired) {pool : Nat} (h : t.Clears w id) (j? : Option Join)
    (hj : ∀ j : Join, j ∈ j? → w.Told j.pool) : t.Does id w (t.shutOff id pool (w, j?)) := by
  cases j? with
  | none => exact afterShutdown_does h pool _
  | some j =>
    unfold shutOff
    simp only
    split
    · exact awaitCrawlers_does hw (hj j rfl) h
    · exact crash_does w pool _

theorem beginShutdown_changeManager (w : World) (f : Manager → Manager) (pool : Nat)
    (timeout : Span) : (w.changeManager f).beginShutdown pool timeout =
      ((w.beginShutdown pool timeout).1.changeManager f, (w.beginShutdown pool timeout).2) := by
  unfold beginShutdown changeManager
  simp only
  split
  · rfl
  split
  · rfl
  · split <;> rfl

theorem retire_deeds (hw : w.Wired) {pool : Nat} (hp : w.manager.pool = some pool)
    (hh : w.manager.slot.heldBy id = true) (timeout : Span) :
    let b := w.beginShutdown pool timeout
    w.Chores b.1 ∧ b.1.Deed id 0 (b.1.setPool none) ∧ (b.1.setPool none).Wired ∧
      ∀ j ∈ b.2, (b.1.setPool none).Told j.pool := by
  intro b
  obtain ⟨hc, ht, hj⟩ := beginShutdown_chores hw pool timeout
  have told : b.1.Told pool := ht (hw.slot pool hp)
  have hd : b.1.Deed id 0 (b.1.setPool none) := by
    refine .vacate ?_ fun k hk => ?_
    · rw [hc.manager]
      exact hh
    · rw [hc.manager, hp] at hk
      cases hk
      exact told
  refine ⟨hc, hd, hd.wired (hc.wired hw), fun j hm => ?_⟩
  rw [(hj j hm).1]
  exact told

theorem stopPool_does (hw : w.Wired) (ht : t.call = .stop) {pool : Nat}
    (hp : w.manager.pool = some pool) (hh : w.manager.slot.heldBy id = true) (timeout : Span) :
    t.Does id w (t.shutDown ((w.setPool none).leaveSlot id) id pool timeout) := by
  obtain ⟨hc, hd, hv, hj⟩ := retire_deeds hw hp hh timeout
  rw [shutDown_eq, leaveSlot, beginShutdown_changeManager, setPool, beginShutdown_changeManager]
  have hl : ((w.beginShutdown pool timeout).1.setPool none).Deed id 0
      (((w.beginShutdown pool timeout).1.setPool none).leaveSlot id) := .leave
  refine .afterChores (.after (.after (shutOff_does (hl.wired hv) ?_ _ ?_) hl) hd) hc
  · exact ⟨by simp [ht], fun hr => by simp [ht] at hr⟩
  · exact hj

theorem restartPool_does (hw : w.Wired) (ht : t.call = .restart) {pool : Nat}
    (hp : w.manager.pool = some pool) (hh : w.manager.slot.heldBy id = true) (timeout : Span) :
    t.Does id w (t.shutDown (w.setPool none) id pool timeout) := by
  obtain ⟨hc, hd, hv, hj⟩ := retire_deeds hw hp hh timeout
  rw [shutDown_eq, setPool, beginShutdown_changeManager]
  refine .afterChores (.after (shutOff_does hv ?_ _ hj) hd) hc
  have hk : (w.beginShutdown pool timeout).1.manager.slot.heldBy id = true := hc.manager ▸ hh
  exact ⟨by simp [ht], fun _ => ⟨hk, rfl⟩⟩

theorem collate_does (w : World) (p : Plan) (idle : Bool) :
    t.Does id w (collate w id p idle) := by
  have agreed (v : World) : t.Does id v ((v.agree p).2.finish id (.plan (v.agree p).1)) :=
    .after (returns_does rfl _) (.pend _)
  cases idle with
  | true => exact agreed w
  | false => exact (agreed _).after (.chore (.note _))

theorem awaitIdle_does (w : World) (p : Plan) (activity deadline : Nat) :
    t.Does id w (t.awaitIdle w id p activity deadline) := by
  unfold awaitIdle
  split
  · exact collate_does w p true
  split
  · exact collate_does w p false
  · exact stays_does (.idleWanted activity deadline) trivial

theorem decideSlot_does (hw : w.Wired) (hh : w.manager.slot.heldBy id = true) :
    t.Does id w (t.decideSlot w id) := by
  unfold decideSlot
  split
  · rename_i ht
    split
    · exact .after (returns_does rfl _) .leave
    · rename_i hp
      refine start_does (.inl ht) hh ?_
      cases hk : w.manager.pool with
      | none => rfl
      | some k =>
        rw [hk, Option.bind_eq_bind, Option.bind_some, List.getElem?_eq_none_iff] at hp
        exact absurd (hw.slot k hk) (Nat.not_lt.2 hp)
  · rename_i ht
    split
    · rename_i pool hp
      exact restartPool_does hw ht hp hh _
    · rename_i hp
      exact start_does (.inr ht) hh hp
  · rename_i ht
    simp only
    split
    · rename_i hp
      have hd : w.Deed id 0 (w.setPool none) :=
        .vacate hh fun k hk => by rw [hp] at hk; cases hk
      refine .after (.after (returns_does ?_ _) .leave) hd
      simp [opens, ht]
    · rename_i pool hp
      exact stopPool_does hw ht hp hh _
  · simp only
    split
    · exact .after (collate_does _ _ true) .leave
    · exact .after (awaitIdle_does _ _ _ _) .leave
  · exact ⟨0, w, .refl w, .leaves⟩

theorem askSlot_does (hw : w.Wired) : t.Does id w (t.askSlot w id) := by
  have he : w.Deed id 0 (w.enterSlot id) := .enter
  unfold askSlot
  simp only
  split
  · rename_i hh
    exact (decideSlot_does (he.wired hw) hh).after he
  · exact (stays_does .slotWanted trivial).after he

theorem awaitPlan_does (hw : w.Wired) (ht : t.call = .stop) (plan : TaskId) (deadline : Nat) :
    t.Does id w (t.awaitPlan w id plan deadline) := by
  unfold awaitPlan
  split
  · exact askSlot_does hw
  split
  · have hc : w.Chores ((w.abort plan).warn "Refill schedule did not stop in time, aborted") :=
      .tail (.single (.abort plan)) (.note _)
    exact .afterChores (askSlot_does (hc.wired hw)) hc
  · exact stays_does (.planEnding plan deadline) ht

theorem enter_does (hw : w.Wired) : t.Does id w (t.enter w id) := by
  unfold enter
  split
  · exact askSlot_does hw
  · exact askSlot_does hw
  · rename_i p _
    have hp : w.Deed id 0 (w.submit p) := .pend (w.manager.pending ++ [p])
    exact (askSlot_does (hp.wired hw)).after hp
  · rename_i ht
    split
    · exact askSlot_does hw
    · rename_i s hs
      -- The plan could as well be told to end before it is forgotten.
      have hr : w.Chore (w.setSignal s.signal true) := .raise s.signal
      have hf : (w.setSignal s.signal true).Deed id 0
          ((w.setSignal s.signal true).changeManager fun m => { m with schedule := none }) := by
        refine .forget fun k hk => ?_
        cases hs.symm.trans hk
        exact raised_setSignal (hw.plan s hs)
      exact ((awaitPlan_does (hf.wired (hr.wired hw)) ht s.task _).after hf).after (.chore hr)
  · rename_i pool timeout ht
    obtain ⟨hc, hk, hj⟩ := beginShutdown_chores hw pool timeout
    rw [shutDown_eq]
    refine .afterChores (shutOff_does (hc.wired hw) ?_ _ fun j hm => ?_) hc
    · exact ⟨by simp [ht], fun hr => by simp [ht] at hr⟩
    · rw [(hj j hm).1]
      exact hk (hj j hm).2

theorem turn_does (hw : w.Wired) (h : Proper w id t) :
    t.turn w id = w ∨ t.Does id w (t.turn w id) := by
  unfold turn
  split
  · exact .inr (enter_does hw)
  · rename_i plan deadline hs
    simp only [Proper, hs] at h
    exact .inr (awaitPlan_does hw h plan deadline)
  · split
    · rename_i hh
      exact .inr (decideSlot_does hw hh)
    · exact .inl rfl
  · rename_i j hs
    simp only [Proper, hs] at h
    exact .inr (awaitCrawlers_does hw h.1 h.2)
  · split
    · exact .inr (awaitIdle_does w _ _ _)
    · exact .inl rfl

end ManagerTask

end CatalogCrawl

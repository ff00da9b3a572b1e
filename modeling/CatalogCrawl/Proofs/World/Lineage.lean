import CatalogCrawl.Proofs.World.Hands
import CatalogCrawl.Proofs.World.Laps
import Mathlib.Algebra.BigOperators.Group.Multiset.Basic
import Mathlib.Algebra.GroupWithZero.Nat

namespace CatalogCrawl

namespace World

def fate? (w v : World) : Option Fate :=
  if v.stats.cycles = w.stats.cycles then none
  else if w.stats.requeued < v.stats.requeued then v.queue.items.getLast?.map .putBack
  else if w.stats.dropped < v.stats.dropped then
    some (if w.queue.rejected < v.queue.rejected then .rejected else .dropped)
  else some .dispatched

def serves (w : World) (item : WorkItem) : Bool := !(w.registry.matching item.protocol).isEmpty

def inHand? (w : World) (id : TaskId) : Option WorkItem :=
  (w.job? id).bind fun j => j.task.inHand?

variable {w u v : World} {id : TaskId} {e : Event} {most : Nat} {item : WorkItem}

theorem fate?_of_eq (h : v.stats.cycles = w.stats.cycles) : w.fate? v = none := if_pos h

structure Finishes (most : Nat) (w v : World) (items : List WorkItem) (item : WorkItem)
    (fate : Fate) : Prop where
  found : w.fate? v = some fate
  lawful : ∀ origin, (Lap.mk origin item (w.serves item) fate).Lawful most
  items : v.queue.items = items ++ fate.next?.toList
  cycles : v.stats.cycles = w.stats.cycles + 1

theorem cycles_record (s : CrawlStats) {o : Outcome} (h : o ≠ .stopped) :
    (s.record o).cycles = s.cycles + 1 := by
  cases o <;> first | rfl | exact absurd rfl h

theorem worked_finishes {t : CrawlTask} (hp : t.crawler.config.requeue = ⟨some most⟩)
    (hm : most ≤ WorkItem.maxAttempts) (hs : u.stats = w.stats)
    (hr : u.queue.rejected = w.queue.rejected) (hg : u.registry = w.registry) (activity : Nat)
    (item : WorkItem) (hv : v.stats = (u.worked t activity item).stats)
    (hq : v.queue = (u.worked t activity item).queue) :
    ∃ fate, Finishes most w v u.queue.items item fate ∧ v.queue.taken = u.queue.taken := by
  have hc := Cycle.run_course hm u.registry u.queue item
  simp only [worked, hp, hs] at hv hq
  have hcycles : v.stats.cycles = w.stats.cycles + 1 := by
    rw [hv]
    exact cycles_record _ (Cycle.run_outcome _ _ _ _).1.1
  have htaken : v.queue.taken = u.queue.taken := by
    rw [hq]
    exact hc.taken
  rw [hg] at hc hv hq
  generalize Cycle.run ⟨some most⟩ w.registry u.queue item = c at hc hv hq
  have ends (fate : Fate) (hf : w.fate? v = some fate)
      (hl : ∀ origin, (Lap.mk origin item (w.serves item) fate).Lawful most)
      (hi : v.queue.items = u.queue.items ++ fate.next?.toList) :
      ∃ fate, Finishes most w v u.queue.items item fate ∧ v.queue.taken = u.queue.taken :=
    ⟨fate, ⟨hf, hl, hi, hcycles⟩, htaken⟩
  cases hc with
  | dispatched n hn ho hcq =>
    rw [ho] at hv
    refine ends .dispatched ?_ (fun o => ⟨?_, ?_, fun _ hf => by cases hf⟩) ?_
    · simp [fate?, hv, CrawlStats.record]
    · simp [serves, hn]
    · simp [serves, hn]
    · simp [hq, hcq, Fate.next?]
  | dropped n hn hl ho hcq =>
    rw [ho] at hv
    refine ends .dropped ?_ (fun o => ⟨?_, ?_, fun _ hf => by cases hf⟩) ?_
    · simp [fate?, hv, hq, hcq, hr, CrawlStats.record]
    · simp [serves, hn]
    · simp [serves, hn, hl]
    · simp [hq, hcq, Fate.next?]
  | rejected hn hl ho hcq =>
    rw [ho] at hv
    refine ends .rejected ?_ (fun o => ⟨?_, ?_, fun _ hf => by cases hf⟩) ?_
    · simp [fate?, hv, hq, hcq, hr, CrawlStats.record]
    · simp [serves, hn]
    · simp [Nat.not_le.2 hl]
    · simp [hq, hcq, Fate.next?]
  | putBack next b hn hl hs ho hcq =>
    rw [ho] at hv
    refine ends (.putBack next) ?_ (fun o => ⟨?_, ?_, fun next' hf => ?_⟩) ?_
    · simp [fate?, hv, hq, hcq, CrawlStats.record]
    · simp [serves, hn]
    · have hle : item.recorded < most :=
        Nat.lt_of_le_of_lt (Nat.min_le_left _ _) (hs.attempts ▸ hl)
      simp [Nat.not_le.2 hle]
    · cases hf
      exact ⟨by simp [serves, hn], hl, hs⟩
    · simp [hq, hcq, Fate.next?]

inductive Passage (most : Nat) (w : World) (id : TaskId) (v : World) : Prop
  | idle (hi : v.queue.items = w.queue.items) (ht : v.queue.taken = w.queue.taken)
    (hc : v.stats.cycles = w.stats.cycles) (hh : v.hands.Perm w.hands)
  | takes (item : WorkItem) (hi : w.queue.items = item :: v.queue.items)
    (ht : v.queue.taken = w.queue.taken + 1) (hc : v.stats.cycles = w.stats.cycles)
    (hh : w.hands.Perm (w.otherHands id)) (hh' : v.hands.Perm ((id, item) :: w.otherHands id))
  | works (item : WorkItem) (rest : List WorkItem) (fate : Fate)
    (hi : w.queue.items = item :: rest) (ht : v.queue.taken = w.queue.taken + 1)
    (hf : Finishes most w v rest item fate) (hh : w.hands.Perm (w.otherHands id))
    (hh' : v.hands.Perm (w.otherHands id))
  | completes (item : WorkItem) (fate : Fate) (hi : w.inHand? id = some item)
    (ht : v.queue.taken = w.queue.taken) (hf : Finishes most w v w.queue.items item fate)
    (hh : w.hands.Perm ((id, item) :: w.otherHands id)) (hh' : v.hands.Perm (w.otherHands id))

theorem hands_complete {t : CrawlTask} {activity : Nat} (hm : t.mode = .steady activity)
    (w : World) (id : TaskId) (item : WorkItem) :
    (t.complete w id item).hands = w.otherHands id ∧
      (t.complete w id item).stats = (w.worked t activity item).stats ∧
      (t.complete w id item).queue = (w.worked t activity item).queue := by
  refine ⟨traits_complete Task.isTrait_inHand? hm w id item, ?_⟩
  rw [CrawlTask.complete_eq hm]
  split <;> exact ⟨rfl, rfl⟩

theorem round_passage {served : Served} {t : CrawlTask} (h : w.Sound none 0 served)
    (hj : ⟨id, .crawl t⟩ ∈ w.jobs) (hp : t.crawler.config.requeue = ⟨some most⟩)
    (hm : most ≤ WorkItem.maxAttempts) (hr : t.Round w id v) : w.Passage most id v := by
  have hw := hands_of_mem h hj
  have free (hn : ∀ item, t.stage ≠ .matching item) : w.hands.Perm (w.otherHands id) := by
    cases hs : t.stage with
    | matching item => exact absurd hs (hn item)
    | _ => simpa [Job.hand, Task.inHand?, hs] using hw
  cases hr with
  | rests => exact .idle rfl rfl rfl (.refl _)
  | ends b r hn => exact .idle rfl rfl rfl (free hn).symm
  | again b seen hs =>
    refine .idle rfl rfl rfl ?_
    rw [hands_keepFirst]
    exact (free (hs.searches w).no_item).symm
  | waits b ticket deadline seen hs =>
    refine .idle rfl rfl rfl ?_
    rw [hands_keepLast]
    exact (List.Perm.of_eq (List.append_nil _)).trans (free hs.no_item).symm
  | takes item rest b activity hs hi ha =>
    refine .takes item hi rfl rfl (free hs.no_item) ?_
    rw [hands_keepLast]
    exact List.perm_append_comm
  | works item rest b activity hs hi ha =>
    obtain ⟨hh, hst, hq⟩ := hands_complete ha (w.taken rest b activity) id item
    obtain ⟨fate, hf, ht⟩ := worked_finishes (w := w) (u := w.taken rest b activity) hp hm rfl rfl
      rfl activity item hst hq
    exact .works item rest fate hi ht hf (free hs.no_item) (.of_eq hh)
  | completes item activity hs ha =>
    obtain ⟨hh, hst, hq⟩ := hands_complete ha w id item
    obtain ⟨fate, hf, ht⟩ := worked_finishes (w := w) hp hm rfl rfl rfl activity item hst hq
    refine .completes item fate ?_ ht hf ?_ (.of_eq hh)
    · rw [inHand?, h.job?_of_mem hj]
      simp [Task.inHand?, hs]
    · simpa [Job.hand, Task.inHand?, hs] using hw

end World

/-- A world, and where its items come from: the origins of those that are queued, in their order,
the origin of what each crawler has taken, and the laps there were, the latest first. -/
structure Chronicle where
  world : World
  line : List Nat
  taker : TaskId → Nat
  laps : List Lap

namespace Chronicle

open World

def opened (w : World) : Chronicle :=
  ⟨w, List.range w.queue.items.length, fun id => w.queue.items.length + id, []⟩

def turn (c : Chronicle) (id : TaskId) (v : World) : Chronicle :=
  let took := c.world.queue.taken < v.queue.taken
  let origin := if took then c.line.headD 0 else c.taker id
  let item? := if took then c.world.queue.items.head? else c.world.inHand? id
  let line := if took then c.line.tail else c.line
  let taker := Function.update c.taker id origin
  match item?, c.world.fate? v with
  | some item, some fate =>
    ⟨v, line ++ (fate.next?.map fun _ => origin).toList, taker,
      ⟨origin, item, c.world.serves item, fate⟩ :: c.laps⟩
  | _, _ => ⟨v, line, taker, c.laps⟩

def react (c : Chronicle) (e : Event) : Chronicle :=
  match e with
  | .step (.turn id _) => c.turn id (c.world.react e)
  | _ => { c with world := c.world.react e }

def run (c : Chronicle) (events : List Event) : Chronicle := events.foldl react c

def stock (c : Chronicle) : Multiset (Nat × WorkItem) :=
  ↑(c.line.zip c.world.queue.items) + ↑(c.world.hands.map fun x => (c.taker x.1, x.2))

def lapsOf (c : Chronicle) (origin : Nat) : List Lap :=
  c.laps.filter fun l => l.origin == origin

variable {c d : Chronicle} {e : Event} {id : TaskId} {v : World} {most : Nat}

theorem world_turn (c : Chronicle) (id : TaskId) (v : World) : (c.turn id v).world = v := by
  unfold turn
  simp only
  split <;> rfl

theorem world_react (c : Chronicle) (e : Event) : (c.react e).world = c.world.react e := by
  unfold react
  split
  · exact world_turn c _ _
  · rfl

theorem world_run (c : Chronicle) (events : List Event) :
    (c.run events).world = c.world.play events := by
  induction events generalizing c with
  | nil => rfl
  | cons e rest ih => exact (ih (c.react e)).trans (congrArg (·.play rest) (world_react c e))

inductive Goes (most : Nat) (c d : Chronicle) : Prop
  | on (hs : d.stock = c.stock) (hl : d.laps = c.laps)
    (hc : d.world.stats.cycles = c.world.stats.cycles)
  | lap (l : Lap) (rest : Multiset (Nat × WorkItem)) (hl : l.Lawful most)
    (hs : c.stock = (l.origin, l.item) ::ₘ rest)
    (hs' : d.stock = ↑(l.fate.next?.toList.map (l.origin, ·)) + rest)
    (hl' : d.laps = l :: c.laps) (hc : d.world.stats.cycles = c.world.stats.cycles + 1)

def Aligned (c : Chronicle) : Prop := c.line.length = c.world.queue.items.length

theorem stock_of_hands {hands : List (TaskId × WorkItem)} (h : c.world.hands.Perm hands) :
    c.stock = ↑(c.line.zip c.world.queue.items) + ↑(hands.map fun x => (c.taker x.1, x.2)) := by
  rw [stock, Multiset.coe_eq_coe.2 (h.map _)]

theorem map_update {hands : List (TaskId × WorkItem)} (h : ∀ x ∈ hands, x.1 ≠ id)
    (taker : TaskId → Nat) (origin : Nat) :
    (hands.map fun x => (Function.update taker id origin x.1, x.2)) =
      hands.map fun x => (taker x.1, x.2) :=
  List.map_congr_left fun x hx => by rw [Function.update_of_ne (h x hx)]

theorem ne_of_mem_otherHands {w : World} {x : TaskId × WorkItem} (h : x ∈ w.otherHands id) :
    x.1 ≠ id := by
  obtain ⟨j, hj, hh⟩ := List.mem_filterMap.1 h
  rw [Job.id_of_mem_hand hh]
  exact (mem_jobs_removeJob.1 hj).2

theorem zip_putBack {line : List Nat} {items : List WorkItem} (h : line.length = items.length)
    (origin : Nat) (next? : Option WorkItem) :
    (line ++ (next?.map fun _ => origin).toList).zip (items ++ next?.toList) =
      line.zip items ++ next?.toList.map (origin, ·) := by
  rw [List.zip_append h]
  cases next? <;> rfl

theorem Aligned.cons (h : c.Aligned) {item : WorkItem} {rest : List WorkItem}
    (hi : c.world.queue.items = item :: rest) :
    ∃ origin line, c.line = origin :: line ∧ line.length = rest.length := by
  cases hl : c.line with
  | nil =>
    rw [Aligned, hl, hi] at h
    cases h
  | cons origin line =>
    rw [Aligned, hl, hi] at h
    exact ⟨origin, line, rfl, Nat.succ.inj h⟩

theorem still_goes (ha : c.Aligned) (hi : v.queue.items = c.world.queue.items)
    (hc : v.stats.cycles = c.world.stats.cycles) (hh : v.hands.Perm c.world.hands) :
    Aligned { c with world := v } ∧ Goes most c { c with world := v } := by
  refine ⟨ha.trans (by rw [hi]), .on ?_ rfl hc⟩
  rw [stock_of_hands (c := { c with world := v }) hh]
  simp only [hi]
  rfl

theorem turn_idle (ht : v.queue.taken = c.world.queue.taken)
    (hc : v.stats.cycles = c.world.stats.cycles) (id : TaskId) :
    c.turn id v = { c with world := v } := by
  simp [turn, ht, fate?_of_eq hc]

theorem turn_goes (ha : c.Aligned) (hp : c.world.Passage most id v) :
    (c.turn id v).Aligned ∧ Goes most c (c.turn id v) := by
  have hn : ∀ x ∈ c.world.otherHands id, x.1 ≠ id := fun _ hx => ne_of_mem_otherHands hx
  cases hp with
  | idle hi ht hc hh =>
    rw [turn_idle ht hc]
    exact still_goes ha hi hc hh
  | takes item hi ht hc hh hh' =>
    obtain ⟨origin, line, hl, hlen⟩ := ha.cons hi
    have he : c.turn id v = ⟨v, line, Function.update c.taker id origin, c.laps⟩ := by
      simp [turn, ht, fate?_of_eq hc, hl, hi]
    rw [he]
    refine ⟨hlen, .on ?_ rfl hc⟩
    rw [stock_of_hands (c := ⟨v, line, _, c.laps⟩) hh', stock_of_hands hh, hl, hi]
    simp only [List.map_cons, Function.update_self, map_update hn, List.zip_cons_cons]
    rw [← Multiset.cons_coe, ← Multiset.cons_coe, Multiset.add_cons, Multiset.cons_add]
  | works item rest fate hi ht hf hh hh' =>
    obtain ⟨origin, line, hl, hlen⟩ := ha.cons hi
    have he : c.turn id v = ⟨v, line ++ (fate.next?.map fun _ => origin).toList,
        Function.update c.taker id origin,
        ⟨origin, item, c.world.serves item, fate⟩ :: c.laps⟩ := by
      simp [turn, ht, hf.found, hl, hi]
    rw [he]
    refine ⟨?_, .lap _ (↑(line.zip rest) + ↑((c.world.otherHands id).map fun x =>
      (c.taker x.1, x.2))) (hf.lawful origin) ?_ ?_ rfl hf.cycles⟩
    · rw [Aligned, hf.items]
      cases fate.next? <;> simp [hlen]
    · rw [stock_of_hands hh, hl, hi]
      rfl
    · rw [stock_of_hands (c := ⟨v, _, _, _⟩) hh']
      simp only [hf.items, zip_putBack hlen, map_update hn, ← Multiset.coe_add]
      rw [← add_assoc]
      exact congrArg (· + _) (add_comm _ _)
  | completes item fate hi ht hf hh hh' =>
    have he : c.turn id v = ⟨v, c.line ++ (fate.next?.map fun _ => c.taker id).toList,
        c.taker, ⟨c.taker id, item, c.world.serves item, fate⟩ :: c.laps⟩ := by
      simp [turn, ht, hf.found, hi]
    rw [he]
    refine ⟨?_, .lap _ (↑(c.line.zip c.world.queue.items) + ↑((c.world.otherHands id).map fun x =>
      (c.taker x.1, x.2))) (hf.lawful (c.taker id)) ?_ ?_ rfl hf.cycles⟩
    · have hlen : c.line.length = c.world.queue.items.length := ha
      rw [Aligned, hf.items]
      cases fate.next? <;> simp [hlen]
    · rw [stock_of_hands hh, List.map_cons, ← Multiset.cons_coe, Multiset.add_cons]
    · rw [stock_of_hands (c := ⟨v, _, _, _⟩) hh']
      simp only [hf.items, zip_putBack ha, ← Multiset.coe_add]
      rw [← add_assoc]
      exact congrArg (· + _) (add_comm _ _)

end Chronicle

namespace World

variable {w : World} {e : Event} {config : CrawlerConfig}

structure Alike (config : CrawlerConfig) (w : World) : Prop where
  manager : w.manager.crawler = config
  crawlers : ∀ (id : TaskId) (t : CrawlTask), ⟨id, .crawl t⟩ ∈ w.jobs → t.crawler.config = config

theorem Alike.react (h : w.Alike config) (e : Event) : (w.react e).Alike config := by
  have ht := w.tends_react e
  refine ⟨ht.crawler.trans h.manager, fun id t hm => ?_⟩
  rcases ht.jobs _ hm with hm | ⟨k, hk, -, hg⟩ | ⟨s, hm, hs⟩ | ⟨-, hs⟩
  · exact h.crawlers id t hm
  · obtain ⟨i, signalFirst, rfl, ha⟩ := of_actor_eq_job hk
    obtain ⟨-, hw, rfl⟩ := mem_of_acting? ha
    rcases k with ⟨i, task⟩
    cases task with
    | crawl s => exact (congrArg Crawler.config hg.1).trans (h.crawlers i s hw)
    | _ => exact hg.elim
  · cases hs
    exact h.crawlers id s hm
  · rcases ha : w.actor e with ⟨i, task⟩ | _ | s
    · rw [ha] at hs
      cases task with
      | manage m => exact hs.1.trans h.manager
      | _ => exact hs.elim
    · rw [ha] at hs
      exact hs.elim
    · rw [ha] at hs
      obtain ⟨rfl, he⟩ := hs
      cases he

theorem setup_alike (s : Setup) : s.world.Alike s.crawler := by
  have hw : s.world.manager.crawler = s.crawler := by
    simp only [Setup.world, withManager]
    split <;> rfl
  refine ⟨hw, fun id t hm => ?_⟩
  rw [(setup_fresh s).1] at hm
  cases hm

def Undisturbed (w : World) : List Event → Prop
  | [] => True
  | e :: rest => (w.isCrawling e = false → (w.react e).queue.items = w.queue.items) ∧
    (w.react e).Undisturbed rest

theorem react_passage {most : Nat} (h : w.Settled) (ha : w.Alike config)
    (hp : config.requeue = ⟨some most⟩) (hm : most ≤ WorkItem.maxAttempts) {id : TaskId}
    {signalFirst : Bool} (hc : w.isCrawling (.step (.turn id signalFirst)) = true) :
    w.Passage most id (w.react (.step (.turn id signalFirst))) := by
  obtain ⟨n, hs⟩ := h.sound
  obtain ⟨i, b, t, he, hj⟩ := of_isCrawling hc
  cases he
  have hmem := (mem_of_job? hj).1
  obtain ⟨activity, hmode⟩ := hs.isSteady hmem
  simp only [react, step, hj]
  split
  · exact round_passage hs hmem ((ha.crawlers _ _ hmem).symm ▸ hp) hm (t.turn_round hmode _)
  · exact .idle rfl rfl rfl (.refl _)

end World

namespace Chronicle

open World

variable {c : Chronicle} {e : Event} {most : Nat} {config : CrawlerConfig}

theorem react_goes (h : c.world.Settled) (hk : c.world.Alike config)
    (hp : config.requeue = ⟨some most⟩) (hm : most ≤ WorkItem.maxAttempts) (ha : c.Aligned)
    (hu : c.world.isCrawling e = false → (c.world.react e).queue.items = c.world.queue.items) :
    (c.react e).Aligned ∧ Goes most c (c.react e) := by
  by_cases hc : c.world.isCrawling e = true
  · obtain ⟨id, signalFirst, t, rfl, -⟩ := of_isCrawling hc
    exact turn_goes ha (react_passage h hk hp hm hc)
  · rw [Bool.not_eq_true] at hc
    have hi := hu hc
    obtain ⟨hh, hcy⟩ := hands_react h hc
    have he : c.react e = { c with world := c.world.react e } := by
      unfold react
      split
      · exact turn_idle (taken_react h hc hi) hcy _
      · rfl
    rw [he]
    exact still_goes ha hi hcy hh

def toGo (most : Nat) (stock : Multiset (Nat × WorkItem)) : Nat :=
  (stock.map fun x => x.2.laps most).sum

def heirs (stock : Multiset (Nat × WorkItem)) (origin : Nat) : Multiset WorkItem :=
  (stock.filter fun x => x.1 = origin).map Prod.snd

theorem toGo_cons (x : Nat × WorkItem) (stock : Multiset (Nat × WorkItem)) :
    toGo most (x ::ₘ stock) = x.2.laps most + toGo most stock := by
  rw [toGo, Multiset.map_cons, Multiset.sum_cons, toGo]

theorem heirs_cons (x : Nat × WorkItem) (stock : Multiset (Nat × WorkItem)) (origin : Nat) :
    heirs (x ::ₘ stock) origin =
      if x.1 = origin then x.2 ::ₘ heirs stock origin else heirs stock origin := by
  unfold heirs
  split
  · rw [Multiset.filter_cons_of_pos _ ‹_›, Multiset.map_cons]
  · rw [Multiset.filter_cons_of_neg _ ‹_›]

section Next

variable (l : Lap) (rest : Multiset (Nat × WorkItem))

theorem toGo_next (hl : l.Lawful most) :
    toGo most (↑(l.fate.next?.toList.map (l.origin, ·)) + rest) + 1 ≤
      l.item.laps most + toGo most rest := by
  cases hf : l.fate with
  | putBack next =>
    obtain ⟨-, hm, hs⟩ := hl.putBack next hf
    have ha := hs.attempts
    show toGo most ({(l.origin, next)} + rest) + 1 ≤ _
    rw [Multiset.singleton_add, toGo_cons]
    simp only [WorkItem.laps]
    omega
  | _ =>
    show toGo most (0 + rest) + 1 ≤ _
    rw [zero_add, WorkItem.laps]
    omega

theorem heirs_next (origin : Nat) :
    heirs (↑(l.fate.next?.toList.map (l.origin, ·)) + rest) origin =
      if l.origin = origin then ↑l.fate.next?.toList + heirs rest origin
      else heirs rest origin := by
  cases l.fate.next? with
  | some next =>
    show heirs ({(l.origin, next)} + rest) origin = _
    rw [Multiset.singleton_add, heirs_cons]
    rfl
  | none =>
    show heirs (0 + rest) origin = _
    rw [zero_add]
    split
    · exact (zero_add _).symm
    · rfl

end Next

structure Kept (most : Nat) (c d : Chronicle) : Prop where
  cycles : d.world.stats.cycles + c.laps.length = c.world.stats.cycles + d.laps.length
  spent : d.laps.length + toGo most d.stock ≤ c.laps.length + toGo most c.stock
  lawful : ∀ l ∈ d.laps, l.Lawful most
  trails : ∀ origin item, heirs c.stock origin = {item} →
    ∃ left, Trail most item (d.lapsOf origin) left ∧ heirs d.stock origin = ↑left.toList
  known : ∀ l ∈ d.laps, ∃ x ∈ c.stock, x.1 = l.origin
  origins : ∀ x ∈ d.stock, ∃ y ∈ c.stock, y.1 = x.1

theorem kept_opened (w : World) : Kept most (opened w) (opened w) where
  cycles := rfl
  spent := Nat.le_refl _
  lawful l hl := by cases hl
  trails _ item hi := ⟨some item, .start, hi⟩
  known l hl := by cases hl
  origins x hx := ⟨x, hx, rfl⟩

theorem Kept.goes {d' : Chronicle} (h : Kept most c d) (hg : Goes most d d') : Kept most c d' := by
  have hcycles := h.cycles
  have hspent := h.spent
  cases hg with
  | on hs hl hc =>
    refine ⟨?_, ?_, hl ▸ h.lawful, fun origin item hi => ?_, hl ▸ h.known, hs ▸ h.origins⟩
    · rwa [hc, hl]
    · rwa [hs, hl]
    · obtain ⟨left, ht, hh⟩ := h.trails origin item hi
      refine ⟨left, ?_, hs ▸ hh⟩
      unfold lapsOf
      rwa [hl]
  | lap l rest hl hs hs' hl' hc =>
    have hstock : ∀ x ∈ rest, x ∈ d.stock := fun x hx => hs ▸ Multiset.mem_cons_of_mem hx
    obtain ⟨y, hy, ho⟩ := h.origins (l.origin, l.item) (hs ▸ Multiset.mem_cons_self _ _)
    refine ⟨?_, ?_, ?_, fun origin item hi => ?_, ?_, fun x hx => ?_⟩
    · rw [hc, hl', List.length_cons]
      omega
    · have hn := toGo_next l rest hl
      rw [hs, toGo_cons] at hspent
      rw [hs', hl', List.length_cons]
      simp only at hspent
      omega
    · rw [hl']
      exact List.forall_mem_cons.2 ⟨hl, h.lawful⟩
    · obtain ⟨left, ht, hh⟩ := h.trails origin item hi
      rw [hs, heirs_cons] at hh
      rw [hs', heirs_next, lapsOf, hl', List.filter_cons]
      by_cases he : l.origin = origin
      · -- The lap is one of this lineage, of which nothing else is left.
        rw [if_pos he] at hh
        simp only [he, if_true, beq_self_eq_true]
        cases left with
        | none => exact absurd hh (Multiset.cons_ne_zero)
        | some y =>
          obtain ⟨rfl, hr⟩ := (Multiset.singleton_eq_cons_iff _).1 hh.symm
          exact ⟨_, .lap l ht hl, by rw [hr, add_zero]⟩
      · rw [if_neg he] at hh
        simp only [if_neg he, beq_iff_eq]
        exact ⟨left, ht, hh⟩
    · rw [hl']
      exact List.forall_mem_cons.2 ⟨⟨y, hy, ho⟩, h.known⟩
    · rw [hs'] at hx
      rcases Multiset.mem_add.1 hx with hx | hx
      · obtain ⟨next, -, rfl⟩ := List.mem_map.1 (Multiset.mem_coe.1 hx)
        exact ⟨y, hy, ho⟩
      · exact h.origins x (hstock x hx)

theorem kept_run (h : d.world.Settled) (hk : d.world.Alike config)
    (hp : config.requeue = ⟨some most⟩) (hm : most ≤ WorkItem.maxAttempts) (ha : d.Aligned)
    (hc : Kept most c d) {events : List Event} (hu : d.world.Undisturbed events) :
    (d.run events).Aligned ∧ Kept most c (d.run events) := by
  induction events generalizing d with
  | nil => exact ⟨ha, hc⟩
  | cons e rest ih =>
    obtain ⟨ha', hg⟩ := react_goes h hk hp hm ha hu.1
    have hw := world_react d e
    exact ih (hw ▸ h.react e) (hw ▸ hk.react e) ha' (hc.goes hg) (hw ▸ hu.2)

theorem aligned_opened (w : World) : (opened w).Aligned := List.length_range

theorem toGo_stock (ha : c.Aligned) (most : Nat) : toGo most c.stock =
    ((c.world.queue.items ++ c.world.hands.map Prod.snd).map (·.laps most)).sum := by
  have hz : (c.line.zip c.world.queue.items).map (fun x => x.2.laps most) =
      c.world.queue.items.map (·.laps most) := by
    have hs := congrArg (List.map fun item : WorkItem => item.laps most)
      (List.map_snd_zip (Nat.le_of_eq ha.symm))
    rwa [List.map_map] at hs
  simp only [toGo, stock, Multiset.coe_add, Multiset.map_coe, Multiset.sum_coe, List.map_append,
    List.map_map, hz]
  rfl

theorem card_stock (ha : c.Aligned) :
    c.stock.card = c.world.queue.items.length + c.world.midCycle := by
  have hl : c.line.length = c.world.queue.items.length := ha
  rw [stock, Multiset.card_add, Multiset.coe_card, Multiset.coe_card, List.length_zip,
    List.length_map, length_hands, hl, Nat.min_self]

theorem card_le_toGo (most : Nat) (stock : Multiset (Nat × WorkItem)) :
    stock.card ≤ toGo most stock := by
  induction stock using Multiset.induction_on with
  | empty => exact Nat.zero_le _
  | cons x stock ih =>
    rw [Multiset.card_cons, toGo_cons, WorkItem.laps]
    omega

theorem nodup_opened {w : World} {served : Served} (h : w.Sound none 0 served) :
    ((opened w).stock.map Prod.fst).Nodup := by
  have hz : ((List.range w.queue.items.length).zip w.queue.items).map Prod.fst =
      List.range w.queue.items.length :=
    List.map_fst_zip (Nat.le_of_eq List.length_range)
  simp only [stock, opened, Multiset.coe_add, Multiset.map_coe, List.map_append, hz,
    List.map_map, Multiset.coe_nodup]
  refine List.nodup_append.2 ⟨List.nodup_range, ?_, fun a hl b hb he => ?_⟩
  · have hd := (nodup_hands h).map (f := fun id => w.queue.items.length + id)
      fun a b hab => Nat.add_left_cancel hab
    rwa [List.map_map] at hd
  · obtain ⟨x, -, rfl⟩ := List.mem_map.1 hb
    have := List.mem_range.1 hl
    simp only [Function.comp_apply] at he
    omega

theorem heirs_of_nodup {stock : Multiset (Nat × WorkItem)} (h : (stock.map Prod.fst).Nodup)
    {origin : Nat} {item : WorkItem} (hm : (origin, item) ∈ stock) :
    heirs stock origin = {item} := by
  obtain ⟨rest, rfl⟩ := Multiset.exists_cons_of_mem hm
  rw [Multiset.map_cons, Multiset.nodup_cons] at h
  have hr : heirs rest origin = 0 := by
    rw [heirs, Multiset.filter_eq_nil.2, Multiset.map_zero]
    exact fun x hx he => h.1 (Multiset.mem_map.2 ⟨x, hx, he⟩)
  rw [heirs_cons, if_pos rfl, hr]
  rfl

end Chronicle

section Progress

variable {w : World} {id : TaskId} {item : WorkItem} {rest : List WorkItem} {activity : Nat}

structure CrawlTask.Free (w : World) (t : CrawlTask) : Prop where
  stage : t.stage = .looking
  raised : (w.signal t.signal).raised = false
  isAlive : (w.signal t.signal).isAlive = true
  shows : w.shows (w.now + t.crawler.config.waitForWorkItem.nanos) = true
  answers : w.isGated = false

theorem CrawlTask.Free.cycles {t : CrawlTask} (h : t.Free w) (hm : t.mode = .steady activity)
    (hi : w.queue.items = item :: rest) (signalFirst : Bool) :
    (t.turn w id signalFirst).stats.cycles = w.stats.cycles + 1 := by
  have hg (q : WorkQueue) : (({ w with queue := q } : World).changeActivity activity
      Activity.start).isGated = false := h.answers
  simp only [turn, h.stage, look, h.raised, h.isAlive, h.shows, Bool.not_true, Bool.false_and,
    Bool.or_self, Bool.false_eq_true, if_false, WorkQueue.attempt_of_cons hi, follow, takeUp, hm,
    hg]
  rw [(World.hands_complete hm _ id item).2.1]
  exact World.cycles_record _ (Cycle.run_outcome _ _ _ _).1.1

theorem World.cycles_react {served : Served} (h : w.Sound none 0 served) {t : CrawlTask}
    (hm : ⟨id, .crawl t⟩ ∈ w.jobs) (hf : t.Free w) (hi : w.queue.items ≠ []) (signalFirst : Bool) :
    (w.react (.step (.turn id signalFirst))).stats.cycles = w.stats.cycles + 1 := by
  obtain ⟨activity, ha⟩ := h.isSteady hm
  obtain ⟨item, rest, hi⟩ := List.exists_cons_of_ne_nil hi
  rw [h.react_turn hm (by simp [Task.isReady, CrawlTask.isReady, hf.stage])]
  exact hf.cycles ha hi signalFirst

end Progress

section Theorem

open World

/-- Under a policy that allows so many attempts, and if nothing is put into a queue from outside,
the queue gets empty: there are no more cycles than its items and those in hand may go through, and
as long as an item is queued each turn of a crawler that is free to work ends a cycle. All that is
queued or in hand descends from what was there, and so does the item of each lap; an item is put
back so often only, and has one last lap when nothing is left of it. -/
theorem requeueing_ends (s : Setup) (most : Nat) (hp : s.crawler.requeue = ⟨some most⟩)
    (hm : most ≤ WorkItem.maxAttempts) (before events : List Event)
    (hu : (s.world.play before).Undisturbed events) :
    let w := s.world.play before
    let c := Chronicle.opened w
    let d := c.run events
    let v := d.world
    let total := ((w.queue.items ++ w.hands.map Prod.snd).map fun item =>
      max 1 (most - item.attempts)).sum
    v = w.play events ∧
    v.stats.cycles = w.stats.cycles + d.laps.length ∧
    d.laps.length ≤ total ∧
    (d.laps.length = total → v.queue.items = [] ∧ v.midCycle = 0) ∧
    (v.queue.items ≠ [] → ∀ id t signalFirst, ⟨id, .crawl t⟩ ∈ v.jobs → t.Free v →
      (v.react (.step (.turn id signalFirst))).stats.cycles = v.stats.cycles + 1) ∧
    (∀ l ∈ d.laps, l.Lawful most ∧ ∃ x ∈ c.stock, x.1 = l.origin) ∧
    (∀ x ∈ d.stock, ∃ y ∈ c.stock, y.1 = x.1) ∧
    ∀ origin item, (origin, item) ∈ c.stock →
      (∃ left, Trail most item (d.lapsOf origin) left ∧
        Chronicle.heirs d.stock origin = ↑left.toList) ∧
      (d.lapsOf origin).countP (fun l => !l.isLast) ≤ most - 1 - item.attempts ∧
      (d.lapsOf origin).countP Lap.isLast + (Chronicle.heirs d.stock origin).card = 1 ∧
      (v.queue.items = [] → v.midCycle = 0 → (d.lapsOf origin).countP Lap.isLast = 1) := by
  intro w c d v total
  have hw : w.Settled := play_settled s before
  obtain ⟨n, hs⟩ := hw.sound
  have hk : w.Alike s.crawler := play_induction (fun _ e _ h => h.react e) (setup_alike s)
  obtain ⟨ha, h⟩ := Chronicle.kept_run (d := c) hw hk hp hm (Chronicle.aligned_opened w)
    (Chronicle.kept_opened w) hu
  have hv : v = w.play events := Chronicle.world_run c events
  have hcard : d.stock.card = v.queue.items.length + v.midCycle := Chronicle.card_stock ha
  have hspent : d.laps.length + Chronicle.toGo most d.stock ≤ total := by
    have ht := Chronicle.toGo_stock (Chronicle.aligned_opened w) most
    exact (h.spent.trans (Nat.le_of_eq (Nat.zero_add _))).trans (Nat.le_of_eq ht)
  refine ⟨hv, h.cycles, Nat.le_trans (Nat.le_add_right _ _) hspent, fun he => ?_,
    fun hi id t signalFirst hmem hf => ?_, fun l hl => ⟨h.lawful l hl, h.known l hl⟩, h.origins,
    fun origin item hmem => ?_⟩
  · have hle := Chronicle.card_le_toGo most d.stock
    have hz : v.queue.items.length + v.midCycle = 0 := by
      rw [he] at hspent
      omega
    exact ⟨List.length_eq_zero_iff.1 (Nat.eq_zero_of_add_eq_zero hz).1,
      (Nat.eq_zero_of_add_eq_zero hz).2⟩
  · obtain ⟨m, hvs⟩ := (hv ▸ hw.play events : v.Settled).sound
    exact cycles_react hvs hmem hf hi signalFirst
  · obtain ⟨left, ht, hh⟩ := h.trails origin item
      (Chronicle.heirs_of_nodup (Chronicle.nodup_opened hs) hmem)
    have hlast := ht.last_iff
    refine ⟨⟨left, ht, hh⟩, ht.putBacks_le, ?_, fun hi hz => ?_⟩
    · rw [hh]
      exact hlast
    · have hd : d.stock = 0 := Multiset.card_eq_zero.1 (by rw [hcard, hi, hz]; rfl)
      rw [hd] at hh
      rwa [← Multiset.coe_card, ← hh] at hlast

def trying : Setup :=
  { Account.lone with crawler := { CrawlerConfig.standard with requeue := ⟨some 2⟩ } }

def twoOffered : List Event :=
  [.launch (.manage ⟨.start, .entering⟩), .step (.turn 0 true), .offer Account.unserved,
    .offer Account.unserved]

def roundTrips : List Event :=
  [.step (.turn 1 true), .step (.turn 1 true), .step (.turn 1 true), .register Account.failing,
    .step (.turn 1 true)]

theorem requeueing_ends_trying :
    trying.crawler.requeue = ⟨some 2⟩ ∧ 2 ≤ WorkItem.maxAttempts ∧
    (trying.world.play twoOffered).Undisturbed roundTrips ∧
    ((Chronicle.opened (trying.world.play twoOffered)).run roundTrips).laps.map
      (fun l => (l.origin, l.isLast, l.served)) =
        [(1, true, true), (0, true, false), (1, false, false), (0, false, false)] ∧
    ((Chronicle.opened (trying.world.play twoOffered)).run roundTrips).world.queue.items = [] := by
  have hm : 2 ≤ WorkItem.maxAttempts := by decide
  have hu : (trying.world.play twoOffered).Undisturbed roundTrips :=
    ⟨fun h => absurd h (by decide), fun h => absurd h (by decide), fun h => absurd h (by decide),
      fun _ => rfl, fun h => absurd h (by decide), trivial⟩
  have hl : ((Chronicle.opened (trying.world.play twoOffered)).run roundTrips).laps.map
      (fun l => (l.origin, l.isLast, l.served)) =
        [(1, true, true), (0, true, false), (1, false, false), (0, false, false)] := by decide
  refine ⟨rfl, hm, hu, hl, ?_⟩
  obtain ⟨-, -, -, hend, -⟩ := requeueing_ends trying 2 rfl hm twoOffered roundTrips hu
  have hlength := congrArg List.length hl
  rw [List.length_map] at hlength
  exact (hend (hlength.trans (by decide))).1

end Theorem

end CatalogCrawl

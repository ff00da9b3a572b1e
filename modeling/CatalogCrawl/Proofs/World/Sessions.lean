import CatalogCrawl.Proofs.World.Conservation
import CatalogCrawl.Proofs.World.Loading

namespace CatalogCrawl

namespace Task

def InLane : Task → Prop
  | .crawl t => t.results = 0
  | .call t => t.results = 0
  | .send .. => False
  | _ => True

theorem InLane.goesOn {t u : Task} (h : t.InLane) (hg : t.GoesOn u) : u.InLane := by
  unfold GoesOn at hg
  split at hg
  · exact hg.2.trans h
  · exact hg.2.trans h
  all_goals first | exact trivial | exact hg.elim

theorem inLane_of_isEntry {t : Task} (h : t.isEntry = true) (hs : ∀ i r due, t ≠ .send i r due) :
    t.InLane := by
  cases t with
  | crawl t => cases h
  | call t => cases h
  | send i r due => exact absurd rfl (hs i r due)
  | _ => trivial

end Task

theorem Actor.Starts.inLane {a : Actor} {config : CrawlerConfig} {t : Task}
    (h : a.Starts config t)
    (ha : ∀ k, a = .job k → k.task.InLane)
    (hs : ∀ t, a = .outside (some t) → ∀ i r due, t ≠ .send i r due) : t.InLane := by
  unfold Actor.Starts at h
  split at h
  · exact h.2
  · exact h.2.trans (ha _ rfl)
  · trivial
  · rw [h.1]
    exact Task.inLane_of_isEntry h.2 (hs _ rfl)
  · exact h.elim

def Happening.isInside : Happening → Bool
  | .event (.launch (.load _)) | .event (.launch (.send ..)) | .event (.results ..) => false
  | .dropSender _ => false
  | _ => true

theorem Happening.isPlain_of_isInside {x : Happening} (h : x.isInside = true) :
    x.isPlain = true := by
  cases x with
  | event e =>
    cases e with
    | launch t => cases t <;> first | rfl | cases h
    | results i q => cases h
    | _ => rfl
  | _ => rfl

theorem mapError_eq_ok {α β γ : Type} {f : α → β} {x : Except α γ} {v : γ} :
    x.mapError f = .ok v ↔ x = .ok v := by
  cases x <;> simp [Except.mapError]

theorem ResultQueue.of_make? {capacity senders : Nat} {q : ResultQueue}
    (h : make? capacity senders = .ok q) :
    q = .empty capacity senders ∧ 0 < capacity ∧ capacity ≤ maxCapacity := by
  unfold make? at h
  split at h
  · cases h
  · rename_i hn
    cases h
    exact ⟨rfl, by omega, by omega⟩

namespace World

variable {w v : World} {g : LoadLog} {a : Actor} {calm : Prop}

theorem lane_of_tends (h : ∀ j ∈ w.jobs, j.task.InLane) (ha : ∀ k, a = .job k → k.task.InLane)
    (hs : ∀ t, a = .outside (some t) → ∀ i r due, t ≠ .send i r due) (ht : w.Tends a calm v) :
    ∀ j ∈ v.jobs, j.task.InLane :=
  ht.forall_tasks h ha (fun _ _ hg hl => hl.goesOn hg) fun _ hst => hst.inLane ha hs

theorem length_accepted (w : World) (r : Response) :
    (w.accepted 0 (some (0, r))).length = (w.accepts (some (0, r))).toNat := by
  cases h : w.accepts (some (0, r)) <;> simp [accepted, h]

theorem stats_load (w : World) (t : LoadTask) : (t.effect w).stats = w.stats := by
  have stats_counted (v : World) (r : Response) (left : List Offer) :
      (t.counted v r left).stats = v.stats := by
    unfold LoadTask.counted
    split <;> rfl
  unfold LoadTask.effect
  split
  · split
    · rw [stats_counted]
      rfl
    · split <;> rfl
  · rw [stats_counted]
  · rw [stats_counted]
    unfold saveOffer look
    cases w.clock <;> rfl

theorem accepted_load (w : World) (i : Nat) (g : LoadLog) (t : LoadTask) :
    (g.load w i t).accepted = g.accepted := by
  unfold LoadLog.load
  split
  · split <;> rfl
  · rfl
  · rfl

theorem stats_evict (w : World) (t : EvictionTask) (signalFirst : Bool) :
    (t.effect w signalFirst).stats = w.stats := by
  unfold EvictionTask.effect
  split
  · unfold expireOffers look
    cases w.clock <;> rfl
  · rfl

theorem delivered_turn {t : Task} (h : t.InLane) (g : LoadLog) (signalFirst : Bool) :
    (t.effect w signalFirst).stats.delivered + g.accepted.length =
      w.stats.delivered + (g.turn w 0 signalFirst t).accepted.length := by
  cases t with
  | call t =>
    simp only [Task.effect, deliver, LoadLog.turn, Task.sending?, List.length_append]
    rcases hs : t.sending? w with _ | ⟨i, r⟩
    · simp [accepts, accepted]
    · have hi : i = 0 := (t.results_of_sending? hs).trans h
      rw [hi, length_accepted]
      omega
  | send i r due => exact h.elim
  | load t =>
    simp only [Task.effect, LoadLog.turn, stats_load, accepted_load]
  | evict t =>
    have ha : (g.turn w 0 signalFirst (.evict t)).accepted = g.accepted := by
      simp only [LoadLog.turn]
      split <;> rfl
    simp only [Task.effect, stats_evict, ha]
  | _ => simp [Task.effect, LoadLog.turn, Task.sending?, accepted]

theorem delivered_event {e : Event} (h : ∀ j ∈ w.jobs, j.task.InLane) (g : LoadLog) :
    (w.react e).stats.delivered + g.accepted.length =
      w.stats.delivered + (g.note w 0 (.event e)).accepted.length := by
  have ha : (w.effect e).Aside (w.actor e) False (w.react e) := react_aside False.elim
  rw [ha.delivered]
  cases e with
  | step s =>
    cases s with
    | turn id signalFirst =>
      simp only [effect, LoadLog.note]
      cases hj : w.acting? id with
      | none => rfl
      | some j => exact delivered_turn (h j (mem_of_acting? hj).2.1) g signalFirst
    | pass nanos => rfl
  | _ => rfl

structure Booked (w : World) (g : LoadLog) : Prop where
  loading : ∃ q, w.Loading 0 0 g q
  lane : ∀ j ∈ w.jobs, j.task.InLane
  delivered : w.stats.delivered = g.accepted.length
  sound : ∃ n, w.Sound none 0 (some n)

theorem Booked.event (h : w.Booked g) {e : Event} (hx : (Happening.event e).isInside = true) :
    (w.react e).Booked (g.note w 0 (.event e)) := by
  obtain ⟨q, hq⟩ := h.loading
  obtain ⟨p, hp, -⟩ := hq.meet_event (Happening.isPlain_of_isInside hx)
  obtain ⟨n, hn⟩ := h.sound
  refine ⟨⟨p, hp⟩, ?_, ?_, react_sound hn e⟩
  · refine lane_of_tends h.lane (fun k hk => ?_) (fun t ht i r due he => ?_)
      (w.tends_react e)
    · obtain ⟨id, signalFirst, -, hj⟩ := of_actor_eq_job hk
      exact h.lane k (mem_of_acting? hj).2.1
    · have hl := of_actor_eq_outside ht
      subst hl he
      cases hx
  · have hd := delivered_event (e := e) h.lane g
    have he := h.delivered
    omega

theorem Booked.aside (h : w.Booked g) (hv : w.Aside a calm v) (ha : a.Spares 0)
    (hk : ∀ k, a = .job k → k.task.InLane)
    (ho : ∀ t, a = .outside (some t) → ∀ i r due, t ≠ .send i r due)
    (hs : ∃ n, v.Sound none 0 (some n)) : v.Booked g := by
  obtain ⟨q, hq⟩ := h.loading
  refine ⟨⟨q, ?_⟩, lane_of_tends h.lane hk ho hv.toTends, hv.delivered.trans h.delivered, hs⟩
  exact hq.bypass ha hv.toTends ((Bypassed.refl hq.queue g).aside hv)

theorem Booked.meet (h : w.Booked g) {x : Happening} (hx : x.isInside = true) :
    (w.meet x).Booked (g.note w 0 x) := by
  obtain ⟨n, hn⟩ := h.sound
  have others {v : World} (hv : v.fixture = w.fixture) (hs : v.Sound none 0 (some n)) :
      v.Booked g := by
    have ha : w.Aside (.outside none) False v := .pass hv
    exact h.aside ha (Actor.spares_outside 0) (fun k hk => (by cases hk))
      (fun t ht => (by cases ht)) ⟨n, hs⟩
  have pass {v : World} (hm : Moved none 0 (some n) w v) : v.Sound none 0 (some n) :=
    hm.poised.toSound
  cases x with
  | event e => exact h.event hx
  | dropSender k => cases hx
  | setSignal k raised =>
    exact others rfl (pass (hn.poise_none.pass rfl rfl rfl rfl rfl rfl rfl rfl rfl))
  | loseSignal k =>
    exact others rfl (pass (hn.poise_none.pass rfl rfl rfl rfl rfl rfl rfl rfl rfl))
  | warn message =>
    exact others rfl (pass (hn.poise_none.pass rfl rfl rfl rfl rfl rfl rfl rfl rfl))

theorem Booked.undergo (h : w.Booked g) {list : List Happening}
    (hp : ∀ x ∈ list, x.isInside = true) : (w.undergo list).Booked (g.watch w 0 list) := by
  induction list generalizing w g with
  | nil => exact h
  | cons x rest ih =>
    exact ih (h.meet (hp x List.mem_cons_self)) fun y hy => hp y (List.mem_cons_of_mem x hy)

theorem Booked.loaded (h : w.Booked g) (he : ∃ e ∈ w.ended, e.id = 0) (isClean : Bool) :
    (w.summary isClean).loader.responses = (w.summary isClean).crawl.delivered := by
  obtain ⟨q, hq⟩ := h.loading
  obtain ⟨-, -, -, hl⟩ := hq.ended he
  have hh : w.loaded.head? = some (.ofList g.accepted) := by rwa [List.head?_eq_getElem?]
  simp only [summary, hh, Option.getD_some, h.delivered]
  rfl

section Starts

variable {files : Files} {c : Config} {adapters : List Adapter} {uptime : Nat}

theorem follow?_cases (w : World) (p : Plan) :
    (w.shows (w.now + p.delay.nanos) = true ∧ w.follow? p = .ok (w.follow p)) ∨
      w.shows (w.now + p.delay.nanos) = false ∧ w.follow? p = .error .instant := by
  unfold follow?
  cases w.shows (w.now + p.delay.nanos)
  · exact .inr ⟨rfl, rfl⟩
  · exact .inl ⟨rfl, rfl⟩

theorem of_follow? {p : Plan} (h : w.follow? p = .ok v) : v = w.follow p := by
  rcases w.follow?_cases p with ⟨-, he⟩ | ⟨-, he⟩ <;> rw [he] at h <;> cases h
  rfl

def opened (files : Files) (c : Config) (adapters : List Adapter) (uptime : Nat) : World :=
  (furnish files c adapters uptime).populate c (.empty c.crawler.resultQueueCapacity 1)

theorem of_startSession (h : startSession files c adapters uptime = .ok w) :
    ∃ p n, w = ({ opened files c adapters uptime with nextPlan := n } : World).follow p := by
  unfold startSession at h
  simp only [bind, Except.bind] at h
  split at h
  · cases h
  split at h
  · cases h
  rename_i q hq
  split at h
  · cases h
  rename_i p hp
  obtain ⟨rfl, -⟩ := ResultQueue.of_make? (mapError_eq_ok.1 hq)
  obtain rfl := of_follow? (mapError_eq_ok.1 h)
  exact ⟨p, _, rfl⟩

structure Blank (w : World) : Prop where
  jobs : w.jobs = []
  ended : w.ended = []
  results : w.results = []
  loaded : w.loaded = []
  nextId : w.nextId = 0
  queue : ∃ q, w.queue = .empty q
  stats : w.stats = .zero
  pools : w.pools = []
  schedule : w.manager.schedule = none

theorem blank_furnish (files : Files) (c : Config) (adapters : List Adapter) (uptime : Nat) :
    (furnish files c adapters uptime).Blank := by
  unfold furnish withManager
  simp only
  split <;> split <;> exact ⟨rfl, rfl, rfl, rfl, rfl, ⟨c.queue, rfl⟩, rfl, rfl, rfl⟩

theorem Blank.sound (h : w.Blank) (q : ResultQueue) :
    (w.startLoader q).Sound none 0 (some 0) := by
  obtain ⟨c, hq⟩ := h.queue
  have hw : ({ w with results := w.results ++ [q], loaded := w.loaded ++ [.zero] } :
      World).Sound none 0 (some 0) :=
    sound_of_fresh rfl h.jobs hq h.stats h.pools h.schedule (by simp)
  have hs := hw.poise_none.spawn (t := .load ⟨w.results.length, w.background.signal,
    (w.signal w.background.signal).version, .receiving⟩) rfl fun b => trivial
  exact (hs.poised.pass (v := w.startLoader q) rfl rfl rfl rfl rfl rfl rfl rfl rfl).poised.toSound

theorem Blank.booked (h : w.Blank) (capacity senders : Nat) :
    (w.startLoader (.empty capacity senders)).Booked .empty := by
  have hl := loading_startLoader h.results h.loaded h.jobs h.ended capacity senders
  rw [h.nextId] at hl
  refine ⟨⟨_, hl⟩, fun j hm => ?_, ?_, ⟨0, h.sound _⟩⟩
  · have hj : j.task = .load _ := (hl.live j hm ?_).2.choose_spec.1
    · rw [hj]
      trivial
    · simp [startLoader, World.spawn, h.jobs, h.nextId] at hm
      rw [hm]
  · simp [startLoader, World.spawn, h.stats]
    rfl

theorem Booked.startEviction (h : w.Booked g) (ttl period : Span) :
    (w.startEviction ttl period).Booked g := by
  obtain ⟨n, hn⟩ := h.sound
  let t : EvictionTask :=
    ⟨ttl, period, w.background.signal, (w.signal w.background.signal).version, .starting⟩
  have hs : w.Aside (.outside (some (.evict t))) False (w.spawn (.evict t)).2 :=
    .spawn ⟨rfl, rfl⟩
  have hv : w.Aside (.outside (some (.evict t))) False (w.startEviction ttl period) :=
    hs.trans (.pass rfl)
  refine h.aside hv ⟨fun k hk => (by cases hk), fun config u hu => (by cases hu.load)⟩
    (fun k hk => (by cases hk)) (fun u hu i r due he => ?_) ⟨n, ?_⟩
  · cases hu
    cases he
  · have hm := hn.poise_none.spawn (t := .evict t) rfl fun b => trivial
    exact (hm.poised.pass (v := w.startEviction ttl period) rfl rfl rfl rfl rfl rfl rfl rfl
      rfl).poised.toSound

theorem Booked.spawnPool (h : w.Booked g) : w.spawnPool.Booked g := by
  obtain ⟨n, hn⟩ := h.sound
  have hv : w.Aside (.job ⟨1, .manage ⟨.start, .entering⟩⟩) False w.spawnPool := spawnPool_aside w
  refine h.aside hv ⟨fun k hk => ?_, fun config u hu => (by cases hu.load)⟩ (fun k hk => ?_)
    (fun u hu => (by cases hu)) ⟨n, hn.poise_none.spawnPool.poised.toSound⟩
  · cases hk
    exact ⟨Nat.one_ne_zero, fun t ht => (by cases ht)⟩
  · cases hk
    trivial

theorem Booked.setNextPlan (h : w.Booked g) (n : Nat) :
    ({ w with nextPlan := n } : World).Booked g := by
  obtain ⟨m, hm⟩ := h.sound
  have ha : w.Aside (.outside none) False { w with nextPlan := n } := .pass rfl
  refine h.aside ha (Actor.spares_outside 0) (fun k hk => (by cases hk))
    (fun t ht => (by cases ht)) ⟨m, ?_⟩
  exact (hm.poise_none.pass (v := { w with nextPlan := n })
    rfl rfl rfl rfl rfl rfl rfl rfl rfl).poised.toSound

theorem booked_start (h : startSession files c adapters uptime = .ok w) : w.Booked .empty := by
  obtain ⟨p, n, rfl⟩ := of_startSession h
  -- The loader is there first; the eviction, the pool and the plan come one after another.
  have ho : (opened files c adapters uptime).Booked .empty :=
    (((blank_furnish files c adapters uptime).booked _ _).startEviction _ _).spawnPool
  exact (ho.setNextPlan n).event (e := .schedule p) rfl

end Starts

end World

end CatalogCrawl

import CatalogCrawl.Proofs.World.Agreement
import CatalogCrawl.Proofs.World.Sessions

namespace CatalogCrawl

namespace Task

def isBusy : Task → Bool
  | .crawl _ | .call _ | .manage _ => true
  | _ => false

theorem GoesOn.isManage {t u : Task} (h : t.GoesOn u) : u.isManage = t.isManage := by
  unfold GoesOn at h
  split at h <;> first | rfl | exact h.elim

theorem GoesOn.isBusy {t u : Task} (h : t.GoesOn u) : u.isBusy = t.isBusy := by
  unfold GoesOn at h
  split at h <;> first | rfl | exact h.elim

theorem not_busy_of_isEntry {t : Task} (h : t.isEntry = true) (hm : t.isManage = false) :
    t.isBusy = false := by
  cases t <;> first | rfl | cases h | cases hm

end Task

namespace Actor.Starts

variable {a : Actor} {config : CrawlerConfig} {t : Task}

theorem not_manage (h : a.Starts config t) (ha : ∀ u, a = .outside (some u) → u.isManage = false) :
    t.isManage = false := by
  unfold Starts at h
  split at h
  · rfl
  · rfl
  · rfl
  · rw [h.1]
    exact ha _ rfl
  · exact h.elim

theorem not_busy (h : a.Starts config t) (hk : ∀ k, a = .job k → k.task.isBusy = false)
    (ha : ∀ u, a = .outside (some u) → u.isManage = false) : t.isBusy = false := by
  unfold Starts at h
  split at h
  · cases hk _ rfl
  · cases hk _ rfl
  · rfl
  · rw [h.1]
    exact Task.not_busy_of_isEntry h.2 (ha _ rfl)
  · exact h.elim

end Actor.Starts

def Happening.isManaging : Happening → Bool
  | .event (.launch (.manage _)) => true
  | _ => false

namespace World

variable {w v : World} {g : LoadLog} {a : Actor} {calm : Prop} {x : Happening}
  {list : List Happening}

theorem forall_tasks_undergo {P : Task → Prop} (hw : ∀ j ∈ w.jobs, P j.task)
    (hx : ∀ x ∈ list, x.isManaging = false) (hg : ∀ t u, t.GoesOn u → P t → P u)
    (hs : ∀ (a : Actor) config t, a.Starts config t → (∀ k, a = .job k → P k.task) →
      (∀ u, a = .outside (some u) → u.isManage = false) → P t) :
    ∀ j ∈ (w.undergo list).jobs, P j.task := by
  induction list generalizing w with
  | nil => exact hw
  | cons x rest ih =>
    refine ih ?_ fun y hy => hx y (List.mem_cons_of_mem x hy)
    cases x with
    | event e =>
      have ha : ∀ k, w.actor e = .job k → P k.task := by
        intro k hk
        obtain ⟨id, signalFirst, -, hj⟩ := of_actor_eq_job hk
        exact hw k (mem_of_acting? hj).2.1
      have ht : w.Tends (w.actor e) False (w.react e) := react_tends False.elim
      refine ht.forall_tasks hw ha hg fun t h => hs _ _ t h ha fun u hu => ?_
      have hm := hx (.event e) List.mem_cons_self
      rw [of_actor_eq_outside hu] at hm
      cases u <;> first | rfl | cases hm
    | _ => exact hw

theorem unmanaged_undergo (hw : ∀ j ∈ w.jobs, j.task.isManage = false)
    (hx : ∀ x ∈ list, x.isManaging = false) :
    ∀ j ∈ (w.undergo list).jobs, j.task.isManage = false :=
  forall_tasks_undergo hw hx (fun _ _ hg ht => hg.isManage.trans ht)
    fun _ _ _ hs _ ha => hs.not_manage ha

theorem idle_undergo (hw : ∀ j ∈ w.jobs, j.task.isBusy = false)
    (hx : ∀ x ∈ list, x.isManaging = false) :
    ∀ j ∈ (w.undergo list).jobs, j.task.isBusy = false :=
  forall_tasks_undergo hw hx (fun _ _ hg ht => hg.isBusy.trans ht)
    fun _ _ _ hs hk ha => hs.not_busy hk ha

section Senders

def senders (w : World) : List Nat := w.results.map ResultQueue.senders

theorem map_modify_of_eq {α β : Type} {f : α → α} {s : α → β} (h : ∀ x, s (f x) = s x)
    (l : List α) (i : Nat) : (l.modify i f).map s = l.map s := by
  refine List.ext_getElem? fun k => ?_
  rw [List.getElem?_map, List.getElem?_map, List.getElem?_modify]
  cases l[k]? with
  | none => rfl
  | some x =>
    by_cases hi : i = k <;> simp [hi, h]

theorem senders_send (q : ResultQueue) (r : Response) : (q.send r).2.senders = q.senders := by
  unfold ResultQueue.send
  split
  · rfl
  · split <;> rfl

theorem senders_transmit (w : World) (s : Option (Nat × Response)) :
    (w.transmit s).senders = w.senders := by
  cases s with
  | none => rfl
  | some p => exact map_modify_of_eq (fun q => senders_send q p.2) w.results p.1

theorem senders_receive {t : LoadTask} {r : Response} {q : ResultQueue}
    (h : t.receive? w = some (r, q)) : (w.setResults t.results q).senders = w.senders := by
  obtain ⟨p, hp, hr⟩ := Option.bind_eq_some_iff.1 h
  have hs : q.senders = p.senders := by
    unfold ResultQueue.receive? at hr
    split at hr <;> cases hr
    rfl
  refine List.ext_getElem? fun k => ?_
  simp only [senders, setResults, List.getElem?_map, List.getElem?_set]
  split
  · rename_i hk
    subst hk
    split
    · rw [hp]
      exact congrArg some hs
    · rename_i hn
      rw [List.getElem?_eq_none (Nat.not_lt.1 hn)]
  · rfl

theorem senders_load (w : World) (t : LoadTask) : (t.effect w).senders = w.senders := by
  have senders_counted (v : World) (r : Response) (left : List Offer) :
      (t.counted v r left).senders = v.senders := by
    unfold LoadTask.counted
    split <;> rfl
  unfold LoadTask.effect
  split
  · split
    · rename_i r q hr
      rw [senders_counted]
      exact senders_receive hr
    · split
      · exact map_modify_of_eq (f := ResultQueue.close) (fun q => rfl) w.results t.results
      · rfl
  · rw [senders_counted]
  · rename_i o left _
    rw [senders_counted, senders, results_saveOffer]
    rfl

theorem senders_evict (w : World) (t : EvictionTask) (signalFirst : Bool) :
    (t.effect w signalFirst).senders = w.senders := by
  unfold EvictionTask.effect
  split
  · rw [senders, results_expireOffers]
    rfl
  · rfl

theorem senders_turn (w : World) (t : Task) (signalFirst : Bool) :
    (t.effect w signalFirst).senders = w.senders := by
  cases t with
  | call t => exact senders_transmit w _
  | send i r due => exact senders_transmit w _
  | load t => exact senders_load w t
  | evict t => exact senders_evict w t signalFirst
  | _ => rfl

theorem senders_react {e : Event} (he : (Happening.event e).isInside = true)
    (hd : e ≠ .dropManager) : (w.react e).senders = w.senders := by
  have ha : (w.effect e).Aside (w.actor e) False (w.react e) := react_aside False.elim
  rw [senders, ha.results]
  cases e with
  | step s =>
    cases s with
    | turn id signalFirst =>
      simp only [effect]
      cases w.acting? id with
      | none => rfl
      | some j => exact senders_turn w j.task signalFirst
    | pass nanos => rfl
  | dropManager => exact absurd rfl hd
  | results i q => cases he
  | _ => rfl

theorem senders_meet (hx : x.isInside = true) (hd : x ≠ .event .dropManager) :
    (w.meet x).senders = w.senders := by
  cases x with
  | event e => exact senders_react hx fun he => hd (by rw [he])
  | dropSender i => cases hx
  | _ => rfl

theorem senders_undergo (hx : ∀ x ∈ list, x.isInside = true)
    (hd : .event .dropManager ∉ list) : (w.undergo list).senders = w.senders := by
  induction list generalizing w with
  | nil => rfl
  | cons x rest ih =>
    have hn : x ≠ .event .dropManager := fun he => hd (he ▸ List.mem_cons_self)
    exact (ih (fun y hy => hx y (List.mem_cons_of_mem x hy))
      fun hm => hd (List.mem_cons_of_mem x hm)).trans (senders_meet (hx x List.mem_cons_self) hn)

theorem hasSenders_of_senders {n : Nat} (h : w.senders[0]? = some (n + 1)) :
    w.hasSenders 0 = true := by
  rw [senders, List.getElem?_map] at h
  cases hq : w.results[0]? with
  | none =>
    rw [hq] at h
    cases h
  | some q =>
    rw [hq] at h
    have hn : q.senders = n + 1 := Option.some.inj h
    simp [hasSenders, hq, hn]

end Senders

theorem idle_of_not_hasSenders (h : w.hasSenders 0 = false) (hl : ∀ j ∈ w.jobs, j.task.InLane)
    (hm : ∀ j ∈ w.jobs, j.task.isManage = false) : ∀ j ∈ w.jobs, j.task.isBusy = false := by
  intro j hj
  have hs : j.task.sendsTo 0 = false := by
    rw [hasSenders, Bool.or_eq_false_iff, List.any_eq_false] at h
    simpa using h.2 j hj
  have hlane := hl j hj
  have hmanage := hm j hj
  generalize j.task = t at hs hlane hmanage ⊢
  cases t with
  | crawl t => simp [Task.sendsTo, show t.results = 0 from hlane] at hs
  | call t => simp [Task.sendsTo, show t.results = 0 from hlane] at hs
  | manage t => cases hmanage
  | _ => rfl

theorem inFlight_of_idle (h : ∀ j ∈ w.jobs, j.task.isBusy = false) : w.inFlight = 0 := by
  rw [inFlight, List.countP_eq_zero]
  intro j hj hc
  have hb := h j hj
  generalize j.task = t at hb hc
  cases t with
  | call t => cases hb
  | _ => cases hc

theorem senders_start {files : Files} {c : Config} {adapters : List Adapter} {uptime : Nat}
    (h : startSession files c adapters uptime = .ok w) : w.senders = [1] := by
  obtain ⟨p, n, rfl⟩ := of_startSession h
  let w : World := { opened files c adapters uptime with nextPlan := n }
  let v := ((furnish files c adapters uptime).startLoader
    (.empty c.crawler.resultQueueCapacity 1)).startEviction c.cache.ttl c.cache.evictionPeriod
  have hf : w.Aside (.outside none) False (w.follow p) := follow_aside w p
  have hs : v.Aside (.job ⟨1, .manage ⟨.start, .entering⟩⟩) False v.spawnPool := spawnPool_aside v
  have hr := (blank_furnish files c adapters uptime).results
  have ho : (opened files c adapters uptime).results = [.empty c.crawler.resultQueueCapacity 1] :=
    hs.results.trans (by simp [v, startEviction, startLoader, World.spawn, hr])
  rw [senders, hf.results, ho]
  rfl

def HasEnded (w : World) (id : TaskId) : Prop := ∃ e ∈ w.ended, e.id = id

def Drained (w : World) (list : List Happening) (id : TaskId) (i : Nat) : Prop :=
  ∃ before x after, list = before ++ x :: after ∧ ¬ (w.undergo before).HasEnded id ∧
    (w.undergo (before ++ [x])).HasEnded id ∧ (w.undergo before).hasSenders i = false

theorem undergo_append (w : World) (list later : List Happening) :
    w.undergo (list ++ later) = (w.undergo list).undergo later :=
  List.foldl_append

end World

open World

structure SessionRun where
  files : Files
  config : Config
  adapters : List Adapter
  uptime : Nat
  start : World
  started : startSession files config adapters uptime = .ok start
  during : List Happening
  rest : List Happening
  inside : ∀ x ∈ during ++ rest, x.isInside = true
  managed : .event .dropManager ∉ during
  uncalled : ∀ j ∈ (start.undergo during).jobs, j.task.isManage = false
  unmanaged : ∀ x ∈ rest, x.isManaging = false

namespace SessionRun

variable (s : SessionRun)

def list : List Happening := s.during ++ .event .dropManager :: s.rest

def world : World := s.start.undergo s.list

theorem isInside_of_mem_list : ∀ x ∈ s.list, x.isInside = true := by
  intro x hm
  rcases List.mem_append.1 hm with hm | hm
  · exact s.inside x (List.mem_append_left _ hm)
  · rcases List.mem_cons.1 hm with rfl | hm
    · rfl
    · exact s.inside x (List.mem_append_right _ hm)

theorem booked_prefix {before after : List Happening} (h : s.list = before ++ after) :
    (s.start.undergo before).Booked (LoadLog.empty.watch s.start 0 before) :=
  (booked_start s.started).undergo fun x hm =>
    s.isInside_of_mem_list x (h ▸ List.mem_append_left _ hm)

theorem senders_during {before after : List Happening} (h : s.during = before ++ after) :
    (s.start.undergo before).senders[0]? = some 1 := by
  rw [senders_undergo (fun x hm => s.inside x ?_) (fun hm => s.managed ?_), senders_start s.started]
  · rfl
  · rw [h]
    exact List.mem_append_left _ (List.mem_append_left _ hm)
  · rw [h]
    exact List.mem_append_left _ hm

theorem dispatched_of_drained {id : TaskId} (h : Drained s.start s.list id 0) :
    s.world.stats.dispatched =
      s.world.stats.delivered + s.world.stats.adapterFailures + s.world.stats.undelivered := by
  obtain ⟨before, x, after, hl, -, -, hs⟩ := h
  have hb := s.booked_prefix hl
  -- Someone may send until the manager is dropped, so the loader has ended after that; nobody has
  -- been busy since, and so no call is in flight.
  obtain ⟨as, rfl, hr⟩ | ⟨as, hd, -⟩ := List.append_eq_append_iff.1 hl
  · cases as with
    | nil =>
      have hd : s.during = s.during ++ [] ++ [] := by simp
      rw [hasSenders_of_senders (s.senders_during hd)] at hs
      cases hs
    | cons y as =>
      obtain ⟨rfl, ht⟩ := List.cons.inj hr
      have hu : ∀ x ∈ .event .dropManager :: as, x.isManaging = false := by
        intro z hz
        rcases List.mem_cons.1 hz with rfl | hz
        · rfl
        · exact s.unmanaged z (ht ▸ List.mem_append_left _ hz)
      have hm := unmanaged_undergo s.uncalled hu
      rw [← undergo_append] at hm
      have hl' : ∀ z ∈ x :: after, z.isManaging = false := fun z hz =>
        s.unmanaged z (ht ▸ List.mem_append_right _ hz)
      have hi := idle_undergo (idle_of_not_hasSenders hs hb.lane hm) hl'
      rw [← undergo_append, ← hl] at hi
      obtain ⟨n, hn⟩ := (s.booked_prefix (List.append_nil _).symm).sound
      have hd := hn.dispatched
      rwa [inFlight_of_idle hi] at hd
  · rw [hasSenders_of_senders (s.senders_during hd)] at hs
    cases hs

end SessionRun

def Setup.loading (s : Setup) (capacity senders : Nat) : World :=
  { s.world with results := [] }.startLoader (.empty capacity senders)

theorem Setup.blank (s : Setup) : ({ s.world with results := [] } : World).Blank := by
  unfold Setup.world withManager
  simp only
  split <;> exact ⟨rfl, rfl, rfl, rfl, rfl, ⟨s.queue, rfl⟩, rfl, rfl, rfl⟩

theorem Setup.store_loading (s : Setup) (capacity senders : Nat) :
    (s.loading capacity senders).store = .empty := by
  unfold Setup.loading Setup.world withManager
  simp only
  split <;> rfl

def World.IsLoader (w : World) (id : TaskId) : Prop := ∃ t, (⟨id, .load t⟩ : Job) ∈ w.jobs

theorem World.Booked.eq_zero {w : World} {g : LoadLog} {id : TaskId} (h : w.Booked g)
    (hl : w.IsLoader id) : id = 0 := by
  obtain ⟨q, hq⟩ := h.loading
  obtain ⟨t, hm⟩ := hl
  exact hq.sole _ hm t rfl

/-- Whenever a loader ends, however responses are sent, senders given up and the loader told to end,
it has taken what its queue accepted, in that order; it has saved the offers of each response in
their order, and counted them; and its queue refuses whatever is sent later. Hence in a session
whose loader has ended the counters tell that as many responses were loaded as were delivered; if
it has ended for want of senders, every call that was started is counted as delivered or failed. -/
theorem loaded_once :
    (∀ (s : Setup) (capacity senders : Nat) (id : TaskId) (list : List Happening),
      (s.loading capacity senders).IsLoader id → (∀ x ∈ list, x.isPlain = true) →
      let w := (s.loading capacity senders).undergo list
      let log := LoadLog.empty.watch (s.loading capacity senders) 0 list
      let offers := log.accepted.flatMap fun r => r.catalog.offers
      w.HasEnded id →
        log.received = log.accepted ∧ log.saved = offers ∧
        w.store = log.work.foldl Store.carryOut .empty ∧
        w.loaded[0]? = some ⟨log.accepted.length, offers.length⟩ ∧
        ∀ later, (∀ x ∈ later, x.isPlain = true) →
          ∃ q, (w.undergo later).results[0]? = some q ∧ ∀ r, (q.send r).1 = .closed) ∧
    ∀ (s : SessionRun) (id : TaskId) (isClean : Bool),
      s.start.IsLoader id → s.world.HasEnded id →
      let r := s.world.summary isClean
      r.loader.responses = r.crawl.delivered ∧
      (Drained s.start s.list id 0 →
        r.crawl.dispatched = r.crawl.delivered + r.crawl.adapterFailures + r.crawl.undelivered) := by
  constructor
  · intro s capacity senders id list hl hp w log offers he
    have hb := s.blank.booked capacity senders
    obtain ⟨q, hq⟩ := hb.loading
    obtain rfl := hb.eq_zero hl
    obtain ⟨p, hu, -⟩ := hq.undergo hp
    obtain ⟨hr, ho, hs, hc⟩ := hu.ended he
    refine ⟨hr, hs, ?_, hc, fun later hp => ?_⟩
    · exact (store_watch _ 0 .empty list .empty (s.store_loading capacity senders).symm).symm
    · obtain ⟨r, hr, hc⟩ := hu.undergo hp
      exact ⟨r, hr.queue, ResultQueue.send_closed (hc ho)⟩
  · intro s id isClean hl he r
    obtain rfl := (booked_start s.started).eq_zero hl
    exact ⟨(s.booked_prefix (List.append_nil _).symm).loaded he isClean, s.dispatched_of_drained⟩

section Instances

def oneOffer : Response :=
  ⟨⟨"http", none, "", none, none⟩, ⟨"catalog", [.plain "offer" (.named "asset")]⟩⟩

def sendOnce : List Happening :=
  [.event (.launch (.send 0 oneOffer 0)), .event (.step (.turn 1 true)),
    .event (.step (.turn 0 true)), .event (.step (.turn 0 true)), .dropSender 0,
    .event (.step (.turn 0 true))]

def standardStart : World :=
  ({ opened (.empty []) .standard [] 0 with nextPlan := 2 } : World).follow ⟨.ofSecs 60, .zero, 1⟩

theorem startSession_standard : startSession (.empty []) .standard [] 0 = .ok standardStart := by
  have hv : Config.standard.validate = .ok () := by decide
  have hq : ResultQueue.make? Config.standard.crawler.resultQueueCapacity 1 =
      .ok (.empty 1000 1) := rfl
  have hp : ∀ n, Config.standard.partition.plan? n = .ok ⟨.ofSecs 60, .zero, n⟩ := fun n => rfl
  unfold startSession
  rw [hv, hq]
  simp only [Except.mapError, bind, Except.bind, hp]
  rfl

def echo : Adapter := ⟨"echo", fun _ => true, fun _ _ _ => ⟨.zero, .ok oneOffer⟩, false⟩

def crawlOnce : List Happening :=
  [.event (.register echo), .event (.offer (.fresh oneOffer.source "dsp")),
    .event (.step (.turn 2 true)), .event (.step (.turn 7 true)), .event (.step (.turn 7 true))]

def loaderTurn : Happening := .event (.step (.turn 0 true))

def standardRun : SessionRun where
  files := .empty []
  config := .standard
  adapters := []
  uptime := 0
  start := standardStart
  started := startSession_standard
  during := crawlOnce
  rest := [loaderTurn, loaderTurn, loaderTurn]
  inside := by simp [crawlOnce, loaderTurn, Happening.isInside]
  managed := by simp [crawlOnce]
  uncalled := by decide +kernel
  unmanaged := by simp [loaderTurn, Happening.isManaging]

theorem loaded_once_oneOffer :
    (stalling.loading 1 1).IsLoader 0 ∧ (∀ x ∈ sendOnce, x.isPlain = true) ∧
    ((stalling.loading 1 1).undergo sendOnce).HasEnded 0 ∧
    ((stalling.loading 1 1).undergo sendOnce).loaded[0]? = some ⟨1, 1⟩ ∧
    standardRun.start.IsLoader 0 ∧ standardRun.world.HasEnded 0 ∧
    Drained standardRun.start standardRun.list 0 0 ∧
    (standardRun.world.summary true).loader.responses = 1 ∧
    (standardRun.world.summary true).loader.responses =
      (standardRun.world.summary true).crawl.delivered ∧
    standardRun.world.stats.dispatched = standardRun.world.stats.delivered +
      standardRun.world.stats.adapterFailures + standardRun.world.stats.undelivered := by
  have hl : (stalling.loading 1 1).IsLoader 0 := ⟨_, List.mem_cons_self⟩
  have hp : ∀ x ∈ sendOnce, x.isPlain = true := by simp [sendOnce, Happening.isPlain]
  have he : ((stalling.loading 1 1).undergo sendOnce).HasEnded 0 := by
    unfold HasEnded
    decide
  have hc := (loaded_once.1 stalling 1 1 0 sendOnce hl hp he).2.2.2.1
  have hs : standardRun.start.IsLoader 0 := ⟨_, List.mem_cons_self⟩
  have hd : standardRun.world.HasEnded 0 := by
    unfold HasEnded
    decide +kernel
  have hn : Drained standardRun.start standardRun.list 0 0 := by
    refine ⟨crawlOnce ++ [.event .dropManager, loaderTurn, loaderTurn], loaderTurn, [], rfl, ?_,
      ?_, by decide +kernel⟩
    all_goals
      unfold HasEnded
      decide +kernel
  have hr := loaded_once.2 standardRun 0 true hs hd
  exact ⟨hl, hp, he, hc, hs, hd, hn, by decide +kernel, hr.1, hr.2 hn⟩

end Instances

end CatalogCrawl

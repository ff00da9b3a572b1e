import CatalogCrawl.Proofs.World.Provenance

namespace CatalogCrawl

namespace Registry

variable {registry : Registry} {i : Nat} {protocol : String}

theorem mem_matching_iff :
    i ∈ (registry.matching protocol).map Prod.fst ↔ registry.Serves i protocol := by
  refine ⟨serves_of_mem_matching, ?_⟩
  rintro ⟨a, ha, hs⟩
  refine List.mem_map.2 ⟨(i, a), List.mem_filterMap.2 ⟨(a, i), ?_, if_pos hs⟩, rfl⟩
  exact List.mem_zipIdx_iff_getElem?.2 ha

theorem pairwise_matching (registry : Registry) (protocol : String) :
    ((registry.matching protocol).map Prod.fst).Pairwise (· < ·) := by
  have ascending (adapters : List Adapter) (k : Nat) :
      (adapters.zipIdx k).Pairwise fun x y => x.2 < y.2 := by
    induction adapters generalizing k with
    | nil => exact .nil
    | cons a rest ih =>
      refine .cons (fun y hy => ?_) (ih (k + 1))
      exact Nat.lt_of_lt_of_le (Nat.lt_succ_self k) (List.le_snd_of_mem_zipIdx hy)
  rw [List.pairwise_map, matching, List.pairwise_filterMap]
  refine (ascending registry.toList 0).imp fun {x y} hlt u hu v hv => ?_
  rw [Option.ite_none_right_eq_some] at hu hv
  cases hu.2
  cases hv.2
  exact hlt

end Registry

def World.askedFor (w : World) (item : WorkItem) : List Nat :=
  (w.registry.matching item.protocol).map Prod.fst

theorem Cycle.calls_run (policy : RequeuePolicy) (registry : Registry) (queue : WorkQueue)
    (item : WorkItem) : (run policy registry queue item).calls =
      (registry.matching item.protocol).map Prod.fst := by
  unfold run
  simp only
  split
  · rename_i he
    rw [List.isEmpty_iff.1 he]
    unfold unmatched
    simp only
    split
    · split <;> rfl
    · rfl
  · rfl

theorem World.askedFor_congr {w v : World} {item : WorkItem}
    (h : v.registry.toList.map (·.serves item.protocol) =
      w.registry.toList.map (·.serves item.protocol)) : v.askedFor item = w.askedFor item := by
  have by_serves (registry : Registry) :
      (registry.matching item.protocol).map Prod.fst =
        (registry.toList.map (·.serves item.protocol)).zipIdx.filterMap fun x =>
          if x.1 then some x.2 else none := by
    rw [Registry.matching, List.map_filterMap, List.zipIdx_map, List.filterMap_map]
    refine List.filterMap_congr fun x _ => ?_
    by_cases hs : x.1.serves item.protocol = true <;> simp [hs]
  rw [askedFor, by_serves, h, ← by_serves, askedFor]

def newCalls (crawler : Crawler) (results : Nat) (r : Request) (first : TaskId)
    (adapters : List Nat) : List (TaskId × CallTask) :=
  (adapters.zipIdx first).map fun (a, id) => (id, ⟨crawler, results, a, r, .starting⟩)

variable {w v : World} {id : TaskId} {e : Event} {served : Served} {item : WorkItem}

open World

theorem filterMap_callsFrom (crawler : Crawler) (results : Nat) (r : Request) (first : TaskId)
    (adapters : List Nat) : (callsFrom crawler results r first adapters).filterMap Job.call =
      newCalls crawler results r first adapters := by
  induction adapters generalizing first with
  | nil => rfl
  | cons a rest ih =>
    have hc : Job.call ⟨first, .call ⟨crawler, results, a, r, .starting⟩⟩ =
        some (first, ⟨crawler, results, a, r, .starting⟩) := rfl
    exact (List.filterMap_cons_some hc).trans (congrArg (List.cons _) (ih (first + 1)))

namespace World

theorem work_fans_out (w : World) (crawler : Crawler) (results : Nat) (item : WorkItem) :
    (w.work crawler results item).2.calls =
        w.calls ++ newCalls crawler results item.request w.nextId (w.askedFor item) ∧
      (w.askedFor item ≠ [] →
        (w.work crawler results item).1 = .dispatched (w.askedFor item).length ∧
        (w.work crawler results item).2.queue = w.queue ∧
        (w.work crawler results item).2.journal = w.journal) ∧
      (w.askedFor item = [] → (w.work crawler results item).2.jobs = w.jobs) := by
  have hw := @work_eq crawler results w item
  have hc := Cycle.calls_run crawler.config.requeue w.registry w.queue item
  refine ⟨?_, fun hn => ?_, fun hn => ?_⟩
  · rw [hw, hc, calls, List.filterMap_append, filterMap_callsFrom]
    rfl
  · have hr : Cycle.run crawler.config.requeue w.registry w.queue item =
        ⟨.dispatched (w.askedFor item).length, w.queue, [], w.askedFor item⟩ := by
      unfold Cycle.run
      exact if_neg (by simpa [askedFor] using hn)
    refine ⟨congrArg Cycle.outcome hr, ?_, ?_⟩
    · rw [hw, hr]
    · rw [hw, hr]
      rfl
  · rw [hw, hc]
    exact (congrArg (w.jobs ++ callsFrom _ _ _ _ ·) hn).trans (List.append_nil _)

end World

namespace CrawlTask

variable {t : CrawlTask} {activity : Nat}

structure Handles (w : World) (t : CrawlTask) (item : WorkItem) (v : World) : Prop where
  calls : v.calls =
    w.calls ++ newCalls t.crawler t.results item.request w.nextId (w.askedFor item)
  stats : ∃ o : Outcome, v.stats = w.stats.record o ∧ o.EndsCycle ∧
    (w.askedFor item ≠ [] → o = .dispatched (w.askedFor item).length)
  queue : w.askedFor item ≠ [] →
    t.stage = .matching item ∧ v.queue = w.queue ∨
    ∃ rest b, w.queue.items = item :: rest ∧
      v.queue = { w.queue with items := rest, taken := w.queue.taken + 1, bell := b }

theorem calls_removeJob (h : w.Sound none 0 served) (hj : ⟨id, .crawl t⟩ ∈ w.jobs) :
    (w.removeJob id).calls = w.calls := by
  rw [calls, removeJob, List.filterMap_filter]
  refine List.filterMap_congr fun j hm => ?_
  by_cases hi : j.id = id
  · obtain rfl : j = ⟨id, .crawl t⟩ :=
      Option.some.inj ((h.job?_of_mem hm).symm.trans (hi ▸ h.job?_of_mem hj))
    simp [Job.call, Task.call?]
  · simp [hi]

theorem calls_worked_removeJob (w : World) (t : CrawlTask) (activity : Nat) (item : WorkItem)
    (hi : id < w.nextId) : ((w.worked t activity item).removeJob id).calls =
      (w.removeJob id).calls ++
        newCalls t.crawler t.results item.request w.nextId (w.askedFor item) := by
  have kept : (callsFrom t.crawler t.results item.request w.nextId (w.askedFor item)).filter
      (fun j => j.id != id) =
        callsFrom t.crawler t.results item.request w.nextId (w.askedFor item) := by
    refine List.filter_eq_self.2 fun j hm => ?_
    -- the number of the crawler is not that of a new call
    have hr : j.id ∈ List.range' w.nextId (w.askedFor item).length :=
      ids_callsFrom ▸ List.mem_map_of_mem hm
    have hle : w.nextId ≤ j.id := (List.mem_range'_1.1 hr).1
    exact bne_iff_ne.2 (Nat.ne_of_gt (Nat.lt_of_lt_of_le hi hle))
  simp only [calls, removeJob, worked, Cycle.calls_run, List.filter_append,
    List.filterMap_append]
  rw [← filterMap_callsFrom]
  exact congrArg (_ ++ List.filterMap Job.call ·) kept

theorem complete_handles (hs : w.Sound none 0 served) (hj : ⟨id, .crawl t⟩ ∈ w.jobs)
    (hm : t.mode = .steady activity) (hv : v.jobs = w.jobs) (hn : v.nextId = w.nextId)
    (hr : v.registry = w.registry) (hst : v.stats = w.stats)
    (hq : t.stage = .matching item ∧ v.queue = w.queue ∨
      ∃ rest b, w.queue.items = item :: rest ∧
        v.queue = { w.queue with items := rest, taken := w.queue.taken + 1, bell := b }) :
    t.Handles w item (t.complete v id item) := by
  have hi : id < v.nextId := hn ▸ hs.lt_nextId hj
  have hask : v.askedFor item = w.askedFor item := by rw [askedFor, hr, askedFor]
  have hcalls : (v.removeJob id).calls = w.calls := by
    rw [← calls_removeJob hs hj]
    simp only [calls, removeJob, hv]
  have hnew : ((v.worked t activity item).removeJob id).calls =
      w.calls ++ newCalls t.crawler t.results item.request w.nextId (w.askedFor item) := by
    rw [calls_worked_removeJob v t activity item hi, hcalls, hn, hask]
  have hcomplete : (t.complete v id item).calls =
        ((v.worked t activity item).removeJob id).calls ∧
      (t.complete v id item).stats = (v.worked t activity item).stats ∧
      (t.complete v id item).queue = (v.worked t activity item).queue := by
    rw [complete_eq hm]
    split
    · exact ⟨rfl, rfl, rfl⟩
    · exact ⟨rfl, rfl, rfl⟩
  obtain ⟨hc, hstats, hqueue⟩ := hcomplete
  have hserved (hne : w.askedFor item ≠ []) :
      Cycle.run t.crawler.config.requeue v.registry v.queue item =
        ⟨.dispatched (w.askedFor item).length, v.queue, [], w.askedFor item⟩ := by
    rw [hr]
    exact if_neg (by simpa [askedFor] using hne)
  refine ⟨hc.trans hnew, ⟨_, hstats.trans (congrArg (CrawlStats.record · _) hst),
    (Cycle.run_outcome _ _ _ _).1, fun hne => congrArg Cycle.outcome (hserved hne)⟩, fun hne => ?_⟩
  have he : (t.complete v id item).queue = v.queue :=
    hqueue.trans (congrArg Cycle.queue (hserved hne))
  rw [he]
  exact hq

theorem Round.handles (hs : w.Sound none 0 served) (hj : ⟨id, .crawl t⟩ ∈ w.jobs)
    (h : t.Round w id v) :
    v.calls = w.calls ∧ v.stats = w.stats ∨ ∃ item, t.Handles w item v := by
  have hc := calls_removeJob hs hj
  cases h with
  | rests => exact .inl ⟨rfl, rfl⟩
  | ends => exact .inl ⟨hc, rfl⟩
  | again => exact .inl ⟨hc, rfl⟩
  | waits =>
    exact .inl ⟨(gather_keepLast Job.call _ id _).trans ((List.append_nil _).trans hc), rfl⟩
  | takes =>
    exact .inl ⟨(gather_keepLast Job.call _ id _).trans ((List.append_nil _).trans hc), rfl⟩
  | works item rest b activity _ hi hm =>
    exact .inr ⟨item, complete_handles hs hj hm rfl rfl rfl rfl (.inr ⟨rest, b, hi, rfl⟩)⟩
  | completes item activity hi hm =>
    exact .inr ⟨item, complete_handles hs hj hm rfl rfl rfl rfl (.inl ⟨hi, rfl⟩)⟩

end CrawlTask

namespace CallTask

variable {t : CallTask}

theorem queue_deliver (w : World) (id : TaskId) (t : CallTask) (d : Delivery) :
    (t.deliver w id d).queue = w.queue := by
  unfold deliver
  split
  · rfl
  · simp only
    split
    · rfl
    · rfl
    · split <;> rfl

theorem queue_turn (w : World) (id : TaskId) (t : CallTask) : (t.turn w id).queue = w.queue := by
  unfold turn
  split
  · unfold ask
    split
    · rfl
    · simp only
      split <;> rfl
  · rename_i outcome _
    split
    · cases outcome with
      | error fault => rfl
      | ok r => exact queue_deliver (w.report (.info (receivedMessage r))) id t _
    · split <;> rfl
  · split
    · exact queue_deliver w id t _
    · rfl

end CallTask

namespace World

theorem queue_react_of_isCalling (h : w.isCalling e = true) : (w.react e).queue = w.queue := by
  obtain ⟨id, signalFirst, t, rfl, hj⟩ := of_isCalling h
  simp only [react, step, hj]
  split
  · exact t.queue_turn w id
  · rfl

theorem cycles_of_not_isCrawling (h : w.Settled) (hc : w.isCrawling e = false) :
    (w.react e).stats.cycles = w.stats.cycles := by
  obtain ⟨n, hs⟩ := h.sound
  by_cases hp : w.isPolling e = true
  · exact cycles_polling hp
  · obtain ⟨steps, -, he⟩ := react_ended hs hc (Bool.not_eq_true _ ▸ hp) (.inl rfl)
    exact he.cycles

theorem calls_old (hc : w.isCrawling e = false) :
    ∀ x ∈ (w.react e).calls, ∃ y ∈ w.calls, y.1 = x.1 := by
  intro x hx
  rw [mem_calls] at hx
  rcases (tends_react w e).jobs _ hx with hm | ⟨k, hk, hi, hg⟩ | ⟨t, -, ht⟩ | ⟨-, hs⟩
  · exact ⟨x, mem_calls.2 hm, rfl⟩
  · obtain ⟨id, signalFirst, -, ha⟩ := of_actor_eq_job hk
    rcases k with ⟨i, task⟩
    cases task with
    | call t => exact ⟨(i, t), mem_calls.2 (mem_of_acting? ha).2.1, hi.symm⟩
    | _ => exact hg.elim
  · cases ht
  · rcases ha : w.actor e with ⟨i, task⟩ | _ | started
    · rw [ha] at hs
      cases task with
      | crawl t =>
        obtain ⟨id, signalFirst, rfl, hj⟩ := of_actor_eq_job ha
        simp [isCrawling, (mem_of_acting? hj).1, Task.isCrawl] at hc
      | _ => exact hs.elim
    · rw [ha] at hs
      exact hs.elim
    · rw [ha] at hs
      obtain ⟨rfl, he⟩ := hs
      cases he

theorem handles_or_calls_old (h : w.Settled) (e : Event) :
    ((∀ x ∈ (w.react e).calls, ∃ y ∈ w.calls, y.1 = x.1) ∧
      (w.react e).stats.cycles = w.stats.cycles) ∨
      ∃ id t item, ⟨id, .crawl t⟩ ∈ w.jobs ∧ t.Handles w item (w.react e) := by
  obtain ⟨n, hs⟩ := h.sound
  cases hc : w.isCrawling e with
  | false => exact .inl ⟨calls_old hc, cycles_of_not_isCrawling h hc⟩
  | true =>
    obtain ⟨id, signalFirst, t, rfl, hj⟩ := of_isCrawling hc
    have hm := (mem_of_job? hj).1
    obtain ⟨activity, hmode⟩ := hs.isSteady hm
    simp only [react, step, hj]
    split
    · rcases (t.turn_round hmode signalFirst).handles hs hm with ⟨hcalls, hstats⟩ | ⟨item, hi⟩
      · exact .inl ⟨fun x hx => ⟨x, hcalls ▸ hx, rfl⟩, congrArg CrawlStats.cycles hstats⟩
      · exact .inr ⟨id, t, item, hm, hi⟩
    · exact .inl ⟨fun x hx => ⟨x, hx, rfl⟩, rfl⟩

end World

end CatalogCrawl

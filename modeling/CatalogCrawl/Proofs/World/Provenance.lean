import CatalogCrawl.Proofs.World.Bystanders
import CatalogCrawl.Proofs.World.Draining
import CatalogCrawl.Proofs.World.Patience
import CatalogCrawl.Proofs.World.Rounds

namespace CatalogCrawl

variable {nodes : List Node} {item : WorkItem} {registry later : Registry} {i : Nat}
  {protocol : String}

section Items

def Request.IsOf (nodes : List Node) (r : Request) : Prop :=
  ∃ node ∈ nodes, r.url = node.url ∧ r.protocol ∈ node.protocols

namespace WorkItem

/-- An item for a node: it has an error if and only if there were attempts, and then the error is
that there was no adapter for its protocol. -/
structure Descends (nodes : List Node) (item : WorkItem) : Prop where
  request : item.request.IsOf nodes
  failed : item.error.isSome = true ↔ 0 < item.attempts
  error : ∀ message, item.error = some message → message = Cycle.noAdapterMessage item.protocol

theorem descends_of_mem_workload (h : item ∈ workload nodes) : item.Descends nodes := by
  obtain ⟨node, hn, protocol, hp, rfl⟩ := mem_workload.1 h
  exact ⟨⟨node, hn, rfl, hp⟩, by simp [fresh], fun _ he => by cases he⟩

theorem Descends.withError (h : item.Descends nodes) :
    (item.withError (Cycle.noAdapterMessage item.protocol)).Descends nodes := by
  refine ⟨h.request, ?_, fun message he => (Option.some.inj he).symm⟩
  have hm : 0 < maxAttempts := by decide
  simp [WorkItem.withError, hm]

end WorkItem

end Items

namespace Registry

def Serves (registry : Registry) (i : Nat) (protocol : String) : Prop :=
  ∃ a, registry.toList[i]? = some a ∧ a.serves protocol = true

theorem serves_of_mem_matching (h : i ∈ (registry.matching protocol).map Prod.fst) :
    registry.Serves i protocol := by
  obtain ⟨⟨k, a⟩, hm, rfl⟩ := List.mem_map.1 h
  obtain ⟨⟨b, n⟩, hz, hs⟩ := List.mem_filterMap.1 hm
  rw [Option.ite_none_right_eq_some] at hs
  obtain ⟨hb, he⟩ := hs
  cases he
  exact ⟨_, List.mem_zipIdx_iff_getElem?.1 hz, hb⟩

theorem Serves.mono (h : registry.Serves i protocol) (hp : registry.toList <+: later.toList) :
    later.Serves i protocol := by
  obtain ⟨a, ha, hs⟩ := h
  obtain ⟨more, hm⟩ := hp
  obtain ⟨hl, -⟩ := List.getElem?_eq_some_iff.1 ha
  exact ⟨a, by rw [← hm, List.getElem?_append_left hl, ha], hs⟩

theorem toList_count (registry : Registry) (position : Nat) :
    (registry.count position).toList = registry.toList := by
  unfold toList count
  refine List.ext_getElem? fun k => ?_
  rw [List.getElem?_map, List.getElem?_map, List.getElem?_modify]
  cases registry.adapters[k]? with
  | none => rfl
  | some a => by_cases h : position = k <;> simp [h]

end Registry

variable {w v u : World} {id : TaskId} {e : Event}

section Crawls

open World

namespace CrawlTask

variable {t : CrawlTask} {activity : Nat}

def Has (w : World) (t : CrawlTask) (item : WorkItem) : Prop :=
  t.stage = .matching item ∨ ∃ rest, w.queue.items = item :: rest

def PutsBack (w : World) (t : CrawlTask) (item : WorkItem) : Prop :=
  ∃ last, t.Has w last ∧ item = last.withError (Cycle.noAdapterMessage last.protocol)

def Asks (w : World) (t : CrawlTask) (task : Task) : Prop :=
  ∃ (s : CallTask) (item : WorkItem), task = .call s ∧ t.Has w item ∧ s.request = item.request ∧
    w.registry.Serves s.adapter item.protocol

structure Carries (w : World) (id : TaskId) (t : CrawlTask) (v : World) : Prop where
  registry : v.registry = w.registry
  manager : v.manager = w.manager
  items : ∀ item ∈ v.queue.items, item ∈ w.queue.items ∨ t.PutsBack w item
  jobs : ∀ j ∈ v.jobs, j ∈ w.jobs ∨
    (∃ s : CrawlTask, j.task = .crawl s ∧ ∀ item, s.stage = .matching item → t.Has w item) ∨
    t.Asks w j.task

theorem worked_items (hi : t.Has w item) {i : WorkItem}
    (hm : i ∈ (v.worked t activity item).queue.items) : i ∈ v.queue.items ∨ t.PutsBack w i := by
  simp only [worked] at hm
  have offered (h : i ∈ (v.queue.offer
      (item.withError (Cycle.noAdapterMessage item.protocol))).2.items) :
      i ∈ v.queue.items ∨ t.PutsBack w i := by
    rw [(v.queue.offer_admits _).items, List.mem_append] at h
    refine h.imp_right fun h => ⟨item, hi, ?_⟩
    split at h
    · exact List.mem_singleton.1 h
    · cases h
  have hverdict := Cycle.run_verdict t.crawler.config.requeue v.registry v.queue item
  generalize Cycle.run t.crawler.config.requeue v.registry v.queue item = c at hverdict hm
  cases hverdict with
  | dispatched => exact .inl hm
  | requeued q ho => exact offered (ho ▸ hm)
  | rejected q failed ho => exact offered (ho ▸ hm)
  | dropped => exact .inl hm

theorem worked_asks (hi : t.Has w item) (hr : v.registry = w.registry) {j : Job}
    (hm : j ∈ (v.worked t activity item).jobs) : j ∈ v.jobs ∨ t.Asks w j.task := by
  simp only [worked, List.mem_append] at hm
  refine hm.imp_right fun hm => ?_
  obtain ⟨a, ha, ht⟩ := task_of_mem_callsFrom hm
  have hverdict := Cycle.run_verdict t.crawler.config.requeue v.registry v.queue item
  have served : w.registry.Serves a item.protocol := by
    generalize Cycle.run t.crawler.config.requeue v.registry v.queue item = c at hverdict ha
    cases hverdict with
    | dispatched n positions hp => exact hr ▸ Registry.serves_of_mem_matching (hp a ha)
    | _ => cases ha
  exact ⟨_, item, ht, hi, rfl, served⟩

theorem worked_carries (hm : t.mode = .steady activity) (hi : t.Has w item)
    (hq : v.queue.items ⊆ w.queue.items) (hj : v.jobs = w.jobs) (hr : v.registry = w.registry)
    (hv : v.manager = w.manager) : t.Carries w id (t.complete v id item) := by
  have items : ∀ i ∈ (v.worked t activity item).queue.items,
      i ∈ w.queue.items ∨ t.PutsBack w i :=
    fun i h => (worked_items hi h).imp_left fun h => hq h
  have jobs : ∀ j ∈ (v.worked t activity item).jobs, j ∈ w.jobs ∨ t.Asks w j.task :=
    fun j h => (worked_asks hi hr h).imp_left fun h => hj ▸ h
  rw [complete_eq hm]
  split
  · refine ⟨hr, hv, items, fun j hmem => ?_⟩
    exact (jobs j (mem_jobs_removeJob.1 hmem).1).imp_right .inr
  · refine ⟨hr, hv, items, fun j hmem => ?_⟩
    rcases mem_jobs_keepFirst.1 hmem with rfl | ⟨hmem, -⟩
    · exact .inr (.inl ⟨_, rfl, fun i hs => by cases hs⟩)
    · exact (jobs j hmem).imp_right .inr

theorem Round.carries (h : t.Round w id v) : t.Carries w id v := by
  have old {i : WorkItem} (hi : i ∈ w.queue.items) : i ∈ w.queue.items ∨ t.PutsBack w i := .inl hi
  cases h with
  | rests => exact ⟨rfl, rfl, fun _ hi => old hi, fun _ hj => .inl hj⟩
  | ends b r =>
    exact ⟨rfl, rfl, fun _ hi => old hi, fun _ hj => .inl (mem_jobs_removeJob.1 hj).1⟩
  | again b =>
    refine ⟨rfl, rfl, fun _ hi => old hi, fun j hj => ?_⟩
    rcases mem_jobs_keepFirst.1 hj with rfl | ⟨hj, -⟩
    · exact .inr (.inl ⟨_, rfl, fun i hs => by cases hs⟩)
    · exact .inl hj
  | waits b =>
    refine ⟨rfl, rfl, fun _ hi => old hi, fun j hj => ?_⟩
    rcases mem_jobs_keepLast.1 hj with ⟨hj, -⟩ | rfl
    · exact .inl hj
    · exact .inr (.inl ⟨_, rfl, fun i hs => by cases hs⟩)
  | takes item rest b activity hs hi =>
    refine ⟨rfl, rfl, fun i hm => old (hi ▸ List.mem_cons_of_mem item hm), fun j hj => ?_⟩
    rcases mem_jobs_keepLast.1 hj with ⟨hj, -⟩ | rfl
    · exact .inl hj
    · refine .inr (.inl ⟨_, rfl, fun i hs => ?_⟩)
      cases hs
      exact .inr ⟨rest, hi⟩
  | works item rest b activity hs hi hm =>
    refine worked_carries hm (.inr ⟨rest, hi⟩) ?_ rfl rfl rfl
    rw [hi]
    exact List.subset_cons_self item rest
  | completes item activity hs hm =>
    exact worked_carries hm (.inl hs) (List.Subset.refl _) rfl rfl rfl

end CrawlTask

end Crawls

section Calls

open World

namespace CallTask

variable {t : CallTask}

structure Carries (w : World) (id : TaskId) (t : CallTask) (v : World) : Prop where
  registry : v.registry.toList = w.registry.toList
  manager : v.manager = w.manager
  items : v.queue.items = w.queue.items
  jobs : ∀ j ∈ v.jobs, j ∈ w.jobs ∨ ∃ stage, j.task = .call { t with stage := stage }

namespace Carries

theorem refl (w : World) : t.Carries w id w := ⟨rfl, rfl, rfl, fun _ hj => .inl hj⟩

theorem after (h : t.Carries v id u) (hr : v.registry.toList = w.registry.toList)
    (hm : v.manager = w.manager) (hi : v.queue.items = w.queue.items) (hj : v.jobs = w.jobs) :
    t.Carries w id u :=
  ⟨h.registry.trans hr, h.manager.trans hm, h.items.trans hi,
    fun j hm => (h.jobs j hm).imp_left fun hm => hj ▸ hm⟩

theorem removeJob (w : World) : t.Carries w id (w.removeJob id) :=
  ⟨rfl, rfl, rfl, fun _ hj => .inl (mem_jobs_removeJob.1 hj).1⟩

theorem conclude (w : World) (outcome : CallOutcome) :
    t.Carries w id (CallTask.conclude w id outcome) :=
  ⟨rfl, rfl, rfl, fun _ hj => .inl (mem_jobs_removeJob.1 hj).1⟩

theorem keepFirst (w : World) (stage : CallStage) :
    t.Carries w id (w.keepFirst id (.call { t with stage := stage })) := by
  refine ⟨rfl, rfl, rfl, fun j hj => ?_⟩
  rcases mem_jobs_keepFirst.1 hj with rfl | ⟨hj, -⟩
  · exact .inr ⟨stage, rfl⟩
  · exact .inl hj

theorem keepLast (w : World) (stage : CallStage) :
    t.Carries w id (w.keepLast id (.call { t with stage := stage })) := by
  refine ⟨rfl, rfl, rfl, fun j hj => ?_⟩
  rcases mem_jobs_keepLast.1 hj with ⟨hj, -⟩ | rfl
  · exact .inl hj
  · exact .inr ⟨stage, rfl⟩

theorem keepInPlace (w : World) (stage : CallStage) :
    t.Carries w id (w.keepInPlace id (.call { t with stage := stage })) := by
  refine ⟨rfl, rfl, rfl, fun j hj => ?_⟩
  obtain ⟨k, hk, rfl⟩ := List.mem_map.1 hj
  split
  · exact .inr ⟨stage, rfl⟩
  · exact .inl hk

end Carries

theorem deliver_carries (w : World) (d : Delivery) : t.Carries w id (t.deliver w id d) := by
  unfold deliver
  split
  · exact .removeJob w
  · simp only
    split
    · exact (Carries.conclude _ _).after rfl rfl rfl rfl
    · exact (Carries.conclude _ _).after rfl rfl rfl rfl
    · split
      · exact (Carries.keepFirst _ _).after rfl rfl rfl rfl
      · exact (Carries.keepLast _ _).after rfl rfl rfl rfl

theorem ask_carries (w : World) : t.Carries w id (t.ask w id) := by
  have hc := w.registry.toList_count t.adapter
  unfold ask
  split
  · exact .removeJob w
  · simp only
    split
    · exact (Carries.keepFirst _ _).after hc rfl rfl rfl
    · exact (Carries.keepLast _ _).after hc rfl rfl rfl

theorem turn_carries (w : World) : t.Carries w id (t.turn w id) := by
  unfold turn
  split
  · exact ask_carries w
  · split
    · unfold answer
      split
      · exact (Carries.conclude _ _).after rfl rfl rfl rfl
      · exact (deliver_carries _ _).after rfl rfl rfl rfl
    · split
      · exact (Carries.keepInPlace _ _).after rfl rfl rfl rfl
      · exact .refl w
  · split
    · exact deliver_carries w _
    · exact .refl w

end CallTask

end Calls

def Task.isRefill : Task → Bool
  | .refill .. => true
  | _ => false

def Happening.isSecluded : Happening → Bool
  | .event (.offer _) | .event (.addAll _) | .event (.launch (.refill ..)) => false
  | x => x.isOnward

namespace World

theorem mem_hands {x : TaskId × WorkItem} :
    x ∈ w.hands ↔ ∃ t : CrawlTask, ⟨x.1, .crawl t⟩ ∈ w.jobs ∧ t.stage = .matching x.2 := by
  rcases x with ⟨id, item⟩
  constructor
  · intro h
    obtain ⟨⟨k, task⟩, hj, hh⟩ := List.mem_filterMap.1 h
    obtain ⟨found, hf, he⟩ := Option.map_eq_some_iff.1 hh
    cases he
    cases task with
    | crawl t =>
      refine ⟨t, hj, ?_⟩
      cases hs : t.stage <;> simp_all [Task.inHand?]
    | _ => cases hf
  · rintro ⟨t, hj, hs⟩
    exact List.mem_filterMap.2 ⟨_, hj, by simp [Job.hand, Task.inHand?, hs]⟩

structure Sourced (nodes : List Node) (w : World) : Prop where
  workload : w.manager.workload = CatalogCrawl.workload nodes
  items : ∀ item ∈ w.queue.items, item.Descends nodes
  hands : ∀ x ∈ w.hands, x.2.Descends nodes
  calls : ∀ x ∈ w.calls, x.2.request.IsOf nodes ∧
    w.registry.Serves x.2.adapter x.2.request.protocol
  unfilled : ∀ j ∈ w.jobs, j.task.isRefill = false

theorem Sourced.has {t : CrawlTask} (h : w.Sourced nodes) (hj : ⟨id, .crawl t⟩ ∈ w.jobs)
    (hi : t.Has w item) : item.Descends nodes := by
  rcases hi with hs | ⟨rest, hq⟩
  · exact h.hands (id, item) (mem_hands.2 ⟨t, hj, hs⟩)
  · exact h.items item (hq ▸ List.mem_cons_self)

theorem Sourced.crawl {t : CrawlTask} (h : w.Sourced nodes) (hj : ⟨id, .crawl t⟩ ∈ w.jobs)
    (hc : t.Carries w id v) : v.Sourced nodes := by
  refine ⟨hc.manager ▸ h.workload, fun item hi => ?_, fun x hx => ?_, fun x hx => ?_,
    fun j hm => ?_⟩
  · rcases hc.items item hi with hi | ⟨last, hl, rfl⟩
    · exact h.items item hi
    · exact (h.has hj hl).withError
  · obtain ⟨s, hm, hs⟩ := mem_hands.1 hx
    rcases hc.jobs _ hm with hm | ⟨s', he, hh⟩ | ⟨s', item, he, -⟩
    · exact h.hands x (mem_hands.2 ⟨s, hm, hs⟩)
    · cases he
      exact h.has hj (hh x.2 hs)
    · cases he
  · rw [hc.registry]
    rcases hc.jobs _ (mem_calls.1 hx) with hm | ⟨s, he, -⟩ | ⟨s, item, he, hi, hr, hs⟩
    · exact h.calls x (mem_calls.2 hm)
    · cases he
    · cases he
      rw [hr]
      exact ⟨(h.has hj hi).request, hs⟩
  · rcases hc.jobs j hm with hm | ⟨s, he, -⟩ | ⟨s, item, he, -⟩
    · exact h.unfilled j hm
    · rw [he]
      rfl
    · rw [he]
      rfl

theorem Sourced.call {t : CallTask} (h : w.Sourced nodes) (hj : ⟨id, .call t⟩ ∈ w.jobs)
    (hc : t.Carries w id v) : v.Sourced nodes := by
  have grown : w.registry.toList <+: v.registry.toList := hc.registry ▸ List.prefix_rfl
  refine ⟨hc.manager ▸ h.workload, hc.items ▸ h.items, fun x hx => ?_, fun x hx => ?_,
    fun j hm => ?_⟩
  · obtain ⟨s, hm, hs⟩ := mem_hands.1 hx
    rcases hc.jobs _ hm with hm | ⟨stage, he⟩
    · exact h.hands x (mem_hands.2 ⟨s, hm, hs⟩)
    · cases he
  · have asked : x.2.request.IsOf nodes ∧ w.registry.Serves x.2.adapter x.2.request.protocol := by
      rcases hc.jobs _ (mem_calls.1 hx) with hm | ⟨stage, he⟩
      · exact h.calls x (mem_calls.2 hm)
      · injection he with he
        rw [he]
        exact h.calls (id, t) (mem_calls.2 hj)
    exact asked.imp_right fun hs => hs.mono grown
  · rcases hc.jobs j hm with hm | ⟨stage, he⟩
    · exact h.unfilled j hm
    · rw [he]
      rfl

theorem unfilled_react (h : ∀ j ∈ w.jobs, j.task.isRefill = false)
    (he : (Happening.event e).isSecluded = true) :
    ∀ j ∈ (w.react e).jobs, j.task.isRefill = false := by
  refine @Tends.forall_tasks _ _ _ _ (fun t => t.isRefill = false) (tends_react w e) h
    (fun k hk => ?_) (fun t s hg ht => ?_) fun t ht => ?_
  · obtain ⟨id, signalFirst, -, ha⟩ := of_actor_eq_job hk
    exact h k (mem_of_acting? ha).2.1
  · unfold Task.GoesOn at hg
    split at hg
    all_goals first | rfl | cases ht | exact hg.elim
  · rcases ha : w.actor e with ⟨k, task⟩ | _ | started
    · rw [ha] at ht
      cases task <;> cases t <;> first | rfl | exact ht.elim
    · rw [ha] at ht
      cases t <;> first | rfl | exact ht.elim
    · rw [ha] at ht
      obtain rfl := of_actor_eq_outside ha
      obtain ⟨rfl, -⟩ := ht
      cases t with
      | refill items entered => cases he
      | _ => rfl

theorem Sourced.supplies (h : w.Sourced nodes) (he : (Happening.event e).isSecluded = true) :
    ∀ item ∈ w.supplies e, item.Descends nodes := by
  intro item hi
  cases e with
  | step s =>
    cases s with
    | turn id signalFirst =>
      cases hj : w.job? id with
      | none => simp [World.supplies, hj] at hi
      | some j =>
        simp only [World.supplies, hj, Option.elim_some] at hi
        have hn := h.unfilled j (mem_of_job? hj).1
        rcases j with ⟨k, task⟩
        cases task with
        | plan t =>
          rw [Task.brings, h.workload] at hi
          exact WorkItem.descends_of_mem_workload hi
        | refill items entered => cases hn
        | _ => cases hi
    | pass nanos => cases hi
  | offer item => cases he
  | addAll items => cases he
  | _ => cases hi

theorem Sourced.bystand (h : w.Sourced nodes) (hw : w.Settled) (hc : w.isCrawling e = false)
    (hk : w.isCalling e = false) (he : (Happening.event e).isSecluded = true) :
    (w.react e).Sourced nodes := by
  have hs := react_supplied hw hc hk
  refine ⟨hs.workload.trans h.workload, fun item hi => ?_, fun x hx => ?_, fun x hx => ?_,
    unfilled_react h.unfilled he⟩
  · exact (hs.items item hi).elim (h.items item) (h.supplies he item)
  · exact h.hands x (hands_subset hw hc x hx)
  · exact (h.calls x (calls_subset hc hk hx)).imp_right fun hr => hr.mono hs.registry

theorem Sourced.react (h : w.Sourced nodes) (hw : w.Settled)
    (he : (Happening.event e).isSecluded = true) : (w.react e).Sourced nodes := by
  obtain ⟨n, hs⟩ := hw.sound
  by_cases hc : w.isCrawling e = true
  · obtain ⟨id, signalFirst, t, rfl, hj⟩ := of_isCrawling hc
    have hm := (mem_of_job? hj).1
    obtain ⟨activity, hmode⟩ := hs.isSteady hm
    simp only [World.react, step, hj]
    split
    · exact h.crawl hm (t.turn_round hmode signalFirst).carries
    · exact h
  rw [Bool.not_eq_true] at hc
  by_cases hk : w.isCalling e = true
  · obtain ⟨id, signalFirst, t, rfl, hj⟩ := of_isCalling hk
    simp only [World.react, step, hj]
    split
    · exact h.call (mem_of_job? hj).1 (t.turn_carries w)
    · exact h
  · exact h.bystand hw hc (Bool.not_eq_true _ ▸ hk) he

theorem isOnward_of_isSecluded {x : Happening} (h : x.isSecluded = true) : x.isOnward = true := by
  unfold Happening.isSecluded at h
  split at h
  · cases h
  · cases h
  · cases h
  · exact h

theorem Sourced.meet (h : w.Sourced nodes) (hw : w.Settled) {x : Happening}
    (hx : x.isSecluded = true) : (w.meet x).Sourced nodes := by
  cases x with
  | event e => exact h.react hw hx
  | _ => exact ⟨h.workload, h.items, h.hands, h.calls, h.unfilled⟩

theorem Sourced.undergo (h : w.Sourced nodes) (hw : w.Settled) {list : List Happening}
    (hl : ∀ x ∈ list, x.isSecluded = true) : (w.undergo list).Sourced nodes := by
  induction list generalizing w with
  | nil => exact h
  | cons x rest ih =>
    have hx : x.isSecluded = true := hl x List.mem_cons_self
    exact ih (h.meet hw hx) (hw.meet (isOnward_of_isSecluded hx)) fun y hy =>
      hl y (List.mem_cons_of_mem x hy)

section Sessions

variable {files : Files} {c : Config} {adapters : List Adapter} {uptime : Nat} {start : World}

theorem sourced_start (h : startSession files c adapters uptime = .ok start) :
    start.Sourced c.nodes := by
  have tasks := initial_start h
  obtain ⟨hm, hq⟩ : start.manager.workload = CatalogCrawl.workload c.nodes ∧
      start.queue.items = [] := by
    obtain ⟨p, n, rfl⟩ := of_startSession h
    obtain ⟨i, j, ho⟩ := opened_eq files c adapters uptime
    rw [follow_eq (by rw [ho]; rfl), ho]
    exact ⟨rfl, rfl⟩
  refine ⟨hm, by simp [hq], fun x hx => ?_, fun x hx => ?_, fun j hj => ?_⟩
  · obtain ⟨t, hj, hs⟩ := mem_hands.1 hx
    have hi := tasks _ hj
    simp [Task.isInitial, hs] at hi
  · cases tasks _ (mem_calls.1 hx)
  · have hi := tasks j hj
    rcases j with ⟨k, task⟩
    cases task with
    | refill items entered => cases hi
    | _ => rfl

theorem mem_calls_of_asked {r : Request} (h : w.asked? e = some (i, r)) :
    ∃ x ∈ w.calls, x.2.adapter = i ∧ x.2.request = r := by
  unfold asked? at h
  split at h
  · split at h
    · rename_i j crawler results adapter request hj
      obtain ⟨-, -, he⟩ := Option.map_eq_some_iff.1 h
      cases he
      have hm : (j, (⟨crawler, results, i, r, .starting⟩ : CallTask)) ∈ w.calls :=
        mem_calls.2 (mem_of_job? hj).1
      exact ⟨_, hm, rfl, rfl⟩
    · cases h
  · cases h

/-- As long as nobody outside adds items to the queue of a session, whatever else is done to it: each
item that is queued or in hand is for a node of the configuration and a protocol that it supports,
and has an error if and only if there were attempts, which is that there was no adapter for just this
protocol; and what an adapter is asked for is of the same origin, by a protocol that it serves. -/
theorem session_provenance (h : startSession files c adapters uptime = .ok start)
    (list : List Happening) (hl : ∀ x ∈ list, x.isSecluded = true) :
    let w := start.undergo list
    (∀ item ∈ w.queue.items ++ w.hands.map Prod.snd,
      (∃ node ∈ c.nodes, item.url = node.url ∧ item.protocol ∈ node.protocols) ∧
      (item.error.isSome = true ↔ 0 < item.attempts) ∧
      ∀ message, item.error = some message →
        message = Cycle.noAdapterMessage item.protocol) ∧
    ∀ e i r, w.asked? e = some (i, r) →
      (∃ node ∈ c.nodes, r.url = node.url ∧ r.protocol ∈ node.protocols) ∧
      ∃ a, w.registry.toList[i]? = some a ∧ a.serves r.protocol = true := by
  intro w
  have hw : w.Sourced c.nodes := (sourced_start h).undergo (settled_start h) hl
  refine ⟨fun item hi => ?_, fun e i r ha => ?_⟩
  · have hd : item.Descends c.nodes := by
      rcases List.mem_append.1 hi with hi | hi
      · exact hw.items item hi
      · obtain ⟨x, hx, rfl⟩ := List.mem_map.1 hi
        exact hw.hands x hx
    exact ⟨hd.request, hd.failed, hd.error⟩
  · obtain ⟨x, hx, rfl, rfl⟩ := mem_calls_of_asked ha
    exact hw.calls x hx

def oneNode : Config := { Config.standard with
  partition := { PartitionConfig.standard with crawlerCount := 1 }
  nodes := [⟨"n", ⟨"https", some ⟨"", "", .name "provider.example", none⟩, "/catalog", none, none⟩,
    ["dsp"]⟩] }

def oneNodeStart : World :=
  ({ opened (.empty []) oneNode [] 0 with nextPlan := 2 } : World).follow ⟨.ofSecs 60, .zero, 1⟩

theorem startSession_oneNode : startSession (.empty []) oneNode [] 0 = .ok oneNodeStart := by
  have hv : oneNode.validate = .ok () := by decide
  have hq : ResultQueue.make? oneNode.crawler.resultQueueCapacity 1 = .ok (.empty 1000 1) := rfl
  have hp : ∀ n, oneNode.partition.plan? n = .ok ⟨.ofSecs 60, .zero, n⟩ := fun n => rfl
  unfold startSession
  rw [hv, hq]
  simp only [Except.mapError, bind, Except.bind, hp]
  rfl

def putBackOnce : List Happening :=
  [.event (.step (.turn 3 true)), .event (.step (.turn 2 true))]

def callOnce : List Happening :=
  putBackOnce ++ [.event (.register echo), .event (.step (.turn 2 true))]

theorem session_provenance_oneNode :
    (oneNodeStart.undergo putBackOnce).queue.items.map (fun item => (item.error, item.attempts)) =
      [(some (Cycle.noAdapterMessage "dsp"), 1)] ∧
    (∀ item ∈ (oneNodeStart.undergo putBackOnce).queue.items, ∃ node ∈ oneNode.nodes,
      item.url = node.url ∧ item.protocol ∈ node.protocols) ∧
    ∃ r, (oneNodeStart.undergo callOnce).asked? (.step (.turn 4 true)) = some (0, r) ∧
      (∃ node ∈ oneNode.nodes, r.url = node.url ∧ r.protocol ∈ node.protocols) ∧
      ∃ a, (oneNodeStart.undergo callOnce).registry.toList[0]? = some a ∧
        a.serves r.protocol = true := by
  have hp : ∀ x ∈ putBackOnce, x.isSecluded = true := by
    simp [putBackOnce, Happening.isSecluded, Happening.isOnward]
  have hc : ∀ x ∈ callOnce, x.isSecluded = true := by
    simp [callOnce, putBackOnce, Happening.isSecluded, Happening.isOnward]
  have put := session_provenance startSession_oneNode putBackOnce hp
  have called := session_provenance startSession_oneNode callOnce hc
  refine ⟨by decide +kernel, fun item hi => ?_, ?_⟩
  · exact (put.1 item (List.mem_append_left _ hi)).1
  · have ha : (oneNodeStart.undergo callOnce).asked? (.step (.turn 4 true)) =
        some (0, ⟨⟨"https", some ⟨"", "", .name "provider.example", none⟩, "/catalog", none, none⟩,
          "dsp"⟩) := by decide +kernel
    exact ⟨_, ha, called.2 _ _ _ ha⟩

end Sessions

end World

end CatalogCrawl

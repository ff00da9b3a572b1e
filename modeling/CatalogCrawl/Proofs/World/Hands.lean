import CatalogCrawl.Proofs.World.Order

namespace CatalogCrawl

variable {w v u : World} {id : TaskId} {e : Event} {served : Served}

def Task.inHand? : Task → Option WorkItem
  | .crawl t =>
    match t.stage with
    | .matching item => some item
    | _ => none
  | _ => none

theorem Task.isSome_inHand? (t : Task) : t.inHand?.isSome = t.isMidCycle := by
  cases t with
  | crawl t => cases h : t.stage <;> simp [inHand?, isMidCycle, h]
  | _ => rfl

theorem Task.inHand?_of_not_crawl {t : Task} (h : t.isCrawl = false) : t.inHand? = none := by
  cases t with
  | crawl t => cases h
  | _ => rfl

theorem Task.GoesOn.inHand? {t s : Task} (h : t.GoesOn s) (ht : t.isCrawl = false) :
    s.inHand? = none := by
  refine inHand?_of_not_crawl ?_
  unfold GoesOn at h
  split at h
  all_goals first | rfl | cases ht | exact h.elim

theorem Actor.Starts.inHand? {a : Actor} {config : CrawlerConfig} {t : Task}
    (h : a.Starts config t) (ha : ∀ k, a = .job k → k.task.isManage = false) :
    t.inHand? = none := by
  unfold Starts at h
  split at h
  · cases ha _ rfl
  · rfl
  · rfl
  · obtain ⟨rfl, he⟩ := h
    cases t with
    | crawl t => cases he
    | _ => rfl
  · exact h.elim

def Job.hand (j : Job) : Option (TaskId × WorkItem) := j.task.inHand?.map (j.id, ·)

structure Task.IsTrait {β : Type} (g : Task → Option β) : Prop where
  isSome : ∀ t, (g t).isSome = t.isMidCycle
  doomed : ∀ t : CrawlTask, g (.crawl { t with doomed := true }) = g (.crawl t)

theorem Task.isTrait_inHand? : IsTrait inHand? := ⟨isSome_inHand?, fun _ => rfl⟩

theorem Task.IsTrait.none_of_inHand? {β : Type} {g : Task → Option β} (hg : IsTrait g) {t : Task}
    (h : t.inHand? = none) : g t = none := by
  rw [← Option.isNone_iff_eq_none, ← Option.not_isSome, hg.isSome, ← isSome_inHand?, h]
  rfl

def Job.trait {β : Type} (g : Task → Option β) (j : Job) : Option (TaskId × β) :=
  (g j.task).map (j.id, ·)

theorem Job.id_of_mem_trait {β : Type} {g : Task → Option β} {j : Job} {x : TaskId × β}
    (h : x ∈ j.trait g) : x.1 = j.id := by
  obtain ⟨b, -, rfl⟩ := Option.map_eq_some_iff.1 h
  rfl

theorem Job.id_of_mem_hand {j : Job} {x : TaskId × WorkItem} (h : x ∈ j.hand) : x.1 = j.id := by
  exact id_of_mem_trait h

namespace World

section Gather

variable {β : Type} (f : Job → Option β)

def gather (w : World) : List β := w.jobs.filterMap f

theorem gather_keepFirst (w : World) (id : TaskId) (t : Task) :
    (w.keepFirst id t).gather f = (f ⟨id, t⟩).toList ++ (w.removeJob id).gather f := by
  unfold gather keepFirst
  cases h : f ⟨id, t⟩ <;> simp [h]

theorem gather_keepLast (w : World) (id : TaskId) (t : Task) :
    (w.keepLast id t).gather f = (w.removeJob id).gather f ++ (f ⟨id, t⟩).toList := by
  unfold gather keepLast
  cases h : f ⟨id, t⟩ <;> simp [List.filterMap_append, h]

theorem filterMap_cons_toList (j : Job) (jobs : List Job) :
    (j :: jobs).filterMap f = (f j).toList ++ jobs.filterMap f := by
  cases h : f j <;> simp [h]

theorem gather_of_mem (h : w.Sound none 0 served) {t : Task} (hm : ⟨id, t⟩ ∈ w.jobs) :
    (w.gather f).Perm ((f ⟨id, t⟩).toList ++ (w.removeJob id).gather f) := by
  have hd := h.distinct
  rw [others_none] at hd
  have hp := (Job.perm_cons_filter hd hm).filterMap f
  exact hp.symm.trans (.of_eq (filterMap_cons_toList f _ _))

theorem gather_keepInPlace (h : w.Sound none 0 served) {s : Task} (hm : ⟨id, s⟩ ∈ w.jobs)
    (t : Task) :
    ((w.keepInPlace id t).gather f).Perm ((f ⟨id, t⟩).toList ++ (w.removeJob id).gather f) := by
  have hd := h.distinct
  rw [others_none] at hd
  have hp := (Job.map_perm_cons_filter hd hm t).filterMap f
  exact hp.trans (.of_eq (filterMap_cons_toList f _ _))

variable {f}

theorem nodup_gather (h : w.Sound none 0 served) (key : β → TaskId)
    (hf : ∀ j x, f j = some x → key x = j.id) : ((w.gather f).map key).Nodup := by
  have hd := h.distinct
  rw [others_none] at hd
  rw [List.Nodup, List.pairwise_map] at hd ⊢
  rw [gather, List.pairwise_filterMap]
  refine hd.imp fun hn x hx y hy => ?_
  rwa [hf _ x hx, hf _ y hy]

end Gather

def hands (w : World) : List (TaskId × WorkItem) := w.jobs.filterMap Job.hand

def otherHands (w : World) (id : TaskId) : List (TaskId × WorkItem) :=
  (w.removeJob id).hands

theorem length_hands (w : World) : w.hands.length = w.midCycle := by
  rw [hands, midCycle, List.length_filterMap_eq_countP]
  refine List.countP_congr fun j _ => ?_
  rw [Job.hand, Option.isSome_map, Task.isSome_inHand?]

theorem hands_keepFirst (w : World) (id : TaskId) (t : Task) :
    (w.keepFirst id t).hands = (Job.hand ⟨id, t⟩).toList ++ w.otherHands id :=
  gather_keepFirst Job.hand w id t

theorem hands_keepLast (w : World) (id : TaskId) (t : Task) :
    (w.keepLast id t).hands = w.otherHands id ++ (Job.hand ⟨id, t⟩).toList :=
  gather_keepLast Job.hand w id t

theorem hands_of_mem (h : w.Sound none 0 served) {t : Task} (hm : ⟨id, t⟩ ∈ w.jobs) :
    w.hands.Perm ((Job.hand ⟨id, t⟩).toList ++ w.otherHands id) :=
  gather_of_mem Job.hand h hm

theorem nodup_hands (h : w.Sound none 0 served) : (w.hands.map Prod.fst).Nodup :=
  nodup_gather (f := Job.hand) h Prod.fst fun _ _ hx => Job.id_of_mem_hand hx

section Traits

variable {β : Type} {g : Task → Option β}

def traits (g : Task → Option β) (w : World) : List (TaskId × β) := w.gather (Job.trait g)

theorem length_traits (hg : Task.IsTrait g) (w : World) :
    (w.traits g).length = w.midCycle := by
  rw [traits, gather, midCycle, List.length_filterMap_eq_countP]
  refine List.countP_congr fun j _ => ?_
  rw [Job.trait, Option.isSome_map, hg.isSome]

theorem nodup_traits (h : w.Sound none 0 served) (g : Task → Option β) :
    (w.traits g).Nodup :=
  (nodup_gather (f := Job.trait g) h Prod.fst fun _ _ hx => Job.id_of_mem_trait hx).of_map

theorem trait_of_jobs (hg : Task.IsTrait g) (h : ∀ j ∈ v.jobs, j.task.inHand? = none ∨ j ∈ w.jobs ∨
      ∃ t : CrawlTask, ⟨j.id, .crawl t⟩ ∈ w.jobs ∧ j.task = .crawl { t with doomed := true }) :
    ∀ x ∈ v.traits g, x ∈ w.traits g := by
  intro x hx
  obtain ⟨j, hj, hh⟩ := List.mem_filterMap.1 hx
  rcases h j hj with hn | hm | ⟨t, hm, ht⟩
  · rw [Job.trait, hg.none_of_inHand? hn] at hh
    cases hh
  · exact List.mem_filterMap.2 ⟨j, hm, hh⟩
  · rw [Job.trait, ht, hg.doomed] at hh
    exact List.mem_filterMap.2 ⟨_, hm, hh⟩

theorem Deed.traits {n : Nat} (hg : Task.IsTrait g) (h : w.Deed id n v) :
    ∀ x ∈ v.traits g, x ∈ w.traits g := by
  refine trait_of_jobs hg fun j hj => ?_
  rcases h.jobs j hj with hm | hd | ⟨-, c, hc, -⟩
  · exact .inr (.inl hm)
  · exact .inr (.inr hd)
  · exact .inl (by rw [hc]; rfl)

theorem Deeds.traits {n : Nat} (hg : Task.IsTrait g) (h : Deeds id n w v) :
    ∀ x ∈ v.traits g, x ∈ w.traits g := by
  induction h with
  | refl => exact fun x hx => hx
  | head hd _ ih => exact fun x hx => hd.traits hg x (ih x hx)

theorem traits_callsFrom (hg : Task.IsTrait g) (crawler : Crawler) (results : Nat) (r : Request)
    (first : TaskId) (adapters : List Nat) :
    (callsFrom crawler results r first adapters).filterMap (Job.trait g) = [] := by
  rw [List.filterMap_eq_nil_iff]
  intro j hj
  obtain ⟨a, -, ht⟩ := task_of_mem_callsFrom hj
  rw [Job.trait, ht, hg.none_of_inHand? rfl]
  rfl

theorem otherTraits_worked (hg : Task.IsTrait g) (w : World) (t : CrawlTask) (activity : Nat)
    (item : WorkItem) (id : TaskId) :
    ((w.worked t activity item).removeJob id).traits g = (w.removeJob id).traits g := by
  have hc : ∀ jobs : List Job, jobs.filterMap (Job.trait g) = [] →
      (jobs.filter fun j => j.id != id).filterMap (Job.trait g) = [] := by
    intro jobs hj
    rw [List.filterMap_eq_nil_iff] at hj ⊢
    exact fun j hm => hj j (List.mem_of_mem_filter hm)
  simp only [traits, gather, removeJob, worked, List.filter_append, List.filterMap_append]
  rw [hc _ (traits_callsFrom hg _ _ _ _ _), List.append_nil]

theorem traits_complete (hg : Task.IsTrait g) {t : CrawlTask} {activity : Nat}
    (hm : t.mode = .steady activity) (w : World) (id : TaskId) (item : WorkItem) :
    (t.complete w id item).traits g = (w.removeJob id).traits g := by
  have hn : g (.crawl { t with stage := .looking }) = none := hg.none_of_inHand? rfl
  rw [CrawlTask.complete_eq hm]
  split
  · exact otherTraits_worked hg w t activity item id
  · rw [traits, gather_keepFirst, Job.trait, hn]
    exact otherTraits_worked hg w t activity item id

theorem traits_subset (hg : Task.IsTrait g) (h : w.Settled) (hc : w.isCrawling e = false) :
    ∀ x ∈ (w.react e).traits g, x ∈ w.traits g := by
  by_cases hm : w.isManaging e = true
  · rcases of_isManaging hm with ⟨id, signalFirst, t, rfl, ha, hr⟩ | ⟨p, rfl⟩ | rfl
    · rw [hr]
      rcases t.turn_does h.toWired (h.proper id t (mem_of_acting? ha).2.1 nofun) with
        he | ⟨n, v, hd, he⟩
      · rw [he]
        exact fun x hx => hx
      · refine fun x hx => hd.traits hg x (trait_of_jobs hg (fun j hj => ?_) x hx)
        rcases he.jobs j hj with ⟨hv, -⟩ | ⟨stage, rfl, -⟩
        · exact .inr (.inl hv)
        · exact .inl rfl
    · obtain ⟨signals, hf, -⟩ := w.follow_cases p
      rw [react, hf]
      refine trait_of_jobs hg fun j hj => ?_
      rcases List.mem_append.1 hj with hj | hj
      · exact .inr (.inl hj)
      · rw [List.mem_singleton.1 hj]
        exact .inl rfl
    · obtain ⟨v, hv, -, hd⟩ := w.dropManager_cases
      rw [react, hd]
      exact fun x hx => (hv.deeds 0).traits hg x hx
  · refine trait_of_jobs hg fun j hj => ?_
    rcases (tends_react w e).jobs j hj with hj | ⟨k, hk, -, hk'⟩ | ⟨t, ht, he⟩ | ⟨-, hs⟩
    · exact .inr (.inl hj)
    · refine .inl (hk'.inHand? ?_)
      obtain ⟨id, signalFirst, rfl, ha⟩ := of_actor_eq_job hk
      simpa [isCrawling, (mem_of_acting? ha).1] using hc
    · exact .inr (.inr ⟨t, ht, he⟩)
    · refine .inl (hs.inHand? fun k hk => ?_)
      obtain ⟨id, signalFirst, rfl, ha⟩ := of_actor_eq_job hk
      simpa [isManaging, ha] using hm

theorem traits_polling (hg : Task.IsTrait g) (h : w.Settled) (hp : w.isPolling e = true) :
    ∀ x ∈ w.traits g, x ∈ (w.react e).traits g := by
  obtain ⟨n, hs⟩ := h.sound
  obtain ⟨id, signalFirst, ticket, deadline, rfl, hj⟩ := of_isPolling hp
  simp only [react, step, hj]
  split
  · intro x hx
    obtain ⟨j, hm, hh⟩ := List.mem_filterMap.1 hx
    refine List.mem_filterMap.2 ⟨j, (pollTurn_aloof w ticket deadline).others j hm ?_, hh⟩
    rintro rfl
    rw [hs.job?_of_mem hm] at hj
    rw [Job.trait, Option.some.inj hj, hg.none_of_inHand? rfl] at hh
    cases hh
  · exact fun x hx => hx

end Traits

theorem hands_subset (h : w.Settled) (hc : w.isCrawling e = false) :
    ∀ x ∈ (w.react e).hands, x ∈ w.hands :=
  traits_subset Task.isTrait_inHand? h hc

theorem midCycle_eq (h : w.Sound none 0 served) :
    w.queue.taken = w.stats.cycles + w.midCycle + served.getD 0 := by
  have ht := h.books.taken
  rwa [burden, zero_add, others_none, items_total] at ht

theorem stats_pollTurn (w : World) (ticket : Option Nat) (deadline : Nat) :
    (w.pollTurn id ticket deadline).stats = w.stats := by
  have follow (r : WorkQueue.Attempt × WorkQueue) :
      (w.followPoll id deadline r).stats = w.stats := by
    rcases r with ⟨_ | _ | _, q⟩ <;> rfl
  cases ticket with
  | none => exact follow _
  | some ticket =>
    rw [pollTurn_some]
    split
    · exact follow _
    split <;> rfl

theorem cycles_polling (hp : w.isPolling e = true) :
    (w.react e).stats.cycles = w.stats.cycles := by
  obtain ⟨id, signalFirst, ticket, deadline, rfl, hj⟩ := of_isPolling hp
  simp only [react, step, hj]
  split
  · exact congrArg CrawlStats.cycles (stats_pollTurn w ticket deadline)
  · rfl

theorem taken_pollTurn (w : World) (ticket : Option Nat) (deadline : Nat)
    (hi : (w.pollTurn id ticket deadline).queue.items = w.queue.items) :
    (w.pollTurn id ticket deadline).queue.taken = w.queue.taken := by
  have kept {q : WorkQueue} {new : Option WorkItem} (hq : q.items = w.queue.items)
      (he : (∃ item, new = some item ∧ w.queue.Gives q item) ∨
        (new = none ∧ w.queue.Admits q [])) : q.taken = w.queue.taken := by
    rcases he with ⟨item, -, hg⟩ | ⟨-, ha⟩
    · exact absurd (hq ▸ hg.items) (List.cons_ne_self _ _).symm
    · exact ha.taken
  have follow (r : WorkQueue.Attempt × WorkQueue) :
      (w.followPoll id deadline r).queue = r.2 := by
    rcases r with ⟨_ | _ | _, q⟩ <;> rfl
  cases ticket with
  | none =>
    rw [pollTurn_none, follow] at hi ⊢
    exact kept hi w.queue.attempt_effect
  | some ticket =>
    rw [pollTurn_some] at hi ⊢
    split
    · rename_i hr
      rw [if_pos hr, follow] at hi
      rw [follow]
      exact kept hi (w.queue.woken_effect ticket)
    split
    · rename_i hr hd
      rw [if_neg hr, if_pos hd] at hi
      exact kept hi (w.queue.expire_effect ticket)
    · rfl

theorem taken_react (h : w.Settled) (hc : w.isCrawling e = false)
    (hi : (w.react e).queue.items = w.queue.items) :
    (w.react e).queue.taken = w.queue.taken := by
  obtain ⟨n, hs⟩ := h.sound
  by_cases hp : w.isPolling e = true
  · obtain ⟨id, signalFirst, ticket, deadline, rfl, hj⟩ := of_isPolling hp
    simp only [react, step, hj] at hi ⊢
    split
    · rename_i hr
      rw [if_pos hr] at hi
      exact taken_pollTurn w ticket deadline hi
    · rfl
  · obtain ⟨steps, -, he⟩ := react_ended hs hc (Bool.not_eq_true _ ▸ hp) (.inl rfl)
    exact he.taken

theorem traits_react {β : Type} {g : Task → Option β} (hg : Task.IsTrait g) (h : w.Settled)
    (hc : w.isCrawling e = false) : ((w.react e).traits g).Perm (w.traits g) := by
  obtain ⟨n, hs⟩ := h.sound
  have hsub := traits_subset hg h hc
  by_cases hp : w.isPolling e = true
  · obtain ⟨m, hm⟩ := react_polled hs hp
    exact (List.perm_ext_iff_of_nodup (nodup_traits hm g) (nodup_traits hs g)).2 fun x =>
      ⟨hsub x, traits_polling hg h hp x⟩
  · obtain ⟨steps, -, he⟩ := react_ended hs hc (Bool.not_eq_true _ ▸ hp) (.inl rfl)
    have hl : (w.traits g).length = ((w.react e).traits g).length := by
      have := he.taken
      have := midCycle_eq hs
      have := midCycle_eq he.sound
      have := he.cycles
      rw [length_traits hg, length_traits hg]
      omega
    exact (List.subperm_of_subset (nodup_traits he.sound g) hsub).perm_of_length_le hl.le

theorem hands_react (h : w.Settled) (hc : w.isCrawling e = false) :
    (w.react e).hands.Perm w.hands ∧ (w.react e).stats.cycles = w.stats.cycles := by
  obtain ⟨n, hs⟩ := h.sound
  refine ⟨traits_react Task.isTrait_inHand? h hc, ?_⟩
  by_cases hp : w.isPolling e = true
  · exact cycles_polling hp
  · obtain ⟨steps, -, he⟩ := react_ended hs hc (Bool.not_eq_true _ ▸ hp) (.inl rfl)
    exact he.cycles

end World

end CatalogCrawl

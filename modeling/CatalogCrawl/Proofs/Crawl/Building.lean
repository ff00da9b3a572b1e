import CatalogCrawl.Crawl.Builder
import Mathlib.Data.List.Induction

namespace CatalogCrawl

namespace Registry

theorem adapters_extend (r : Registry) (adapters : List Adapter) :
    (r.extend adapters).adapters = r.adapters ++ adapters.map fun a => (a, 0) := by
  induction adapters generalizing r with
  | nil => simp [extend]
  | cons a rest ih =>
    rw [extend, List.foldl_cons]
    exact (ih (r.register a)).trans (by simp [register])

theorem map_snd_matching (r : Registry) (protocol : String) :
    (r.matching protocol).map Prod.snd = r.toList.filter (·.serves protocol) := by
  have shifted (k : Nat) : ((r.toList.zipIdx k).filterMap fun x =>
      if x.1.serves protocol then some (x.2, x.1) else none).map Prod.snd =
        r.toList.filter (·.serves protocol) := by
    induction r.toList generalizing k with
    | nil => rfl
    | cons a rest ih =>
      by_cases h : a.serves protocol
      · simp [h, ih]
      · simp [h, ih]
  exact shifted 0

end Registry

inductive BuilderPart
  | id
  | config
  | queue
  | results
  | monitor
  | stats
  | adapters
  deriving DecidableEq

namespace BuilderPart

@[reducible] def Given (n : Nat) : BuilderPart → Type
  | .id | .queue | .results | .monitor => Nat
  | .config => CrawlerConfig
  | .stats => CrawlStats
  | .adapters => Fin n

end BuilderPart

inductive BuilderCall (n : Nat)
  | set (part : BuilderPart) (given : part.Given n)
  | adapter (a : Adapter)

namespace BuilderCall

variable {n : Nat}

def apply (b : CrawlerBuilder) : BuilderCall n → CrawlerBuilder
  | .set .id id => b.withId id
  | .set .config c => b.withConfig c
  | .set .queue q => b.withQueue q
  | .set .results r => b.withResults r
  | .set .monitor m => b.withMonitor m
  | .set .stats s => b.withStats s
  | .set .adapters r => b.withRegistry (Fin.val r)
  | .adapter a => b.withAdapter a

def given? (part : BuilderPart) : BuilderCall n → Option (part.Given n)
  | .set p given => if h : p = part then some (h ▸ given) else none
  | .adapter _ => none

def adapter? : BuilderCall n → Option Adapter
  | .set _ _ => none
  | .adapter a => some a

def last? (part : BuilderPart) (calls : List (BuilderCall n)) : Option (part.Given n) :=
  (calls.filterMap (given? part)).getLast?

def adapters (calls : List (BuilderCall n)) : List Adapter := calls.filterMap adapter?

theorem last?_concat (part : BuilderPart) (calls : List (BuilderCall n)) (c : BuilderCall n) :
    last? part (calls ++ [c]) = (given? part c).or (last? part calls) := by
  unfold last?
  rw [List.filterMap_append, List.getLast?_append]
  cases hc : given? part c <;> simp [List.filterMap, hc]

theorem adapters_concat (calls : List (BuilderCall n)) (c : BuilderCall n) :
    adapters (calls ++ [c]) = adapters calls ++ (adapter? c).toList := by
  unfold adapters
  rw [List.filterMap_append]
  cases hc : adapter? c <;> simp [List.filterMap, hc]

end BuilderCall

namespace CrawlerBuilder

variable {n : Nat}

def after (calls : List (BuilderCall n)) : CrawlerBuilder := calls.foldl BuilderCall.apply empty

theorem after_eq (calls : List (BuilderCall n)) :
    after calls = {
      id := BuilderCall.last? .id calls
      config := BuilderCall.last? .config calls
      queue := BuilderCall.last? .queue calls
      results := BuilderCall.last? .results calls
      monitor := BuilderCall.last? .monitor calls
      stats := BuilderCall.last? .stats calls
      registry := (BuilderCall.last? .adapters calls).map Fin.val
      extra := BuilderCall.adapters calls } := by
  induction calls using List.reverseRecOn with
  | nil => rfl
  | append_singleton calls c ih =>
    have hs : after (calls ++ [c]) = c.apply (after calls) := List.foldl_append
    rw [hs, ih]
    simp only [BuilderCall.last?_concat, BuilderCall.adapters_concat]
    rcases c with ⟨part, given⟩ | a
    · cases part <;> simp [BuilderCall.apply, BuilderCall.given?, BuilderCall.adapter?, withId,
        withConfig, withQueue, withResults, withMonitor, withStats, withRegistry]
    · simp [BuilderCall.apply, BuilderCall.given?, BuilderCall.adapter?, withAdapter]

end CrawlerBuilder

def BuiltCrawler.asks (c : BuiltCrawler) (registries : List Registry) (protocol : String) :
    List Adapter :=
  match registries[c.registry]? with
  | some r => (r.matching protocol).map Prod.snd
  | none => []

namespace CrawlerBuilder

variable (registries : List Registry) (calls : List (BuilderCall registries.length))

theorem build_without_queue (h : BuilderCall.last? .queue calls = none) :
    (after calls).build registries =
      (.error (.missingComponent "work item queue"), registries) := by
  rw [after_eq, build]
  simp only [h]

theorem build_without_results {queue : Nat} (hq : BuilderCall.last? .queue calls = some queue)
    (hr : BuilderCall.last? .results calls = none) :
    (after calls).build registries =
      (.error (.missingComponent "result queue"), registries) := by
  rw [after_eq, build]
  simp only [hq, hr]

/-- Where the registry is that the adapters join: the one shared last, or a new one. -/
def home : Nat :=
  match BuilderCall.last? .adapters calls with
  | some position => position.val
  | none => registries.length

theorem build_complete {queue results : Nat} (hq : BuilderCall.last? .queue calls = some queue)
    (hr : BuilderCall.last? .results calls = some results) :
    ((after calls).build registries).1 = .ok {
      id := (BuilderCall.last? .id calls).getD 0
      config := (BuilderCall.last? .config calls).getD .standard
      queue := queue
      results := results
      monitor := BuilderCall.last? .monitor calls
      stats := (BuilderCall.last? .stats calls).getD .zero
      registry := home registries calls } := by
  rw [after_eq, build, home]
  simp only [hq, hr]
  cases BuilderCall.last? .adapters calls <;> rfl

theorem registries_build {queue results : Nat}
    (hq : BuilderCall.last? .queue calls = some queue)
    (hr : BuilderCall.last? .results calls = some results) (position : Nat) :
    ((after calls).build registries).2[position]? =
      if position = home registries calls then
        some ((registries[position]?.getD .empty).extend (BuilderCall.adapters calls))
      else registries[position]? := by
  rw [after_eq, build, home]
  simp only [hq, hr]
  rcases BuilderCall.last? .adapters calls with _ | shared
  · simp only [Option.map_none, List.getElem?_modify, List.getElem?_append]
    rcases Nat.lt_trichotomy position registries.length with hp | hp | hp
    · simp [hp, Nat.ne_of_lt hp, Nat.ne_of_gt hp]
    · simp [hp]
    · have hn : registries[position]? = none := List.getElem?_eq_none (Nat.le_of_lt hp)
      have hd : position - registries.length ≠ 0 := Nat.sub_ne_zero_of_lt hp
      simp [Nat.ne_of_lt hp, Nat.ne_of_gt hp, hn, hd]
  · simp only [Option.map_some, List.getElem?_modify]
    by_cases hp : position = shared.val
    · simp [hp]
    · simp [hp, Ne.symm hp]

theorem asks_build {queue results : Nat} (hq : BuilderCall.last? .queue calls = some queue)
    (hr : BuilderCall.last? .results calls = some results) (other : BuiltCrawler)
    (protocol : String) :
    other.asks ((after calls).build registries).2 protocol =
      other.asks registries protocol ++
        if other.registry = home registries calls then
          (BuilderCall.adapters calls).filter (·.serves protocol)
        else [] := by
  unfold BuiltCrawler.asks
  rw [registries_build registries calls hq hr]
  by_cases hp : other.registry = home registries calls
  · simp only [hp, if_true, Registry.map_snd_matching, Registry.toList_extend, List.filter_append]
    cases registries[home registries calls]? <;> rfl
  · simp only [hp, if_false, List.append_nil]

/-- Without a queue, or else without a place for results, the build says so and leaves all registries
alone. Otherwise the crawler has of each part what was given last, or the default. The adapters are
in its registry, after what was there and in the order of their calls, for whoever shares it; no
other registry has changed. -/
theorem build_after :
    (BuilderCall.last? .queue calls = none →
      (after calls).build registries =
        (.error (.missingComponent "work item queue"), registries)) ∧
    (∀ queue, BuilderCall.last? .queue calls = some queue →
      BuilderCall.last? .results calls = none →
        (after calls).build registries =
          (.error (.missingComponent "result queue"), registries)) ∧
    ∀ queue results, BuilderCall.last? .queue calls = some queue →
      BuilderCall.last? .results calls = some results →
        ((after calls).build registries).1 = .ok {
          id := (BuilderCall.last? .id calls).getD 0
          config := (BuilderCall.last? .config calls).getD .standard
          queue := queue
          results := results
          monitor := BuilderCall.last? .monitor calls
          stats := (BuilderCall.last? .stats calls).getD .zero
          registry := home registries calls } ∧
        (∀ position, ((after calls).build registries).2[position]? =
          if position = home registries calls then
            some ⟨(registries[position]?.getD .empty).adapters ++
              (BuilderCall.adapters calls).map fun a => (a, 0)⟩
          else registries[position]?) ∧
        ∀ (other : BuiltCrawler) (protocol : String),
          other.asks ((after calls).build registries).2 protocol =
            other.asks registries protocol ++
              if other.registry = home registries calls then
                (BuilderCall.adapters calls).filter (·.serves protocol)
              else [] := by
  refine ⟨build_without_queue registries calls,
    fun queue hq hr => build_without_results registries calls hq hr,
    fun queue results hq hr => ⟨build_complete registries calls hq hr, fun position => ?_,
      asks_build registries calls hq hr⟩⟩
  rw [registries_build registries calls hq hr, ← Registry.adapters_extend]

end CrawlerBuilder

end CatalogCrawl

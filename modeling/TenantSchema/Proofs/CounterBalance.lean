import TenantSchema.Proofs.RegistryRuns
import TenantSchema.Store.Directory

/-!
# The balance of the counters

A run of a registry is any interleaving of calls: between a question to the resolver and its answer
everything may happen, and the answer may be anything. Every step keeps the books: what was asked of
the registry, what its counters count and what its listener has heard agree.
-/

namespace TenantSchema

/-! ### Counters and events -/

namespace Counters

/-- The counter of the events of a name. -/
def count (c : Counters) : Event → UInt64
  | .cacheHit _ => c.hits
  | .cacheMiss _ => c.misses
  | .resolverCall .. => c.resolverCalls
  | .resolverError .. => c.resolverErrors
  | .discarded .. => c.discarded
  | .registered _ => c.registered
  | .unregistered _ => c.unregistered
  | .conflict _ => c.conflicts

/-- The limit of a counter. -/
def limit : Nat := 18446744073709551615

/-- No counter has reached its limit. -/
def HasRoom (c : Counters) : Prop := ∀ e, (c.count e).toNat < limit

end Counters

/-- The number of events of a name. -/
def named (name : String) (told : List Event) : Nat := told.countP (·.name = name)

section named

variable (name : String) (e : Event) (told more : List Event)

@[simp] theorem named_nil : named name [] = 0 := rfl

@[simp] theorem named_append : named name (told ++ more) = named name told + named name more :=
  List.countP_append ..

@[simp] theorem named_cons :
    named name (e :: told) = (if e.name = name then 1 else 0) + named name told := by
  unfold named
  rw [List.countP_cons, Nat.add_comm]
  simp

end named

theorem toNat_bump (n : UInt64) : (bump n).toNat = min (n.toNat + 1) Counters.limit := by
  have hlt := n.toNat_lt
  have hsucc : (n + 1).toNat = (n.toNat + 1) % 18446744073709551616 := UInt64.toNat_add n 1
  unfold bump Counters.limit
  by_cases hfull : n + 1 = 0
  · have hzero : (n + 1).toNat = 0 := congrArg UInt64.toNat hfull
    rw [if_pos hfull]
    omega
  · have hne : (n + 1).toNat ≠ 0 := fun h => hfull (UInt64.toNat_inj.mp h)
    rw [if_neg hfull]
    omega

/-- An event adds to the counter of its name and to no other. -/
theorem Counters.count_record (c : Counters) (e e' : Event) :
    (c.record e).count e' = if e.name = e'.name then bump (c.count e') else c.count e' := by
  cases e <;> cases e' <;> simp [record, count, Event.name]

/-- Counters count until they are full. -/
theorem Counters.toNat_count_foldl (c : Counters) (told : List Event) (e : Event) :
    ((told.foldl record c).count e).toNat =
      min ((c.count e).toNat + named e.name told) limit := by
  unfold limit
  induction told generalizing c with
  | nil =>
    have hlt := (c.count e).toNat_lt
    simp only [List.foldl_nil, named_nil]
    omega
  | cons first rest ih =>
    rw [List.foldl_cons, ih, count_record, named_cons]
    by_cases hname : first.name = e.name
    · rw [if_pos hname, if_pos hname, toNat_bump, limit]
      omega
    · rw [if_neg hname, if_neg hname, Nat.zero_add]

/-! ### The books -/

/-- What is told and what is done agree, with some questions open before and some after. -/
structure Balanced (told : List Event) (deeds : List Deed) (before after : Nat) : Prop where
  sought : named "cache_hit" told + named "cache_miss" told = deeds.countP Deed.seeks
  called : named "resolver_call" told ≤ named "cache_miss" told
  answered : named "resolver_error" told + named "discarded" told + after ≤
    named "resolver_call" told + before
  registered : named "registered" told = deeds.countP Deed.registers
  conflicts : named "conflict" told = deeds.countP Deed.conflicts
  dropped : named "unregistered" told = deeds.countP Deed.drops

namespace Balanced

theorem rest (asked : Nat) : Balanced [] [] asked asked := by
  constructor <;> simp

theorem append {told more : List Event} {deeds done : List Deed} {a b c : Nat}
    (h : Balanced told deeds a b) (h' : Balanced more done b c) :
    Balanced (told ++ more) (deeds ++ done) a c := by
  have hcalled := h.called
  have hcalled' := h'.called
  have hanswered := h.answered
  have hanswered' := h'.answered
  constructor
  · simp only [named_append, List.countP_append, ← h.sought, ← h'.sought]
    omega
  · simp only [named_append]
    omega
  · simp only [named_append]
    omega
  · simp only [named_append, List.countP_append, h.registered, h'.registered]
  · simp only [named_append, List.countP_append, h.conflicts, h'.conflicts]
  · simp only [named_append, List.countP_append, h.dropped, h'.dropped]

theorem registration (domain : Int) (outcome : Except RegistryError Unit) (asked : Nat) :
    Balanced (Store.registrationEvents domain outcome) [.registered outcome] asked asked := by
  rcases outcome with ((keys | _) | e) | _ <;> constructor <;>
    simp [Store.registrationEvents, Event.name, Deed.seeks, Deed.registers, Deed.conflicts,
      Deed.drops]

theorem dropping (domain : Int) (any : Bool) (asked : Nat) :
    Balanced (Store.droppingEvents domain any) [.dropped any] asked asked := by
  cases any <;> constructor <;>
    simp [Store.droppingEvents, Event.name, Deed.seeks, Deed.registers, Deed.conflicts, Deed.drops]

/-- What is no search is not counted. -/
theorem idle {kind : DatasetKind} {domain : Int} {path : String}
    (h : ¬ Store.Seeks kind domain path) (asked : Nat) :
    Balanced [] [.sought kind domain path] asked asked := by
  constructor <;> simp [Deed.seeks, Deed.registers, Deed.conflicts, Deed.drops, h]

theorem sighting {r : Registry} {kind : DatasetKind} {told : List Event}
    {outcome : Option Descriptor ⊕ Store.Question} (h : Store.Sighting r kind told outcome)
    {domain : Int} {path : String} (hseeks : Store.Seeks kind domain path) (asked : Nat) :
    Balanced told [.sought kind domain path] asked
      (outcome.getRight?.toList.length + asked) := by
  cases h <;> constructor <;>
    simp [Event.name, Deed.seeks, Deed.registers, Deed.conflicts, Deed.drops, hseeks, Nat.add_comm]

/-- An answer closes its question. -/
theorem verdict (q : Store.Question) (answer : Except Error (Option Descriptor)) (asked : Nat) :
    Balanced (q.verdict answer) [] (asked + 1) asked := by
  have htold : q.verdict answer = [] ∨ q.verdict answer = [.resolverError q.kind q.domain] ∨
      q.verdict answer = [.discarded q.kind q.domain] := by
    rcases answer with e | _ | d
    · exact .inr (.inl rfl)
    · exact .inl rfl
    · by_cases hd : q.admits d
      · exact .inl (if_pos hd)
      · exact .inr (.inr (if_neg hd))
  rcases htold with htold | htold | htold <;> rw [htold] <;> constructor <;>
    simp [Event.name, Nat.add_comm]

/-- What happens at handles on other registries leaves no trace in the books. -/
theorem echo {w : Watch} {r : Registry} {told : List Event} {deeds : List Deed} {asked : Nat}
    (h : Balanced told deeds asked asked) :
    Balanced (w.echo r told) (w.echo r deeds) asked asked := by
  by_cases hr : w.On r
  · rw [Watch.echo_on hr, Watch.echo_on hr]
    exact h
  · rw [Watch.echo_off hr, Watch.echo_off hr]
    exact rest asked

end Balanced

/-! ### Runs -/

namespace Store

variable {σ : Type} {w : Watch}

/-- The question of a search is one of the registry that is searched. -/
theorem Sighting.pending_append {r : Registry} {kind : DatasetKind} {told : List Event}
    {outcome : Option Descriptor ⊕ Question} (h : Sighting r kind told outcome) (s s' : Store σ)
    (asked : List Question) :
    Moment.pending w ⟨s', outcome.getRight?.toList ++ asked⟩ =
      (w.echo r outcome.getRight?.toList).length + Moment.pending w ⟨s, asked⟩ := by
  cases h with
  | hit => simp [Moment.pending]
  | missed => simp [Moment.pending]
  | asked domain q hq =>
    subst hq
    by_cases hon : w.On q.registry
    · simp [Moment.pending, Watch.echo_on, hon, Nat.add_comm]
    · simp [Moment.pending, Watch.echo_off, hon]

/-- A step is told just as it is done. -/
theorem Step.balanced {m m' : Moment σ} {done : List Deed} (h : Step w m done m') :
    ∃ told, Emits w told m.store m'.store ∧ Balanced told done (m.pending w) (m'.pending w) := by
  cases h with
  | elsewhere h => exact ⟨[], h, .rest _⟩
  | @registers s asked r hr d =>
    exact ⟨_, emits_register hr d s, (Balanced.registration d.domain _ _).echo⟩
  | @unregisters s asked r hr d =>
    exact ⟨_, emits_unregister hr d s, (Balanced.dropping d.domain _ _).echo⟩
  | @invalidates s asked r hr domain key =>
    obtain ⟨dropped, htold⟩ := emits_invalidate hr domain key s
    exact ⟨_, htold, (Balanced.dropping dropped _ _).echo⟩
  | @seeks s asked r hr kind domain path =>
    by_cases hseeks : Seeks kind domain path
    · obtain ⟨told, hsight, htold⟩ := seek_sighting hr hseeks s
      refine ⟨_, htold, ?_⟩
      rw [hsight.pending_append s]
      by_cases hon : w.On r
      · rw [Watch.echo_on hon, Watch.echo_on hon, Watch.echo_on hon]
        exact .sighting hsight hseeks _
      · rw [Watch.echo_off hon, Watch.echo_off hon, Watch.echo_off hon, List.length_nil,
          Nat.zero_add]
        exact .rest _
    · rw [seek_idle hseeks]
      exact ⟨[], .rest s, Watch.echo_nil (w := w) (r := r) ▸ (Balanced.idle hseeks _).echo⟩
  | @hears s others more q hq answer =>
    refine ⟨_, Question.emits_hear hq answer s, ?_⟩
    by_cases hon : w.On q.registry
    · have hpending : Moment.pending w ⟨s, others ++ q :: more⟩ =
          Moment.pending w ⟨(q.hear answer s).2, others ++ more⟩ + 1 := by
        simp only [Moment.pending, List.countP_append, List.countP_cons, hon, decide_true, if_true]
        omega
      rw [Watch.echo_on hon, hpending]
      exact .verdict q answer _
    · have hpending : Moment.pending w ⟨s, others ++ q :: more⟩ =
          Moment.pending w ⟨(q.hear answer s).2, others ++ more⟩ := by
        simp [Moment.pending, hon]
      rw [Watch.echo_off hon, hpending]
      exact .rest _

/-- A run is told just as it is done. -/
theorem Run.balanced {m m' : Moment σ} {deeds : List Deed} (h : Run w m deeds m') :
    ∃ told, Emits w told m.store m'.store ∧ Balanced told deeds (m.pending w) (m'.pending w) := by
  induction h with
  | rest => exact ⟨[], .rest _, .rest _⟩
  | step before last ih =>
    obtain ⟨told, htold, hbalanced⟩ := ih
    obtain ⟨more, hmore, hlast⟩ := last.balanced
    exact ⟨told ++ more, htold.append hmore, hbalanced.append hlast⟩

/-! ### From a new registry on -/

/-- A new registry with a listener of its own. -/
def heardRegistry (config : RegistryConfig) : StateM (Store σ) Registry := do
  let sink ← addSink
  let r ← addRegistry config
  return { r with sink := some sink }

/-- The numbers that the next registry and its listener get. -/
def nextWatch (s : Store σ) : Watch := ⟨s.counters.length, s.sinks.length⟩

end Store

/-- The counters of a registry against what its listener heard and what was done to it. -/
structure Counters.Conserved (c : Counters) (heard : List Event) (deeds : List Deed) : Prop where
  sought : c.hits.toNat + c.misses.toNat = deeds.countP Deed.seeks
  called : c.resolverCalls ≤ c.misses
  answered : c.resolverErrors.toNat + c.discarded.toNat ≤ c.resolverCalls.toNat
  registered : c.registered.toNat = deeds.countP Deed.registers
  conflicts : c.conflicts.toNat = deeds.countP Deed.conflicts
  dropped : c.unregistered.toNat = deeds.countP Deed.drops
  heard : ∀ e, (c.count e).toNat = named e.name heard

/-- Counters that are not full count just the events of their names. -/
theorem Counters.toNat_count_of_hasRoom {told : List Event}
    (hroom : (told.foldl Counters.record {}).HasRoom) (e : Event) :
    ((told.foldl Counters.record {}).count e).toNat = named e.name told := by
  have hcount := toNat_count_foldl {} told e
  have hlt := hroom e
  have hzero : (({} : Counters).count e).toNat = 0 := by cases e <;> rfl
  omega

/-- Counters that count what is told agree with what was done if the telling does. -/
theorem Balanced.conserved {c : Counters} {told : List Event} {deeds : List Deed} {asked : Nat}
    (h : Balanced told deeds 0 asked) (hcount : ∀ e, (c.count e).toNat = named e.name told) :
    c.Conserved told deeds := by
  have hhits : c.hits.toNat = named "cache_hit" told := hcount (.cacheHit 0)
  have hmisses : c.misses.toNat = named "cache_miss" told := hcount (.cacheMiss 0)
  have hcalls : c.resolverCalls.toNat = named "resolver_call" told :=
    hcount (.resolverCall .dictionary 0)
  have herrors : c.resolverErrors.toNat = named "resolver_error" told :=
    hcount (.resolverError .dictionary 0)
  have hdiscarded : c.discarded.toNat = named "discarded" told :=
    hcount (.discarded .dictionary 0)
  have hsought := h.sought
  have hcalled := h.called
  have hanswered := h.answered
  constructor
  · omega
  · exact UInt64.le_iff_toNat_le.mpr (by omega)
  · omega
  · exact (hcount (.registered 0)).trans h.registered
  · exact (hcount (.conflict 0)).trans h.conflicts
  · exact (hcount (.unregistered 0)).trans h.dropped
  · exact hcount

namespace Store

variable {σ : Type}

/-- Every call is a run, in which the call itself comes first. In every run of a new registry whose
handles all have its listener, whatever resolvers and datasets call in between, the counters that
are not full are conserved. -/
theorem counters_conserved [Outside σ] (config : RegistryConfig) (s₀ : Store σ) :
    (∀ (c : RegistryCall) (s : Store σ) (asked : List Question), s₀.nextWatch.Fits c.handle →
      SourcesFit s₀.nextWatch s.outside →
        ∃ more, Run s₀.nextWatch ⟨s, asked⟩
          (s₀.nextWatch.echo c.handle (c.deeds (call c s).1) ++ more) ⟨(call c s).2, asked⟩) ∧
    ∀ (deeds : List Deed) (s : Store σ) (asked : List Question),
      Run s₀.nextWatch ⟨(heardRegistry config s₀).2, []⟩ deeds ⟨s, asked⟩ →
      (s.countersOf (heardRegistry config s₀).1).HasRoom →
        ∃ heard, s.sinks[s₀.sinks.length]? = some heard ∧
          (s.countersOf (heardRegistry config s₀).1).Conserved heard deeds := by
  refine ⟨fun c s asked hc hsources => call_run hc hsources asked, ?_⟩
  intro deeds s asked hrun hroom
  obtain ⟨told, htold, hbalanced⟩ := hrun.balanced
  have hcounters : s.counters[s₀.counters.length]? = some (told.foldl Counters.record {}) := by
    have hcounted := htold.counted
    rw [show (heardRegistry config s₀).2.counters = s₀.counters ++ [{}] from rfl] at hcounted
    simpa [nextWatch] using hcounted
  have hsink : s.sinks[s₀.sinks.length]? = some told := by
    have hheard := htold.heard
    rw [show (heardRegistry config s₀).2.sinks = s₀.sinks ++ [[]] from rfl] at hheard
    simpa [nextWatch] using hheard
  have hc : s.countersOf (heardRegistry config s₀).1 = told.foldl Counters.record {} := by
    unfold countersOf
    rw [show (heardRegistry config s₀).1.metrics = s₀.counters.length from rfl, hcounters]
    rfl
  rw [hc] at hroom ⊢
  exact ⟨told, hsink, hbalanced.conserved (Counters.toNat_count_of_hasRoom hroom)⟩

/-! ### A resolver that calls back -/

namespace Callback

def start : Store Directory := { outside := {} }

def registry : Registry := { (heardRegistry {} start).1 with link := some ⟨0, 0⟩ }

def books : Descriptor :=
  { id := 0, kind := .dictionary, domain := 3, name := "Books", path := "Library.Books" }

def question : Question := ⟨registry, ⟨0, 0⟩, .dictionary, 3, "books"⟩

def answer : Except Error (Option Descriptor) :=
  .error { errorClass := .resolver, origin := .resolver, message := "gone" }

def missed : Store Directory := (seek registry .dictionary 3 "Books" (heardRegistry {} start).2).2

/-- Before it answers, the resolver registers what it was asked for. -/
def answered : Store Directory := (question.hear answer (register registry books missed).2).2

def hit : Store Directory := (seek registry .dictionary 3 "Books" answered).2

def final : Store Directory := (unregister registry books hit).2

def deeds : List Deed :=
  [.sought .dictionary 3 "Books", .registered (.ok ()), .sought .dictionary 3 "Books",
    .dropped true]

theorem run : Run start.nextWatch ⟨(heardRegistry {} start).2, []⟩ deeds ⟨final, []⟩ := by
  have hfits : start.nextWatch.Fits registry := .inl ⟨rfl, rfl⟩
  have hasked : (seek registry .dictionary 3 "Books" (heardRegistry {} start).2).1 =
      .inr question := by decide +kernel
  have hregistered : (register registry books missed).1 = .ok () := by
    have hok : (register registry books missed).1.isOk = true := by decide +kernel
    cases h : (register registry books missed).1 with
    | ok => rfl
    | error e =>
      rw [h] at hok
      cases hok
  have hfound : (seek registry .dictionary 3 "Books" answered).1 = .inl (some books) := by
    decide +kernel
  have hdropped : (unregister registry books hit).1 = true := by decide +kernel
  have hseek : Step start.nextWatch ⟨(heardRegistry {} start).2, []⟩ _ _ :=
    .seeks hfits .dictionary 3 "Books"
  rw [hasked] at hseek
  have hregister : Step start.nextWatch ⟨missed, [question]⟩ _ _ := .registers hfits books
  rw [hregistered] at hregister
  have hhear : Step start.nextWatch
      ⟨(register registry books missed).2, [] ++ question :: []⟩ _ _ :=
    .hears hfits answer
  have hagain : Step start.nextWatch ⟨answered, []⟩ _ _ := .seeks hfits .dictionary 3 "Books"
  rw [hfound] at hagain
  have hunregister : Step start.nextWatch ⟨hit, []⟩ _ _ := .unregisters hfits books
  rw [hdropped] at hunregister
  have hfirst : Run start.nextWatch _ _ ⟨missed, [question]⟩ := .one hseek
  exact (((hfirst.step hregister).step hhear).step hagain).step hunregister

theorem hasRoom : (final.countersOf (heardRegistry {} start).1).HasRoom := by
  have hcounters : final.countersOf (heardRegistry {} start).1 =
      { hits := 1, misses := 1, resolverCalls := 1, resolverErrors := 1, registered := 1,
        unregistered := 1 } := by decide +kernel
  rw [hcounters]
  intro e
  cases e <;> simp [Counters.count, Counters.limit]

theorem sourcesFit : SourcesFit start.nextWatch start.outside := by
  intro resolver domain key reply h
  have hnone : (Outside.extension (σ := Directory) resolver domain key {}).1 = .ok none := rfl
  cases hnone.symm.trans h

end Callback

open Callback in
theorem counters_conserved_over_callback :
    (∃ more, Run start.nextWatch ⟨start, []⟩ (.sought .extension 3 "Books" :: more)
      ⟨(getExtension registry 3 "Books" start).2, []⟩) ∧
    Run start.nextWatch ⟨(heardRegistry {} start).2, []⟩ deeds ⟨final, []⟩ ∧
      (final.countersOf (heardRegistry {} start).1).HasRoom ∧
      ∃ heard, final.sinks[0]? = some heard ∧
        (final.countersOf (heardRegistry {} start).1).Conserved heard deeds := by
  have hconserved := counters_conserved {} start
  have hon : start.nextWatch.On registry := ⟨rfl, rfl⟩
  have hcall := hconserved.1 (.getExtension registry 3 "Books") start [] (.inl hon) sourcesFit
  unfold RegistryCall.handle at hcall
  rw [Watch.echo_on hon] at hcall
  exact ⟨hcall, run, hasRoom, hconserved.2 deeds final [] run hasRoom⟩

end Store

end TenantSchema

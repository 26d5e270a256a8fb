import TenantSchema.Proofs.RegistryCalls

/-!
# What registries tell

Each operation of a registry tells a fixed sequence of events, which its answer determines. Looking
for a dataset is cut in two at the moment at which the resolver is asked: whatever the resolver does
before it answers, calls to the same registry included, comes between the two parts.
-/

namespace TenantSchema

namespace Text

/-- Only the empty text has an empty lower case. -/
theorem isEmpty_lower (s : String) : (lower s).isEmpty = s.isEmpty := by
  have hlower : lowerFrom [] s.toList = [] ↔ s.toList = [] := by
    cases s.toList with
    | nil => simp
    | cons c rest =>
      simp only [lowerFrom, List.append_eq_nil_iff, reduceCtorEq, iff_false, not_and]
      intro hhead
      split at hhead
      · cases hhead
      · split at hhead <;> cases hhead
  rw [Bool.eq_iff_iff, String.isEmpty_iff, String.isEmpty_iff, ← String.toList_eq_nil_iff,
    ← String.toList_eq_nil_iff, ← hlower]
  simp only [lower, String.toList_ofList]

end Text

/-- Numbers of the counters and of the listener of a registry, which all handles on it share. -/
structure Watch where
  metrics : Nat
  sink : Nat

namespace Watch

/-- A handle on the registry that is watched. -/
def On (w : Watch) (r : Registry) : Prop := r.metrics = w.metrics ∧ r.sink = some w.sink

instance (w : Watch) (r : Registry) : Decidable (w.On r) := inferInstanceAs (Decidable (_ ∧ _))

/-- A handle on another registry. -/
def Apart (w : Watch) (r : Registry) : Prop := r.metrics ≠ w.metrics ∧ r.sink ≠ some w.sink

/-- No handle has the counters of the registry without its listener, or the listener without the
counters. -/
def Fits (w : Watch) (r : Registry) : Prop := w.On r ∨ w.Apart r

/-- What is noticed of that which happens at a handle. -/
def echo {α : Type} (w : Watch) (r : Registry) (happened : List α) : List α :=
  if w.On r then happened else []

variable {α : Type} {w : Watch} {r : Registry}

theorem echo_on (h : w.On r) (happened : List α) : w.echo r happened = happened := if_pos h

theorem echo_off (h : ¬ w.On r) (happened : List α) : w.echo r happened = [] := if_neg h

@[simp] theorem echo_nil : w.echo r ([] : List α) = [] := by
  unfold echo
  split <;> rfl

theorem echo_append (first more : List α) :
    w.echo r (first ++ more) = w.echo r first ++ w.echo r more := by
  by_cases h : w.On r
  · rw [echo_on h, echo_on h, echo_on h]
  · rw [echo_off h, echo_off h, echo_off h]
    rfl

end Watch

namespace Store

variable {σ : Type} {w : Watch} {r : Registry} {s s₁ s₂ : Store σ}

/-! ### Events on their way -/

/-- From one state to the other, the counters and the listener take in just these events. -/
structure Emits (w : Watch) (told : List Event) (s s' : Store σ) : Prop where
  counted : s'.counters[w.metrics]? = (s.counters[w.metrics]?).map (told.foldl Counters.record)
  heard : s'.sinks[w.sink]? = (s.sinks[w.sink]?).map (· ++ told)

namespace Emits

theorem quiet (hcounters : s₁.counters = s.counters) (hsinks : s₁.sinks = s.sinks) :
    Emits w [] s s₁ := by
  constructor
  · rw [hcounters]
    simp
  · rw [hsinks]
    simp

theorem rest (s : Store σ) : Emits w [] s s := quiet rfl rfl

theorem append {told more : List Event} (h : Emits w told s s₁) (h' : Emits w more s₁ s₂) :
    Emits w (told ++ more) s s₂ := by
  constructor
  · rw [h'.counted, h.counted, Option.map_map]
    congr 1
    funext c
    exact (List.foldl_append ..).symm
  · rw [h'.heard, h.heard, Option.map_map]
    congr 1
    funext l
    exact List.append_assoc ..

/-- Silence before the events. -/
theorem after_quiet {told : List Event} (h : Emits w [] s s₁) (h' : Emits w told s₁ s₂) :
    Emits w told s s₂ :=
  h.append h'

end Emits

theorem emits_emit (hr : w.Fits r) (e : Event) (s : Store σ) :
    Emits w (w.echo r [e]) s (emit r e s).2 := by
  have hcounters : (emit r e s).2.counters = s.counters.modify r.metrics (·.record e) := rfl
  rcases hr with hon | ⟨hmetrics, hsink⟩
  · rw [Watch.echo_on hon]
    obtain ⟨hmetrics, hsink⟩ := hon
    have hsinks : (emit r e s).2.sinks = s.sinks.modify w.sink (· ++ [e]) := by
      simp only [emit, hsink]
      rfl
    constructor
    · rw [hcounters, hmetrics, List.getElem?_modify_eq]
      rfl
    · rw [hsinks, List.getElem?_modify_eq]
      rfl
  · rw [Watch.echo_off fun hon => hmetrics hon.1]
    constructor
    · rw [hcounters, List.getElem?_modify_ne _ _ hmetrics]
      simp
    · cases hs : r.sink with
      | none =>
        have hsinks : (emit r e s).2.sinks = s.sinks := by
          simp only [emit, hs]
          rfl
        rw [hsinks]
        simp
      | some sink =>
        have hne : sink ≠ w.sink := fun heq => hsink (hs.trans (congrArg some heq))
        have hsinks : (emit r e s).2.sinks = s.sinks.modify sink (· ++ [e]) := by
          simp only [emit, hs]
          rfl
        rw [hsinks, List.getElem?_modify_ne _ _ hne]
        simp

/-! ### Registering and dropping -/

/-- The event of a registration, by its outcome. -/
def registrationEvents (domain : Int) : Except RegistryError Unit → List Event
  | .ok () => [.registered domain]
  | .error (.cache (.keysReserved _)) => [.conflict domain]
  | .error _ => []

theorem emits_register (hr : w.Fits r) (d : Descriptor) (s : Store σ) :
    Emits w (w.echo r (registrationEvents d.domain (register r d s).1)) s (register r d s).2 := by
  rw [register_eq]
  cases (s.domainsOf r).register d with
  | ok ds =>
    have hset : Emits w [] s (s.setDomains r ds) := .quiet rfl rfl
    exact hset.after_quiet (emits_emit hr _ _)
  | error e =>
    cases e with
    | keysReserved keys => exact emits_emit hr _ s
    | noKeys =>
      have hnone : registrationEvents d.domain (.error (.cache .noKeys)) = [] := rfl
      dsimp only
      rw [hnone, Watch.echo_nil]
      exact .rest s

def droppingEvents (domain : Int) (any : Bool) : List Event :=
  if any then [.unregistered domain] else []

theorem emits_unregister (hr : w.Fits r) (d : Descriptor) (s : Store σ) :
    Emits w (w.echo r (droppingEvents d.domain (unregister r d s).1)) s (unregister r d s).2 := by
  rw [unregister_eq]
  rcases (s.domainsOf r).unregister d with ⟨removed, ds⟩
  have hset : Emits w [] s (s.setDomains r ds) := .quiet rfl rfl
  cases removed with
  | true => exact hset.after_quiet (emits_emit hr _ _)
  | false =>
    have hnone : droppingEvents d.domain false = [] := rfl
    dsimp only
    rw [hnone, Watch.echo_nil]
    exact hset

/-- What is dropped is told under the domain that it is registered in. -/
theorem emits_invalidate (hr : w.Fits r) (domain : Int) (key : String) (s : Store σ) :
    ∃ d, Emits w (w.echo r (droppingEvents d (invalidate r domain key s).1)) s
      (invalidate r domain key s).2 := by
  unfold invalidate
  rw [bind_apply]
  have hlookup : Emits w [] s (lookup r domain key s).2 := .quiet rfl rfl
  cases (lookup r domain key s).1 with
  | none =>
    refine ⟨domain, ?_⟩
    have hnone : droppingEvents domain false = [] := rfl
    show Emits w (w.echo r (droppingEvents domain false)) s (lookup r domain key s).2
    rw [hnone, Watch.echo_nil]
    exact hlookup
  | some d => exact ⟨d.domain, hlookup.after_quiet (emits_unregister hr d _)⟩

/-- At most the caches differ. -/
structure CachesOnly (s s' : Store σ) : Prop where
  counters : s'.counters = s.counters
  sinks : s'.sinks = s.sinks
  outside : s'.outside = s.outside

theorem CachesOnly.emits (h : CachesOnly s s₁) : Emits w [] s s₁ := .quiet h.counters h.sinks

theorem lookup_cachesOnly (r : Registry) (domain : Int) (key : String) (s : Store σ) :
    CachesOnly s (lookup r domain key s).2 :=
  ⟨rfl, rfl, rfl⟩

theorem cachedDictionary_cachesOnly (r : Registry) (key : String) (domains : List Int)
    (s : Store σ) : CachesOnly s (cachedDictionary r key domains s).2 := by
  induction domains generalizing s with
  | nil => exact ⟨rfl, rfl, rfl⟩
  | cons domain rest ih =>
    unfold cachedDictionary
    rw [bind_apply]
    have hlookup := lookup_cachesOnly r domain key s
    cases (lookup r domain key s).1.filter (·.kind = .dictionary) with
    | some d => exact hlookup
    | none =>
      obtain ⟨hcounters, hsinks, houtside⟩ := ih (lookup r domain key s).2
      exact ⟨hcounters.trans hlookup.counters, hsinks.trans hlookup.sinks,
        houtside.trans hlookup.outside⟩

/-! ### Looking for a dataset, up to the question -/

/-- A question to a resolver that awaits its answer. -/
structure Question where
  registry : Registry
  link : ResolverLink
  kind : DatasetKind
  domain : Int
  key : String
deriving DecidableEq, Repr

/-- What there is to ask the resolver. Nothing is asked for the global domain. -/
def Question.of? (r : Registry) (kind : DatasetKind) (domain : Int) (key : String) :
    Option Question :=
  if domain = globalDomain then none else r.link.map fun link => ⟨r, link, kind, domain, key⟩

theorem Question.of?_eq_some {r : Registry} {kind : DatasetKind} {domain : Int} {key : String}
    {q : Question} (h : Question.of? r kind domain key = some q) :
    q.registry = r ∧ q.kind = kind ∧ q.domain = domain ∧ domain ≠ globalDomain := by
  unfold Question.of? at h
  split at h
  · cases h
  · next hdomain =>
    obtain ⟨link, -, rfl⟩ := Option.map_eq_some_iff.mp h
    exact ⟨rfl, rfl, rfl, hdomain⟩

/-- Reports what the caches have. What they miss is the resolver's to answer, if it is asked. -/
def settle (r : Registry) (kind : DatasetKind) (domain : Int) (key : String)
    (found : Option (Int × Descriptor)) : StateM (Store σ) (Option Descriptor ⊕ Question) := do
  match found with
  | some (holder, d) =>
    emit r (.cacheHit holder)
    return .inl (some d)
  | none =>
    emit r (.cacheMiss domain)
    match Question.of? r kind domain key with
    | none => return .inl none
    | some q =>
      emit r (.resolverCall kind domain)
      return .inr q

/-- The part of a search that comes before the question. -/
def seek (r : Registry) (kind : DatasetKind) (domain : Int) (path : String) :
    StateM (Store σ) (Option Descriptor ⊕ Question) := do
  let key := Text.lower path
  match kind with
  | .dictionary =>
    let domain := max domain globalDomain
    if key.isEmpty then return .inl none
    settle r kind domain key (← cachedDictionary r key (visibleDomains domain))
  | .extension =>
    if domain < 1 ∨ key.isEmpty then return .inl none
    let found := (← lookup r domain key).filter (·.kind = .extension)
    settle r kind domain key (found.map fun d => (domain, d))

/-- Looking for a dataset takes a path, and for an extension a tenant. -/
def Seeks (kind : DatasetKind) (domain : Int) (path : String) : Prop :=
  path ≠ "" ∧ (kind = .extension → 1 ≤ domain)

instance (kind : DatasetKind) (domain : Int) (path : String) : Decidable (Seeks kind domain path) :=
  inferInstanceAs (Decidable (_ ∧ (_ → _)))

/-- How a search goes up to the question, with the events that it tells on the way. -/
inductive Sighting (r : Registry) (kind : DatasetKind) :
    List Event → Option Descriptor ⊕ Question → Prop
  | hit (holder : Int) (d : Descriptor) : Sighting r kind [.cacheHit holder] (.inl (some d))
  | missed (domain : Int) : Sighting r kind [.cacheMiss domain] (.inl none)
  | asked (domain : Int) (q : Question) (hq : q.registry = r) (hkind : q.kind = kind) :
    Sighting r kind [.cacheMiss domain, .resolverCall kind domain] (.inr q)

theorem settle_sighting (hr : w.Fits r) (kind : DatasetKind) (domain : Int) (key : String)
    (found : Option (Int × Descriptor)) (s : Store σ) :
    ∃ told, Sighting r kind told (settle r kind domain key found s).1 ∧
      Emits w (w.echo r told) s (settle r kind domain key found s).2 := by
  cases found with
  | some found => exact ⟨_, .hit found.1 found.2, emits_emit hr _ s⟩
  | none =>
    have hmiss := emits_emit hr (.cacheMiss domain) s
    unfold settle
    dsimp only
    rw [bind_apply]
    cases hq : Question.of? r kind domain key with
    | none => exact ⟨_, .missed domain, hmiss⟩
    | some q =>
      have hcall := emits_emit hr (.resolverCall kind domain) (emit r (.cacheMiss domain) s).2
      obtain ⟨hregistry, hkind, -, -⟩ := Question.of?_eq_some hq
      refine ⟨_, .asked domain q hregistry hkind, ?_⟩
      exact (Watch.echo_append (w := w) [_] [_]) ▸ hmiss.append hcall

theorem isEmpty_lower_of_seeks {kind : DatasetKind} {domain : Int} {path : String}
    (h : Seeks kind domain path) : (Text.lower path).isEmpty = false := by
  rw [Text.isEmpty_lower, Bool.eq_false_iff]
  exact fun hempty => h.1 (String.isEmpty_iff.mp hempty)

/-- A search that is none tells nothing and finds nothing. -/
theorem seek_idle {kind : DatasetKind} {domain : Int} {path : String}
    (h : ¬ Seeks kind domain path) (r : Registry) (s : Store σ) :
    seek r kind domain path s = (.inl none, s) := by
  unfold seek
  by_cases hpath : path = ""
  · subst hpath
    cases kind with
    | dictionary => rfl
    | extension =>
      dsimp only
      rw [if_pos (.inr rfl)]
      rfl
  · cases kind with
    | dictionary => exact absurd ⟨hpath, nofun⟩ h
    | extension =>
      have hdomain : domain < 1 := Int.not_le.mp fun hle => h ⟨hpath, fun _ => hle⟩
      dsimp only
      rw [if_pos (.inl hdomain)]
      rfl

/-- A search that is one looks into the caches and settles with what it finds. -/
theorem seek_settles {kind : DatasetKind} {domain : Int} {path : String}
    (h : Seeks kind domain path) (r : Registry) (s : Store σ) :
    ∃ found s₁, CachesOnly s s₁ ∧
      seek r kind domain path s =
        settle r kind (max domain globalDomain) (Text.lower path) found s₁ := by
  have hkey := isEmpty_lower_of_seeks h
  unfold seek
  dsimp only
  cases kind with
  | dictionary =>
    dsimp only
    rw [if_neg (Bool.eq_false_iff.mp hkey), bind_apply]
    exact ⟨_, _, cachedDictionary_cachesOnly .., rfl⟩
  | extension =>
    have hdomain : 1 ≤ domain := h.2 rfl
    have hmax : max domain globalDomain = domain := Int.max_eq_left (Int.le_of_lt hdomain)
    dsimp only
    rw [if_neg (not_or.mpr ⟨Int.not_lt.mpr hdomain, Bool.eq_false_iff.mp hkey⟩), bind_apply, hmax]
    exact ⟨_, _, lookup_cachesOnly .., rfl⟩

theorem seek_sighting (hr : w.Fits r) {kind : DatasetKind} {domain : Int} {path : String}
    (h : Seeks kind domain path) (s : Store σ) :
    ∃ told, Sighting r kind told (seek r kind domain path s).1 ∧
      Emits w (w.echo r told) s (seek r kind domain path s).2 := by
  obtain ⟨found, s₁, hcaches, hseek⟩ := seek_settles h r s
  obtain ⟨told, hsight, htold⟩ := settle_sighting hr kind _ (Text.lower path) found s₁
  rw [hseek]
  exact ⟨told, hsight, hcaches.emits.after_quiet htold⟩

/-- The sources are left as they are until the question is asked. -/
theorem outside_seek (r : Registry) (kind : DatasetKind) (domain : Int) (path : String)
    (s : Store σ) : (seek r kind domain path s).2.outside = s.outside := by
  by_cases hseeks : Seeks kind domain path
  · obtain ⟨found, s₁, hcaches, hseek⟩ := seek_settles hseeks r s
    rw [hseek, ← hcaches.outside]
    cases found with
    | some found => rfl
    | none =>
      unfold settle
      dsimp only
      rw [bind_apply]
      cases Question.of? r kind (max domain globalDomain) (Text.lower path) <;> rfl
  · rw [seek_idle hseeks]

theorem question_of_settle {kind : DatasetKind} {domain : Int} {key : String}
    {found : Option (Int × Descriptor)} {q : Question}
    (h : (settle r kind domain key found s).1 = .inr q) :
    Question.of? r kind domain key = some q := by
  unfold settle at h
  cases found with
  | some e => cases h
  | none =>
    dsimp only at h
    rw [bind_apply] at h
    cases hq : Question.of? r kind domain key with
    | none =>
      rw [hq] at h
      cases h
    | some q' =>
      rw [hq] at h
      cases h
      rfl

/-- A question is asked for the tenant that searches. -/
theorem question_of_seek {kind : DatasetKind} {domain : Int} {path : String} {q : Question}
    (h : (seek r kind domain path s).1 = .inr q) :
    q.registry = r ∧ q.kind = kind ∧ q.domain = domain ∧ globalDomain < domain := by
  by_cases hseeks : Seeks kind domain path
  · obtain ⟨found, s₁, -, hseek⟩ := seek_settles hseeks r s
    rw [hseek] at h
    obtain ⟨hregistry, hkind, hdomain, hne⟩ := Question.of?_eq_some (question_of_settle h)
    have hpos : globalDomain < domain := by omega
    exact ⟨hregistry, hkind, hdomain.trans (Int.max_eq_left (Int.le_of_lt hpos)), hpos⟩
  · rw [seek_idle hseeks] at h
    cases h

/-! ### From the answer on -/

namespace Question

/-- A dictionary may be of the domain that asks or global, an extension is of the domain. -/
def admits (q : Question) (d : Descriptor) : Bool :=
  match q.kind with
  | .dictionary => d.domain = q.domain ∨ d.domain = globalDomain
  | .extension => d.domain = q.domain

/-- Judges the answer of the resolver. -/
def hear (q : Question) (answer : Except Error (Option Descriptor)) :
    StateM (Store σ) (Except RegistryError (Option Descriptor)) := do
  match answer with
  | .error e =>
    emit q.registry (.resolverError q.kind q.domain)
    return .error (.resolver e)
  | .ok none => return .ok none
  | .ok (some d) =>
    if q.admits d then return .ok (some d)
    else
      emit q.registry (.discarded q.kind q.domain)
      return .ok none

/-- The events of an answer. -/
def verdict (q : Question) : Except Error (Option Descriptor) → List Event
  | .error _ => [.resolverError q.kind q.domain]
  | .ok none => []
  | .ok (some d) => if q.admits d then [] else [.discarded q.kind q.domain]

theorem hear_admitted {q : Question} {d : Descriptor} (h : q.admits d = true) (s : Store σ) :
    q.hear (.ok (some d)) s = (.ok (some d), s) := by
  simp only [hear, h, if_true]
  rfl

theorem hear_refused {q : Question} {d : Descriptor} (h : q.admits d = false) (s : Store σ) :
    q.hear (.ok (some d)) s = (.ok none, (emit q.registry (.discarded q.kind q.domain) s).2) := by
  simp only [hear, h]
  rfl

theorem emits_hear {q : Question} (hq : w.Fits q.registry)
    (answer : Except Error (Option Descriptor)) (s : Store σ) :
    Emits w (w.echo q.registry (q.verdict answer)) s (q.hear answer s).2 := by
  rcases answer with e | _ | d
  · exact emits_emit hq _ s
  · exact Watch.echo_nil (α := Event) ▸ .rest s
  · cases hd : q.admits d with
    | true =>
      have hverdict : q.verdict (.ok (some d)) = [] := if_pos hd
      rw [hverdict, hear_admitted hd, Watch.echo_nil]
      exact .rest s
    | false =>
      have hverdict : q.verdict (.ok (some d)) = [.discarded q.kind q.domain] :=
        if_neg (Bool.eq_false_iff.mp hd)
      rw [hverdict, hear_refused hd]
      exact emits_emit hq _ s

/-- Hears the answer and keeps what it brings for a tenant. -/
def conclude (q : Question) (answer : Except Error (Option Descriptor)) :
    StateM (Store σ) (Except RegistryError (Option Descriptor)) := do
  match ← q.hear answer with
  | .ok (some d) =>
    if globalDomain < d.domain then discard (register q.registry d)
    return .ok (some d)
  | outcome => return outcome

theorem conclude_admitted {q : Question} {d : Descriptor} (h : q.admits d = true) (s : Store σ) :
    q.conclude (.ok (some d)) s =
      (.ok (some d), if globalDomain < d.domain then (register q.registry d s).2 else s) := by
  unfold conclude
  rw [bind_apply, hear_admitted h]
  dsimp only
  split <;> rfl

theorem conclude_refused {q : Question} {d : Descriptor} (h : q.admits d = false) (s : Store σ) :
    q.conclude (.ok (some d)) s =
      (.ok none, (emit q.registry (.discarded q.kind q.domain) s).2) := by
  unfold conclude
  rw [bind_apply, hear_refused h]
  rfl

end Question

variable [Outside σ]

/-- The answer of the resolver. What it describes of an extension is built first. -/
def Question.ask (q : Question) : StateM (Store σ) (Except Error (Option Descriptor)) := do
  match q.kind with
  | .dictionary =>
    return (← onOutside (Outside.dictionary q.link.resolver q.domain q.key)).map
      (·.filter (·.kind = .dictionary))
  | .extension =>
    match ← onOutside (Outside.extension q.link.resolver q.domain q.key) with
    | .error e => return .error e
    | .ok none => return .ok none
    | .ok (some reply) => return .ok (← acceptExtension q.domain reply)

/-- A search: up to the question, what the resolver does, and from its answer on. -/
def search (r : Registry) (kind : DatasetKind) (domain : Int) (path : String) :
    StateM (Store σ) (Except RegistryError (Option Descriptor)) := do
  match ← seek r kind domain path with
  | .inl found => return .ok found
  | .inr q => q.conclude (← q.ask)

/-- Asking for a dictionary tells of the call, and the rest is the answer's. -/
theorem resolveDictionary_eq (r : Registry) (link : ResolverLink) (domain : Int) (key : String)
    (s : Store σ) :
    resolveDictionary r link domain key s =
      (do
        let q : Question := ⟨r, link, .dictionary, domain, key⟩
        emit r (.resolverCall .dictionary domain)
        q.conclude (← q.ask)) s := by
  unfold resolveDictionary Question.ask
  dsimp only
  rw [bind_apply, bind_apply, bind_apply, bind_apply, bind_apply]
  generalize onOutside (Outside.dictionary link.resolver domain key)
    (emit r (.resolverCall .dictionary domain) s).2 = asked
  obtain ⟨answer, s₁⟩ := asked
  rcases answer with e | found
  · rfl
  · dsimp only [Except.map]
    cases found.filter (·.kind = .dictionary) with
    | none => rfl
    | some d =>
      let q : Question := ⟨r, link, .dictionary, domain, key⟩
      show _ = q.conclude (.ok (some d)) s₁
      by_cases hd : d.domain ≠ domain ∧ d.domain ≠ globalDomain
      · have hrefused : q.admits d = false := decide_eq_false (not_or.mpr hd)
        rw [Question.conclude_refused hrefused]
        dsimp only
        rw [if_pos hd]
        rfl
      · have hadmitted : q.admits d = true := by
          refine decide_eq_true ?_
          show d.domain = domain ∨ d.domain = globalDomain
          omega
        rw [Question.conclude_admitted hadmitted]
        dsimp only
        rw [if_neg hd]
        split <;> rfl

theorem getDictionary_eq (r : Registry) (domain : Int) (path : String) (s : Store σ) :
    getDictionary r domain path s = search r .dictionary domain path s := by
  unfold getDictionary search seek
  dsimp only
  by_cases hkey : (Text.lower path).isEmpty = true
  · rw [if_pos hkey, if_pos hkey]
    rfl
  · rw [if_neg hkey, if_neg hkey, bind_apply, bind_apply, bind_apply]
    generalize cachedDictionary r (Text.lower path) (visibleDomains (max domain globalDomain)) s =
      cached
    obtain ⟨found, s₀⟩ := cached
    cases found with
    | some found => rfl
    | none =>
      unfold settle Question.of?
      dsimp only
      rw [bind_apply, bind_apply]
      cases r.link with
      | none =>
        dsimp only [Option.map_none]
        rw [ite_self]
        rfl
      | some link =>
        dsimp only
        by_cases hglobal : max domain globalDomain = globalDomain
        · rw [if_pos hglobal, if_pos hglobal]
          rfl
        · rw [if_neg hglobal, if_neg hglobal]
          exact resolveDictionary_eq r link _ _ _

/-- Asking for an extension tells of the call, and the rest is the answer's. -/
theorem resolveExtension_eq (r : Registry) (link : ResolverLink) {domain : Int}
    (hpos : globalDomain < domain) (key : String) (s : Store σ) :
    (do
      emit r (.resolverCall .extension domain)
      match ← onOutside (Outside.extension link.resolver domain key) with
      | .error e =>
        emit r (.resolverError .extension domain)
        return .error (.resolver e)
      | .ok none => return .ok none
      | .ok (some reply) =>
        match ← acceptExtension domain reply with
        | none => return .ok none
        | some d =>
          if d.domain ≠ domain then
            emit r (.discarded .extension domain)
            return .ok none
          else
            discard (register r d)
            return .ok (some d) : StateM (Store σ) _) s =
      (do
        let q : Question := ⟨r, link, .extension, domain, key⟩
        emit r (.resolverCall .extension domain)
        q.conclude (← q.ask)) s := by
  unfold Question.ask
  dsimp only
  rw [bind_apply, bind_apply, bind_apply, bind_apply, bind_apply]
  generalize onOutside (Outside.extension link.resolver domain key)
    (emit r (.resolverCall .extension domain) s).2 = asked
  obtain ⟨answer, s₁⟩ := asked
  rcases answer with e | _ | reply
  · rfl
  · rfl
  · dsimp only
    rw [bind_apply, bind_apply]
    generalize acceptExtension domain reply s₁ = accepted
    obtain ⟨built, s₂⟩ := accepted
    cases built with
    | none => rfl
    | some d =>
      let q : Question := ⟨r, link, .extension, domain, key⟩
      show _ = q.conclude (.ok (some d)) s₂
      by_cases hd : d.domain = domain
      · have hadmitted : q.admits d = true := decide_eq_true hd
        have hkept : globalDomain < d.domain := hd ▸ hpos
        rw [Question.conclude_admitted hadmitted, if_pos hkept]
        dsimp only
        rw [if_neg (not_not_intro hd)]
        rfl
      · have hrefused : q.admits d = false := decide_eq_false hd
        rw [Question.conclude_refused hrefused]
        dsimp only
        rw [if_pos hd]
        rfl

theorem getExtension_eq (r : Registry) (domain : Int) (path : String) (s : Store σ) :
    getExtension r domain path s = search r .extension domain path s := by
  unfold getExtension search seek
  dsimp only
  by_cases hguard : domain < 1 ∨ (Text.lower path).isEmpty = true
  · rw [if_pos hguard, if_pos hguard]
    rfl
  · have hpos : globalDomain < domain := Int.not_lt.mp (not_or.mp hguard).1
    rw [if_neg hguard, if_neg hguard, bind_apply, bind_apply, bind_apply]
    generalize lookup r domain (Text.lower path) s = looked
    obtain ⟨found, s₀⟩ := looked
    dsimp only
    cases found.filter (·.kind = .extension) with
    | some d => rfl
    | none =>
      unfold settle Question.of?
      dsimp only [Option.map_none]
      rw [bind_apply, bind_apply, if_neg (Int.ne_of_gt hpos)]
      cases r.link with
      | none => rfl
      | some link => exact resolveExtension_eq r link (Int.not_lt.mp (not_or.mp hguard).1) _ _

end Store

end TenantSchema

import TenantSchema.Proofs.RecordSteps

/-!
# Histories of records

A scene is a world with all the fields and records that its users have got hold of. Anything may
happen in it, in any order: datasets come into being, extensions find their bases late, fields are
taken, now or at an earlier version, and used on any record. Beside every record runs a log of the
writes to it; no step reads the logs.
-/

namespace TenantSchema

/-- A record with the field list that it was made with and all the writes to it. -/
structure LoggedRecord where
  record : Record
  origin : Fields
  log : WriteLog := []

structure Scene (σ : Type) where
  world : World (Store σ)
  /-- The fields taken so far; some are outdated. -/
  fields : List Field := []
  records : List LoggedRecord := []

/-- What can happen in a scene. Fields and records are known by their positions. -/
inductive SceneCall (σ : Type) where
  | addDictionary (domain : Int) (spec : DatasetSpec) (via : Via)
  | createExtension (domain : Int) (spec : DatasetSpec) (via : Via) (base : Option Descriptor)
  | addRegistry (config : RegistryConfig)
  | registry (call : RegistryCall)
  /-- Looks for the base of an extension once more. -/
  | baseDictionary (id : Nat)
  | validate (d : Descriptor)
  | decode (t : FieldType) (source : Source)
  | listFields (id : Nat)
  /-- Registries and resolvers are no longer held. -/
  | forget (domains links : List Nat)
  /-- The external sources change by themselves. -/
  | change (f : σ → σ)
  | takeField (id i : Nat)
  | takeFieldByName (id : Nat) (name : String)
  | newRecord (id : Nat)
  | set (k i : Nat) (source : Source)
  | setByName (k : Nat) (name : String) (source : Source)
  | fromMap (k : Nat) (m : WireMap)
  | get (k i : Nat)
  | getByName (k : Nat) (name : String)
  | forEach (k : Nat) (more : List (Field × Value) → Bool)
  | toMap (k : Nat)

namespace Record

variable {σ : Type} [Outside σ]

/-- What a write adds to the log: the field and the normalized value, unless it is refused. -/
def written (r : Record) (find : RecordStep σ Field) (source : Source) (w : World (Store σ)) :
    WriteLog :=
  match ((do
      let f ← find
      return (f, ← r.normalized f source) : RecordStep σ (Field × Value)).run w).1 with
  | .ok e => [e]
  | .error _ => []

theorem written_refused {r : Record} {find : RecordStep σ Field} {source : Source}
    {w : World (Store σ)} {e : RecordError}
    (he : ((do r.set (← find) source : RecordStep σ Record).run w).1 = .error e) :
    r.written find source w = [] := by
  rw [run_bind] at he
  unfold written
  rw [run_bind]
  cases hf : (find.run w).1 with
  | error e => rfl
  | ok f =>
    rw [hf] at he
    dsimp only at he ⊢
    rw [set_run] at he
    rw [run_bind]
    cases hv : ((r.normalized f source).run (find.run w).2).1 with
    | error e => rfl
    | ok v =>
      rw [hv] at he
      cases he

theorem written_granted {r r' : Record} {find : RecordStep σ Field} {source : Source}
    {w : World (Store σ)}
    (hr : ((do r.set (← find) source : RecordStep σ Record).run w).1 = .ok r') :
    ∃ f v, (find.run w).1 = .ok f ∧ ((r.normalized f source).run (find.run w).2).1 = .ok v ∧
      r.written find source w = [(f, v)] := by
  rw [run_bind] at hr
  unfold written
  rw [run_bind]
  cases hf : (find.run w).1 with
  | error e =>
    rw [hf] at hr
    cases hr
  | ok f =>
    rw [hf] at hr
    dsimp only at hr ⊢
    rw [set_run] at hr
    rw [run_bind]
    cases hv : ((r.normalized f source).run (find.run w).2).1 with
    | error e =>
      rw [hv] at hr
      cases hr
    | ok v => exact ⟨f, v, rfl, hv, rfl⟩

/-- What a generic form adds to the log: the writes before the first one that is refused. -/
def membersWritten (r : Record) : WireMap → World (Store σ) → WriteLog
  | [], _ => []
  | (name, wire) :: rest, w =>
    let done := (r.setByName name (.wire wire)).run w
    r.written (r.field name) (.wire wire) w ++
      match done.1 with
      | .ok r' => membersWritten r' rest done.2
      | .error _ => []

theorem setMembers_cons (r : Record) (name : String) (wire : Wire) (rest : WireMap)
    (w : World (Store σ)) :
    r.setMembers ((name, wire) :: rest) w =
      let done := (r.setByName name (.wire wire)).run w
      match done.1 with
      | .ok r' => r'.setMembers rest done.2
      | .error e => ((r, some e), done.2) := by
  show (match ((r.setByName name (.wire wire)).run w).1 with
    | .ok r => r.setMembers rest
    | .error e => return (r, some e) : StateM (World (Store σ)) _)
      ((r.setByName name (.wire wire)).run w).2 = _
  dsimp only
  cases ((r.setByName name (.wire wire)).run w).1 <;> rfl

end Record

namespace Scene

variable {σ : Type}

/-- Nothing there but external sources. -/
def start (outside : σ) : Scene σ := { world := { store := { outside } } }

def onWorld {α : Type} (m : StateM (World (Store σ)) α) (s : Scene σ) : Scene σ :=
  { s with world := (m s.world).2 }

def onStore {α : Type} (m : StateM (Store σ) α) (s : Scene σ) : Scene σ :=
  s.onWorld (World.onStore m)

def take (id : Nat) (step : StateM Fields (Option Field)) (s : Scene σ) : Scene σ :=
  let found := World.onFields id step s.world
  { s with world := found.2, fields := s.fields ++ found.1.toList }

def newRecord (id : Nat) (s : Scene σ) : Scene σ :=
  match s.world.store.dataset? id with
  | none => s
  | some d =>
    { s with records := s.records ++ [{ record := .of d.descriptor d.fields, origin := d.fields }] }

/-- A call to a record that only reads it. -/
def read {α : Type} (k : Nat) (m : Record → RecordStep σ α) (s : Scene σ) : Scene σ :=
  match s.records[k]? with
  | none => s
  | some l => s.onWorld (m l.record).run

variable [Outside σ]

/-- A write to the field that `find` finds. -/
def write (k : Nat) (find : Record → RecordStep σ Field) (source : Source) (s : Scene σ) :
    Scene σ :=
  match s.records[k]? with
  | none => s
  | some l =>
    let done := (do l.record.set (← find l.record) source : RecordStep σ Record).run s.world
    let record := match done.1 with
      | .ok r => r
      | .error _ => l.record
    let log := l.log ++ l.record.written (find l.record) source s.world
    { s with world := done.2, records := s.records.set k { l with record, log } }

def writeMembers (k : Nat) (m : WireMap) (s : Scene σ) : Scene σ :=
  match s.records[k]? with
  | none => s
  | some l =>
    let done := l.record.setMembers m s.world
    let log := l.log ++ l.record.membersWritten m s.world
    { s with world := done.2, records := s.records.set k { l with record := done.1.1, log } }

def next (s : Scene σ) : SceneCall σ → Scene σ
  | .addDictionary domain spec via => s.onStore (Store.addDictionary domain spec via)
  | .createExtension domain spec via base =>
    s.onStore (Store.createExtension? domain spec via base)
  | .addRegistry config => s.onStore (Store.addRegistry config)
  | .registry call => s.onStore (Store.call call)
  | .baseDictionary id => s.onStore (Store.baseDictionary id)
  | .validate d => s.onWorld (World.validate d)
  | .decode t source => s.onWorld (t.decode source).run
  | .listFields id => s.onWorld (World.onFields id Fields.toList)
  | .forget goneDomains goneLinks =>
    s.onStore (modify fun store => { store with goneDomains, goneLinks })
  | .change f => s.onStore (modify fun store => { store with outside := f store.outside })
  | .takeField id i => s.take id (Fields.get i)
  | .takeFieldByName id name => s.take id (Fields.byName name)
  | .newRecord id => s.newRecord id
  | .set k i source =>
    match s.fields[i]? with
    | none => s
    | some f => s.write k (fun _ => pure f) source
  | .setByName k name source => s.write k (·.field name) source
  | .fromMap k m => s.writeMembers k m
  | .get k i =>
    match s.fields[i]? with
    | none => s
    | some f => s.read k (·.get f)
  | .getByName k name => s.read k (·.getByName name)
  | .forEach k more => s.read k (·.forEach more)
  | .toMap k => s.read k (·.toMap)

theorem next_set (s : Scene σ) (k i : Nat) (source : Source) :
    s.next (.set k i source) =
      match s.fields[i]? with
      | none => s
      | some f => s.write k (fun _ => pure f) source := rfl

theorem next_get (s : Scene σ) (k i : Nat) :
    s.next (.get k i) =
      match s.fields[i]? with
      | none => s
      | some f => s.read k (·.get f) := rfl

def step (call : SceneCall σ) : StateM (Scene σ) Unit := fun s => ((), s.next call)

end Scene

/-! ### Records stay where they are -/

/-- The record of one moment and the record that it is later. -/
structure LoggedRecord.Continues (l l' : LoggedRecord) : Prop where
  origin : l'.origin = l.origin
  log : l.log <+: l'.log

theorem LoggedRecord.Continues.refl (l : LoggedRecord) : l.Continues l := ⟨rfl, List.prefix_refl _⟩

theorem LoggedRecord.Continues.trans {l l' l'' : LoggedRecord} (h : l.Continues l')
    (h' : l'.Continues l'') : l.Continues l'' :=
  ⟨h'.origin.trans h.origin, h.log.trans h'.log⟩

namespace Scene

variable {σ : Type} {s : Scene σ} {k : Nat} {l : LoggedRecord}

theorem read_records {α : Type} (j : Nat) (m : Record → RecordStep σ α) (s : Scene σ) :
    (s.read j m).records = s.records := by
  unfold read
  cases s.records[j]? <;> rfl

theorem newRecord_new {id : Nat} {d : Dataset} (h : s.world.store.dataset? id = some d) :
    s.newRecord id = { s with
      records := s.records ++ [{ record := .of d.descriptor d.fields, origin := d.fields }] } := by
  unfold newRecord
  rw [h]

theorem newRecord_record (id : Nat) (hk : s.records[k]? = some l) :
    (s.newRecord id).records[k]? = some l := by
  unfold newRecord
  cases s.world.store.dataset? id with
  | none => exact hk
  | some d =>
    rw [List.getElem?_append_left (List.getElem?_eq_some_iff.mp hk).1]
    exact hk

variable [Outside σ]

theorem write_other {j : Nat} (hj : j ≠ k) (find : Record → RecordStep σ Field)
    (source : Source) (s : Scene σ) :
    (s.write j find source).records[k]? = s.records[k]? := by
  unfold write
  cases s.records[j]? with
  | none => rfl
  | some m => exact List.getElem?_set_ne hj

theorem writeMembers_other {j : Nat} (hj : j ≠ k) (m : WireMap) (s : Scene σ) :
    (s.writeMembers j m).records[k]? = s.records[k]? := by
  unfold writeMembers
  cases s.records[j]? with
  | none => rfl
  | some l => exact List.getElem?_set_ne hj

/-- All that a step can do to a record: nothing, one write or the writes of a generic form. -/
theorem next_record (call : SceneCall σ) (hk : s.records[k]? = some l) :
    (s.next call).records[k]? = some l ∨
      (∃ f ∈ s.fields, ∃ source, s.next call = s.write k (fun _ => pure f) source) ∨
      (∃ name source, s.next call = s.write k (·.field name) source) ∨
      ∃ m, s.next call = s.writeMembers k m := by
  cases call with
  | newRecord id => exact .inl (newRecord_record id hk)
  | set j i source =>
    rw [next_set]
    cases hi : s.fields[i]? with
    | none => exact .inl hk
    | some f =>
      by_cases hj : j = k
      · subst hj
        exact .inr (.inl ⟨f, List.mem_of_getElem? hi, source, rfl⟩)
      · exact .inl ((write_other hj _ source s).trans hk)
  | setByName j name source =>
    by_cases hj : j = k
    · subst hj
      exact .inr (.inr (.inl ⟨name, source, rfl⟩))
    · exact .inl ((write_other hj _ source s).trans hk)
  | fromMap j m =>
    by_cases hj : j = k
    · subst hj
      exact .inr (.inr (.inr ⟨m, rfl⟩))
    · exact .inl ((writeMembers_other hj m s).trans hk)
  | get j i =>
    rw [next_get]
    cases hi : s.fields[i]? with
    | none => exact .inl hk
    | some f => exact .inl ((congrArg (·[k]?) (read_records j _ s)).trans hk)
  | getByName j name =>
    exact .inl ((congrArg (·[k]?) (read_records j (·.getByName name) s)).trans hk)
  | forEach j more =>
    exact .inl ((congrArg (·[k]?) (read_records j (·.forEach more) s)).trans hk)
  | toMap j => exact .inl ((congrArg (·[k]?) (read_records j (·.toMap) s)).trans hk)
  | _ => exact .inl hk

/-- Every record is still there after a step, and its log has at most grown. -/
theorem next_continues (call : SceneCall σ) (hk : s.records[k]? = some l) :
    ∃ l', (s.next call).records[k]? = some l' ∧ l.Continues l' := by
  have hlt : k < s.records.length := (List.getElem?_eq_some_iff.mp hk).1
  have hwrite (find : Record → RecordStep σ Field) (source : Source) :
      ∃ l', (s.write k find source).records[k]? = some l' ∧ l.Continues l' := by
    unfold write
    rw [hk]
    exact ⟨_, List.getElem?_set_self hlt, rfl, List.prefix_append _ _⟩
  obtain h | ⟨f, -, source, h⟩ | ⟨name, source, h⟩ | ⟨m, h⟩ := next_record call hk
  · exact ⟨l, h, .refl l⟩
  · rw [h]
    exact hwrite _ source
  · rw [h]
    exact hwrite _ source
  · rw [h]
    unfold writeMembers
    rw [hk]
    exact ⟨_, List.getElem?_set_self hlt, rfl, List.prefix_append _ _⟩

theorem after_continues (calls : List (SceneCall σ)) (hk : s.records[k]? = some l) :
    ∃ l', (after step calls s).records[k]? = some l' ∧ l.Continues l' := by
  induction calls generalizing s l with
  | nil => exact ⟨l, hk, .refl l⟩
  | cons call rest ih =>
    obtain ⟨m, hm, hc⟩ := next_continues call hk
    obtain ⟨l', hl', hc'⟩ := ih (s := s.next call) hm
    exact ⟨l', hl', hc.trans hc'⟩

/-- A granted write is the next entry of the log. -/
theorem write_granted (find : Record → RecordStep σ Field) {source : Source} {r : Record}
    (hk : s.records[k]? = some l)
    (hr : ((do l.record.set (← find l.record) source : RecordStep σ Record).run s.world).1 =
      .ok r) :
    ∃ f v, ((find l.record).run s.world).1 = .ok f ∧
      ((l.record.normalized f source).run ((find l.record).run s.world).2).1 = .ok v ∧
      (s.write k find source).records[k]? =
        some { l with record := r, log := l.log ++ [(f, v)] } := by
  have hlt : k < s.records.length := (List.getElem?_eq_some_iff.mp hk).1
  obtain ⟨f, v, hf, hv, hw⟩ := Record.written_granted hr
  refine ⟨f, v, hf, hv, ?_⟩
  unfold write
  rw [hk]
  dsimp only
  rw [hr, hw, List.getElem?_set_self hlt]

/-- A refused write leaves the record as it is. -/
theorem write_refused {find : Record → RecordStep σ Field} {source : Source} {e : RecordError}
    (hk : s.records[k]? = some l)
    (he : ((do l.record.set (← find l.record) source : RecordStep σ Record).run s.world).1 =
      .error e) :
    (s.write k find source).records[k]? = some l := by
  have hlt : k < s.records.length := (List.getElem?_eq_some_iff.mp hk).1
  unfold write
  rw [hk]
  dsimp only
  rw [he, Record.written_refused he, List.append_nil, List.getElem?_set_self hlt]

end Scene

end TenantSchema

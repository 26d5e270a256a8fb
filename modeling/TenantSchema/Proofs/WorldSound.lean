import TenantSchema.Proofs.DecodeSteps
import TenantSchema.Proofs.StoreSound
import TenantSchema.Store.Validation

/-!
# What becomes of worlds

Decoding asks for dictionaries and derives fields, and that is all it does to datasets: what these
keep, it keeps. In particular no field list is rebuilt in its course. Validation may find a base.
-/

namespace TenantSchema

variable {σ : Type}

/-- `R` is kept where fields are derived and dictionaries are looked for. -/
structure Store.Reading [Outside σ] (R : Store σ → Store σ → Prop) : Prop extends Deriving R where
  search : ∀ via domain path, Keeps R (findDictionary via domain path)

namespace World

/-- The stores of the worlds are related. -/
def Over (R : Store σ → Store σ → Prop) (w w' : World (Store σ)) : Prop := R w.store w'.store

/-- No field list is rebuilt. -/
def Rests (w w' : World (Store σ)) : Prop := w.store.Rests w'.store

/-- Field lists may be rebuilt. -/
def Advances (w w' : World (Store σ)) : Prop := w.store.Advances w'.store

section Over

variable {R : Store σ → Store σ → Prop}

instance [IsPreorder (Store σ) R] : IsPreorder (World (Store σ)) (Over R) where
  refl w := Std.Refl.refl (r := R) w.store
  trans _ _ _ := IsTrans.trans (r := R) _ _ _

theorem onStore_keeps {α : Type} {m : StateM (Store σ) α} (h : Keeps R m) :
    Keeps (Over R) (onStore m) :=
  fun w => h w.store

theorem remember_keeps [IsPreorder (Store σ) R] (cell : Cell) (t : Target)
    (w : World (Store σ)) : Over R w (w.remember cell t) := by
  unfold remember
  cases w.target? cell <;> exact Std.Refl.refl (r := R) w.store

end Over

instance : IsPreorder (World (Store σ)) Rests :=
  inferInstanceAs (IsPreorder (World (Store σ)) (Over Store.Rests))

instance : IsPreorder (World (Store σ)) Advances :=
  inferInstanceAs (IsPreorder (World (Store σ)) (Over Store.Advances))

theorem Rests.advances {w w' : World (Store σ)} (h : w.Rests w') : w.Advances w' :=
  Store.Rests.advances h

end World

/-! ### Decoding and validation -/

namespace World

/-- `V` is kept where fields are derived. -/
structure Deriving (V : World (Store σ) → World (Store σ) → Prop) : Prop where
  onFields : ∀ {α : Type} [Inhabited α] (id : Nat) {step : StateM Fields α},
    Keeps Fields.Reads step → Keeps V (onFields id step)

/-- `V` is kept where fields are derived and references are resolved. -/
structure Reading [Outside σ] (V : World (Store σ) → World (Store σ) → Prop) : Prop
    extends Deriving V where
  resolve : ∀ l : LookupType, KeepsE V (l.resolve : Decoding (Store σ) Target)

namespace Reading

variable [Outside σ] {V : World (Store σ) → World (Store σ) → Prop}
  [IsPreorder (World (Store σ)) V] (h : Reading V)

include h

theorem decode (t : FieldType) (source : Source) :
    KeepsE V (t.decode source : Decoding (Store σ) Value) :=
  t.decode_keeps h.resolve source

theorem typeErrors (fields : List Field) : Keeps V (World.typeErrors (σ := σ) fields) := by
  induction fields with
  | nil => exact Keeps.pure _
  | cons f rest ih =>
    refine Keeps.bind (f.type.validateDescriptor_keeps h.resolve) fun e => ?_
    cases e with
    | ok a => exact Keeps.bind ih fun _ => Keeps.pure _
    | error e => exact Keeps.bind ih fun _ => Keeps.pure _

theorem validateFields (d : Descriptor) : Keeps V (World.validateFields (σ := σ) d) := by
  refine Keeps.bind (Keeps.bind ?_ fun fields => ?_) fun _ => Keeps.pure _
  · exact h.onFields d.id Fields.lookups_read.toList
  · refine Keeps.bind (h.typeErrors fields) fun _ => Keeps.bind Keeps.get fun _ => ?_
    refine Keeps.bind (h.onFields d.id Fields.lookups_read.primaryField) fun _ => ?_
    exact Keeps.bind (h.onFields d.id Fields.lookups_read.displayField) fun _ => Keeps.pure _

theorem validate (hbase : ∀ id, Keeps V (onStore (Store.baseDictionary id))) (d : Descriptor) :
    Keeps V (World.validate (σ := σ) d) := by
  unfold World.validate
  cases d.kind with
  | dictionary => exact h.validateFields d
  | extension =>
    refine Keeps.bind (hbase d.id) fun base => ?_
    cases base with
    | error e => exact Keeps.pure _
    | ok base =>
      refine Keeps.bind (h.validateFields base) fun checked => ?_
      cases checked with
      | error e => exact Keeps.pure _
      | ok _ => exact h.validateFields d

end Reading

end World

theorem Store.Deriving.world {R : Store σ → Store σ → Prop} (h : Deriving R) :
    World.Deriving (World.Over R) where
  onFields id _ hstep := World.onStore_keeps (h.derive id hstep)

namespace Store.Reading

variable [Outside σ] {R : Store σ → Store σ → Prop} [IsPreorder (Store σ) R] (h : Reading R)

include h

theorem find (via : Via) (domain : Int) (path : String) :
    Keeps R (DictionarySource.find (τ := Store σ) via domain path) := by
  refine Keeps.bind (h.search via domain path) fun found => ?_
  rcases found with e | _ | d
  · exact Keeps.pure _
  · exact Keeps.pure _
  · exact Keeps.bind (h.derive d.id Fields.lookups_read.primaryField) fun _ => Keeps.pure _

theorem world : World.Reading (World.Over R) where
  toDeriving := h.toDeriving.world
  resolve := LookupType.resolve_keeps
    (fun via domain path => World.onStore_keeps (h.find via domain path)) World.remember_keeps

end Store.Reading

/-! ### Field lists -/

namespace Store

theorem deriving_rests : World.Deriving (World.Over (Rests (σ := σ))) :=
  datasetSteps_rest.toDeriving.world

variable [Outside σ]

theorem DatasetSteps.reading {R : Store σ → Store σ → Prop} [IsPreorder (Store σ) R]
    (h : DatasetSteps R) : Reading R where
  toDeriving := h.toDeriving
  search := h.lookupSteps.findDictionary h.register

theorem reading_rests : World.Reading (World.Over (Rests (σ := σ))) :=
  datasetSteps_rest.reading.world

theorem reading_advances : World.Reading (World.Over (Advances (σ := σ))) where
  onFields id _ hstep := (deriving_rests.onFields id hstep).mono fun _ _ => Rests.advances
  resolve l := Keeps.mono (reading_rests.resolve l) fun _ _ => Rests.advances

end Store

end TenantSchema

import TenantSchema.Store.Registry
import TenantSchema.Text.Quoted

/-!
# Directories

External sources held in memory. A table finds dictionaries by exact path, whatever the domain; a
backend finds dictionaries and, apart from them, extensions by exact domain and path. Both write down
every question before they answer it, and fail as long as they are told to.
-/

namespace TenantSchema

open TenantSchema.Number

structure Table where
  dictionaries : List (String × Descriptor) := []
  failure : Option String := none
  /-- Domain and path of every question, the latest last. -/
  calls : List (Int × String) := []
deriving Repr

structure BackendCall where
  kind : DatasetKind
  domain : Int
  path : String
deriving DecidableEq, Repr

structure Backend where
  dictionaries : List ((Int × String) × Descriptor) := []
  extensions : List ((Int × String) × ExtensionReply) := []
  failure : Option String := none
  calls : List BackendCall := []
deriving Repr

structure Directory where
  tables : List Table := []
  backends : List Backend := []
deriving Repr

/-- Sets the value of a key, in place of its earlier one. -/
def putEntry {κ α : Type} [DecidableEq κ] (entries : List (κ × α)) (key : κ) (a : α) :
    List (κ × α) :=
  (key, a) :: entries.filter (·.1 ≠ key)

namespace Table

def put (t : Table) (path : String) (d : Descriptor) : Table :=
  { t with dictionaries := putEntry t.dictionaries path d }

def ask (t : Table) (domain : Int) (path : String) : Except Error (Option Descriptor) × Table :=
  let t := { t with calls := t.calls ++ [(domain, path)] }
  match t.failure with
  | some message => (.error (.ofResolver message), t)
  | none => (.ok (t.dictionaries.lookup path), t)

/-- The questions so far, as text. -/
def callTexts (t : Table) : List String :=
  t.calls.map fun (domain, path) => intText domain ++ ":" ++ path

end Table

namespace BackendCall

def text (c : BackendCall) : String := c.kind.name ++ ":" ++ intText c.domain ++ ":" ++ c.path

end BackendCall

namespace Backend

def putDictionary (b : Backend) (domain : Int) (path : String) (d : Descriptor) : Backend :=
  { b with dictionaries := putEntry b.dictionaries (domain, path) d }

def putExtension (b : Backend) (domain : Int) (path : String) (reply : ExtensionReply) : Backend :=
  { b with extensions := putEntry b.extensions (domain, path) reply }

/-- A dataset that there is already. -/
def put (b : Backend) (domain : Int) (path : String) (d : Descriptor) : Backend :=
  match d.kind with
  | .dictionary => b.putDictionary domain path d
  | .extension => b.putExtension domain path (.known d)

/-- Writes down a question and answers it from `entries`. -/
def ask {α : Type} (b : Backend) (kind : DatasetKind) (entries : List ((Int × String) × α))
    (domain : Int) (path : String) : Except Error (Option α) × Backend :=
  let b := { b with calls := b.calls ++ [BackendCall.mk kind domain path] }
  match b.failure with
  | some message => (.error (.ofResolver message), b)
  | none => (.ok (entries.lookup (domain, path)), b)

def askDictionary (b : Backend) (domain : Int) (path : String) :
    Except Error (Option Descriptor) × Backend :=
  b.ask .dictionary b.dictionaries domain path

def askExtension (b : Backend) (domain : Int) (path : String) :
    Except Error (Option ExtensionReply) × Backend :=
  b.ask .extension b.extensions domain path

end Backend

namespace Directory

/-- A question to a source in a list; an unknown source finds nothing. -/
def askIn {α β : Type} (sources : List α) (id : Nat)
    (ask : α → Except Error (Option β) × α) : Except Error (Option β) × List α :=
  match sources[id]? with
  | none => (.ok none, sources)
  | some source =>
    let (answer, source) := ask source
    (answer, sources.set id source)

def askTable (id : Nat) (domain : Int) (path : String) :
    StateM Directory (Except Error (Option Descriptor)) := fun d =>
  let (answer, tables) := askIn d.tables id (·.ask domain path)
  (answer, { d with tables })

/-- A question to a backend. -/
def askBackend {α : Type} (id : Nat) (ask : Backend → Except Error (Option α) × Backend) :
    StateM Directory (Except Error (Option α)) := fun d =>
  let (answer, backends) := askIn d.backends id ask
  (answer, { d with backends })

/-- Directories beside a stack of some depth. -/
@[reducible]
def beside (depth : Nat) : Outside Directory where
  table := askTable
  dictionary id domain path := askBackend id (·.askDictionary domain path)
  extension id domain path := askBackend id (·.askExtension domain path)
  depth

instance : Outside Directory := beside 4096

end Directory

end TenantSchema

import TenantSchema.Error
import TenantSchema.Number.Integer
import TenantSchema.Visit

/-!
# Caches with several keys per entry

A cache holds a limited number of values, each reachable by every one of its keys. No key reaches two
entries. The least recently used entry gives way to a new one; entries are ordered from the least to
the most recently used.
-/

namespace TenantSchema

open TenantSchema.Number

inductive CacheError (κ : Type) where
  /-- These keys of a value belong to distinct entries. -/
  | keysReserved (keys : List κ)
  | noKeys
deriving DecidableEq, Repr

namespace CacheError

def errorClass {κ : Type} : CacheError κ → ErrorClass
  | .keysReserved _ => .conflict
  | .noKeys => .structural

def message : CacheError String → String
  | .keysReserved keys => "key(s) reserved: " ++ ", ".intercalate keys
  | .noKeys => "cache entry has no keys"

def toError (e : CacheError String) : Error :=
  { errorClass := e.errorClass, origin := .cache, message := e.message }

end CacheError

structure CacheEntry (κ α : Type) where
  seq : Nat
  keys : List κ
  value : α
deriving DecidableEq, Repr

structure Cache (κ α : Type) where
  /-- The keys under which a value wants to be reached. -/
  keysOf : α → List κ
  capacity : Nat
  /-- The number of the newest entry so far. -/
  counter : Nat := 0
  /-- The number of the entry that a key reaches. -/
  index : List (κ × Nat) := []
  entries : List (CacheEntry κ α) := []

namespace Cache

variable {κ α : Type} [DecidableEq κ]

/-- A cache for at least one entry. -/
def empty (capacity : Nat) (keysOf : α → List κ) : Cache κ α :=
  { keysOf, capacity := max capacity 1 }

def size (c : Cache κ α) : Nat := c.entries.length

def isEmpty (c : Cache κ α) : Bool := c.entries.isEmpty

/-- The values, the least recently used first. -/
def toList (c : Cache κ α) : List α := c.entries.map (·.value)

/-- The keys of a value, each once. -/
def keys (c : Cache κ α) (v : α) : List κ := (c.keysOf v).eraseDups

def seq? (c : Cache κ α) (key : κ) : Option Nat := c.index.lookup key

def entry? (c : Cache κ α) (seq : Nat) : Option (CacheEntry κ α) :=
  c.entries.find? (·.seq = seq)

/-- The numbers of the entries that some keys reach, each once. -/
def owners (c : Cache κ α) (keys : List κ) : List Nat := (keys.filterMap c.seq?).eraseDups

/-! ### Index and order -/

def indexKey (c : Cache κ α) (key : κ) (seq : Nat) : Cache κ α :=
  { c with index := (key, seq) :: c.index.filter (·.1 ≠ key) }

def indexAll (c : Cache κ α) (keys : List κ) (seq : Nat) : Cache κ α :=
  keys.foldl (·.indexKey · seq) c

/-- Removes those keys that still reach the entry. -/
def unindex (c : Cache κ α) (keys : List κ) (seq : Nat) : Cache κ α :=
  { c with index := c.index.filter fun e => !(keys.contains e.1 && e.2 == seq) }

/-- Takes an entry out, leaving the index. -/
def drop (c : Cache κ α) (seq : Nat) : Cache κ α :=
  { c with entries := c.entries.filter (·.seq ≠ seq) }

/-- Puts an entry where the most recently used one is. -/
def push (c : Cache κ α) (e : CacheEntry κ α) : Cache κ α :=
  { c with entries := c.entries ++ [e] }

/-- Makes room for one more entry. -/
def evict (c : Cache κ α) : Cache κ α :=
  if c.entries.length < c.capacity then c
  else
    match c.entries with
    | [] => c
    | oldest :: rest => { c with entries := rest }.unindex oldest.keys oldest.seq

/-! ### Operations -/

/-- A new entry, the most recently used one. -/
def append (c : Cache κ α) (keys : List κ) (v : α) : Cache κ α :=
  let seq := c.counter + 1
  ({ c with counter := seq }.evict.push ⟨seq, keys, v⟩).indexAll keys seq

/-- Gives an entry new keys and a new value and makes it the most recently used one. -/
def replace (c : Cache κ α) (e : CacheEntry κ α) (keys : List κ) (v : α) : Cache κ α :=
  (((c.drop e.seq).push ⟨e.seq, keys, v⟩).unindex (e.keys.filter (!keys.contains ·)) e.seq).indexAll
    keys e.seq

/-- Adds a value, or replaces the one entry that its keys reach. -/
def add (c : Cache κ α) (v : α) : Except (CacheError κ) (Cache κ α) :=
  match c.keys v with
  | [] => .error .noKeys
  | key :: more =>
    let keys := key :: more
    match c.owners keys with
    | [] => .ok (c.append keys v)
    | [seq] =>
      match c.entry? seq with
      | some e => .ok (c.replace e keys v)
      | none => .ok ({ c with index := c.index.filter (·.2 ≠ seq) }.append keys v)
    | _ => .error (.keysReserved (keys.filter fun k => (c.seq? k).isSome))

/-- Hands the values to a visitor, the least recently used first. -/
def forEach (c : Cache κ α) (more : List α → Bool) : List α := visited more [] c.toList

/-- The value of a key, whatever its recency. -/
def peek (c : Cache κ α) (key : κ) : Option α := ((c.seq? key).bind c.entry?).map (·.value)

/-- The value of a key, which becomes the most recently used one. -/
def get (c : Cache κ α) (key : κ) : Option α × Cache κ α :=
  match (c.seq? key).bind c.entry? with
  | some e => (some e.value, (c.drop e.seq).push e)
  | none => (none, c)

/-- Removes the entry of a key. -/
def remove (c : Cache κ α) (key : κ) : Option α × Cache κ α :=
  match (c.seq? key).bind c.entry? with
  | some e => (some e.value, (c.drop e.seq).unindex e.keys e.seq)
  | none => (none, c)

/-- Removes the entry of a key, and the key in any case. -/
def deleteKey (c : Cache κ α) (key : κ) : Bool × Cache κ α :=
  let (removed, c) := c.remove key
  (removed.isSome, { c with index := c.index.filter (·.1 ≠ key) })

def deleteKeys (c : Cache κ α) : List κ → Bool × Cache κ α
  | [] => (false, c)
  | key :: rest =>
    let (first, c) := c.deleteKey key
    let (others, c) := deleteKeys c rest
    (first || others, c)

/-- Removes every entry that the keys of a value reach, and tells whether there was one. -/
def delete (c : Cache κ α) (v : α) : Bool × Cache κ α := c.deleteKeys (c.keys v)

def describe (c : Cache κ α) : String :=
  "Cache \x7b len: " ++ natText c.size ++ ", capacity: " ++ natText c.capacity ++ ", keys: " ++
    natText c.index.length ++ ", .. \x7d"

end Cache

end TenantSchema

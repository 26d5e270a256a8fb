import TenantSchema.Toml.Value

/-!
# TOML documents

Lines of keys and values under table headers. A table may be opened once; tables that only arose on
the way to another may still be opened, and a dotted key may only enter tables that no header opened.
-/

namespace TenantSchema.Toml

/-- How a table came to be. -/
inductive Origin where
  | header
  | onTheWay
  | dotted
deriving DecidableEq, Repr

inductive Node where
  | leaf (w : Wire)
  | table (origin : Origin) (entries : List (String × Node))
  | tables (items : List (List (String × Node)))
deriving Inhabited

abbrev Entries := List (String × Node)

def Entries.set (es : Entries) (name : String) (node : Node) : Entries :=
  if es.any (·.1 == name) then es.map fun e => if e.1 == name then (name, node) else e
  else es ++ [(name, node)]

/-- Changes the table at a path; `enter` says which existing tables may be passed, and tables that
are missing arise with `origin`. -/
def Entries.modify? (origin : Origin) (enter : Origin → Bool)
    (change : Entries → Option Entries) : List String → Entries → Option Entries
  | [], es => change es
  | name :: names, es =>
    match es.lookup name with
    | none => (modify? origin enter change names []).map fun inner => es.set name (.table origin inner)
    | some (.table o inner) =>
      if enter o then
        (modify? origin enter change names inner).map fun inner => es.set name (.table o inner)
      else none
    | some (.tables items) =>
      match items.getLast? with
      | some last =>
        if origin = .dotted then none
        else
          (modify? origin enter change names last).map fun last =>
            es.set name (.tables (items.dropLast ++ [last]))
      | none => none
    | some (.leaf _) => none

/-- Opens the table of a header. -/
def openTable? (es : Entries) (names : List String) : Option Entries :=
  match names.getLast? with
  | none => none
  | some name =>
    es.modify? .onTheWay (fun _ => true) (fun es =>
      match es.lookup name with
      | none => some (es.set name (.table .header []))
      | some (.table .onTheWay inner) => some (es.set name (.table .header inner))
      | some _ => none) names.dropLast

/-- Appends a table to the array of a double header. -/
def openArray? (es : Entries) (names : List String) : Option Entries :=
  match names.getLast? with
  | none => none
  | some name =>
    es.modify? .onTheWay (fun _ => true) (fun es =>
      match es.lookup name with
      | none => some (es.set name (.tables [[]]))
      | some (.tables items) => some (es.set name (.tables (items ++ [[]])))
      | some _ => none) names.dropLast

/-- Sets a key in the open table. -/
def assign? (es : Entries) (current names : List String) (w : Wire) : Option Entries :=
  match names.getLast? with
  | none => none
  | some name =>
    es.modify? .onTheWay (fun _ => true) (Entries.modify? .dotted (· ≠ .header) (fun es =>
      match es.lookup name with
      | none => some (es.set name (.leaf w))
      | some _ => none) names.dropLast) current

/-- Reads lines into `es`, of which the table `current` is open; `n` bounds their number. -/
def lines? : Nat → Entries → List String → List Char → Option Entries
  | 0, _, _, _ => none
  | n + 1, es, current, cs =>
    match skipSpace cs with
    | [] => some es
    | '\n' :: rest => lines? n es current rest
    | '\r' :: '\n' :: rest => lines? n es current rest
    | '#' :: rest => do lines? n es current (← endLine? ('#' :: rest))
    | '[' :: '[' :: rest => do
      let (names, rest) ← key? (rest.length + 1) rest
      match rest with
      | ']' :: ']' :: rest => lines? n (← openArray? es names) names (← endLine? rest)
      | _ => none
    | '[' :: rest => do
      let (names, rest) ← key? (rest.length + 1) rest
      match rest with
      | ']' :: rest => lines? n (← openTable? es names) names (← endLine? rest)
      | _ => none
    | cs => do
      let (names, rest) ← key? (cs.length + 1) cs
      match rest with
      | '=' :: rest =>
        let (w, rest) ← value? (rest.length + 1) (skipSpace rest)
        lines? n (← assign? es current names w) current (← endLine? rest)
      | _ => none

mutual

def Node.toWire : Node → Wire
  | .leaf w => w
  | .table _ es => .object (entriesToWire es)
  | .tables items => .array (tablesToWire items)

def entriesToWire : List (String × Node) → WireMap
  | [] => []
  | (name, node) :: rest => (name, node.toWire) :: entriesToWire rest

def tablesToWire : List (List (String × Node)) → List Wire
  | [] => []
  | es :: rest => .object (entriesToWire es) :: tablesToWire rest

end

/-- The members of a document. -/
def read? (text : String) : Option WireMap :=
  (lines? (text.length + 1) [] [] text.toList).map entriesToWire

end TenantSchema.Toml

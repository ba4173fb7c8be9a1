import Filing.Data.Value

/-!
# Tables of TOML

A TOML text builds one tree of tables in any order, but defines each table once. What may still be
added to a table depends on how it came about: by a header, by the header of a table inside it, or
by a dotted key. `Node` records that, and the two operations of this module, opening a table by its
header and entering a value under a dotted key, refuse every second definition.
-/

namespace Filing.Toml

open Filing.Data (Value)

/-- How a table came about. -/
inductive Origin where
  /-- By its own header. -/
  | header
  /-- By the header of a table inside it. -/
  | implied
  /-- By a dotted key. -/
  | dotted
deriving DecidableEq

/-- What stands under a name: a finished value, a table that may grow, or a list of tables. -/
inductive Node where
  /-- A value; an inline table is one. -/
  | leaf (v : Value)
  /-- A table and what it holds, the latest entry first. -/
  | table (origin : Origin) (members : List (String × Node))
  /-- A list of tables, the latest first. -/
  | tables (items : List (List (String × Node)))

/-- The entries of a table, the latest first. -/
abbrev Members := List (String × Node)

/-- The node under a name. -/
def Members.find? (ms : Members) (name : String) : Option Node :=
  (List.find? (·.1 == name) ms).map (·.2)

/-- Puts a node under a name, at its old place if the name is taken. -/
def Members.set (ms : Members) (name : String) (node : Node) : Members :=
  if ms.any (·.1 == name) then ms.map fun e => if e.1 == name then (name, node) else e
  else (name, node) :: ms

/-! ## Opening a table by its header -/

/-- Changes the table at the end of a path of headers by `f`. Tables on the way that are missing
are implied; on the way, a list of tables stands for its latest one. -/
def Members.within (f : Members → Option Members) : List String → Members → Option Members
  | [], ms => f ms
  | name :: path, ms =>
    match ms.find? name with
    | none => (within f path []).map fun sub => ms.set name (.table .implied sub)
    | some (.table origin sub) => (within f path sub).map fun sub => ms.set name (.table origin sub)
    | some (.tables (sub :: subs)) =>
      (within f path sub).map fun sub => ms.set name (.tables (sub :: subs))
    | some _ => none

/-- Opens the table with a name by its header. -/
def Members.openTable (name : String) (ms : Members) : Option Members :=
  match ms.find? name with
  | none => some (ms.set name (.table .header []))
  | some (.table .implied sub) => some (ms.set name (.table .header sub))
  | some _ => none

/-- Adds a table to the list of tables with a name. -/
def Members.addTable (name : String) (ms : Members) : Option Members :=
  match ms.find? name with
  | none => some (ms.set name (.tables [[]]))
  | some (.tables subs) => some (ms.set name (.tables ([] :: subs)))
  | some _ => none

/-! ## Entering a value -/

/-- Enters a value under a dotted key. The tables on the way are made by dotted keys alone. -/
def Members.enter (v : Value) : List String → Members → Option Members
  | [], _ => none
  | [name], ms => if (ms.find? name).isSome then none else some (ms.set name (.leaf v))
  | name :: path, ms =>
    match ms.find? name with
    | none => (enter v path []).map fun sub => ms.set name (.table .dotted sub)
    | some (.table .dotted sub) =>
      (enter v path sub).map fun sub => ms.set name (.table .dotted sub)
    | some _ => none

/-! ## The finished value -/

mutual

/-- The value of a node. -/
def Node.value : Node → Value
  | .leaf v => v
  | .table _ ms => .record (valuesOf [] ms)
  | .tables items => .list (recordsOf [] items)

/-- The members of a table in the order of the text, before those in `acc`. -/
def valuesOf (acc : List (String × Value)) : List (String × Node) → List (String × Value)
  | [] => acc
  | (name, node) :: ms => valuesOf ((name, node.value) :: acc) ms

/-- The records of a list of tables in the order of the text, before those in `acc`. -/
def recordsOf (acc : List Value) : List (List (String × Node)) → List Value
  | [] => acc
  | ms :: items => recordsOf (.record (valuesOf [] ms) :: acc) items

end

end Filing.Toml

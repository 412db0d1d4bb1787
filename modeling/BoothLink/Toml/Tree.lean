import BoothLink.Toml.Basic

/-!
# Tables under construction

The tables of a file come about in three ways: by a header, by a dotted key, or because a header names a
table inside them. Which way it was decides what may still be added. A header may complete a table that
only headers inside it have named; a dotted key may add to tables that dotted keys have made; a key
stands in a table once.

* `Toml.Path`: a dotted key.
* `Toml.Node`, `Toml.Origin`: what a key holds while the file is read.
* `Toml.within`: a change to the table that a path leads to.
* `Toml.addEntry`, `Toml.openTable`, `Toml.openItem`: the changes that the lines of a file make.
* `Toml.Node.value`: the value in the end.
-/

namespace BoothLink.Toml

/-- A dotted key: the tables that it goes through, and the key in the last of them. -/
structure Path where
  parents : List String
  last : String
  deriving DecidableEq, Repr

/-- How a table came about. -/
inductive Origin where
  /-- A header names a table inside it. -/
  | implied
  /-- A dotted key goes through it. -/
  | dotted
  /-- It has a header of its own, or is the whole file. -/
  | headed
  deriving DecidableEq, Repr

/-- What a key holds. -/
inductive Node where
  | leaf (v : Toml)
  | table (origin : Origin) (fields : List (String × Node))
  /-- A list of tables with headers: those that are complete, the last first, and the current one. -/
  | tables (before : List (List (String × Node))) (current : List (String × Node))

abbrev Fields := List (String × Node)

/-- A field with a new content, in its place or at the end. -/
def Fields.put (key : String) (n : Node) : Fields → Fields
  | [] => [(key, n)]
  | (k, m) :: rest => if k = key then (k, n) :: rest else (k, m) :: Fields.put key n rest

/-- Makes a change to the table that a path leads to. Tables that are not there yet come about as
given; dotted keys do not go through tables with headers. -/
def within (made : Origin) (change : Origin → Fields → Option Fields) :
    List String → Origin → Fields → Option Fields
  | [], origin, fields => change origin fields
  | key :: path, _, fields =>
    match fields.lookup key with
    | none => (within made change path made []).map fun sub => Fields.put key (.table made sub) fields
    | some (.leaf _) => none
    | some (.table origin sub) =>
      if made = .dotted ∧ origin = .headed then none
      else (within made change path origin sub).map fun sub => fields.put key (.table origin sub)
    | some (.tables before current) =>
      (within made change path .headed current).map fun sub => fields.put key (.tables before sub)

/-- Adds a value under a dotted key. The table that it goes to, if it is not the one where the line
stands, must have been made by dotted keys. -/
def addEntry (p : Path) (v : Toml) (origin : Origin) (fields : Fields) : Option Fields :=
  within .dotted (fun reached fields =>
    if !p.parents.isEmpty && reached ≠ .dotted then none
    else if (fields.lookup p.last).isSome then none
    else some (fields.put p.last (.leaf v))) p.parents origin fields

/-- Gives a table its header. -/
def openTable (p : Path) (root : Fields) : Option Fields :=
  within .implied (fun _ fields =>
    match fields.lookup p.last with
    | none => some (fields.put p.last (.table .headed []))
    | some (.table .implied sub) => some (fields.put p.last (.table .headed sub))
    | some _ => none) p.parents .headed root

/-- Begins another table in a list of tables. -/
def openItem (p : Path) (root : Fields) : Option Fields :=
  within .implied (fun _ fields =>
    match fields.lookup p.last with
    | none => some (fields.put p.last (.tables [] []))
    | some (.tables before current) => some (fields.put p.last (.tables (current :: before) []))
    | some _ => none) p.parents .headed root

/-! ## Values -/

mutual

/-- The value of what a key holds. -/
def Node.value : Node → Toml
  | .leaf v => v
  | .table _ fields => .table (fieldValues fields)
  | .tables before current => .list (itemValues [.table (fieldValues current)] before)

/-- The values of the fields of a table. -/
def fieldValues : List (String × Node) → List (String × Toml)
  | [] => []
  | (k, n) :: rest => (k, n.value) :: fieldValues rest

/-- The values of tables that are complete, held in reverse, in front of others. -/
def itemValues (others : List Toml) : List (List (String × Node)) → List Toml
  | [] => others
  | fields :: rest => itemValues (.table (fieldValues fields) :: others) rest

end

end BoothLink.Toml

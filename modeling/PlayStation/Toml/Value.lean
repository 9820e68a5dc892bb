import PlayStation.Toml.Scalar

/-!
# Values of a TOML document

A table remembers how it came to be, because that decides what may still be
added to it: a header may not open a table twice, a dotted key may not reach into
a table that a header opened, and an inline table is complete as written.
-/

namespace PlayStation.Toml

/-- How a table came to be. -/
inductive Origin where
  /-- A header names it.  The document itself is such a table too. -/
  | header
  /-- A header passes through it. -/
  | implied
  /-- A dotted key passes through it. -/
  | dotted
  /-- It is written in braces. -/
  | inline
  deriving DecidableEq, Repr

/-- A value.  Tables keep their entries in the order in which they were added. -/
inductive Value where
  | string (text : String)
  | scalar (s : Scalar)
  | array (items : List Value)
  /-- An array of tables, each opened by a header, the newest first. -/
  | tables (newest : Value) (earlier : List Value)
  | table (origin : Origin) (entries : List (String × Value))
  deriving Inhabited

/-- The entries of a table. -/
abbrev Entries := List (String × Value)

/-- A key: the names of the tables on the way, and the last name. -/
structure Key where
  path : List String
  name : String
  deriving DecidableEq, Repr

/-- Puts a value under a name, in place of the old one if there is one. -/
def Entries.put (name : String) (value : Value) : Entries → Entries
  | [] => [(name, value)]
  | (n, v) :: rest =>
    if n = name then (name, value) :: rest else (n, v) :: Entries.put name value rest

namespace Origin

/-- Whether a path may pass through a table of this origin.  Nothing reaches into
an inline table, and a dotted key, which makes dotted tables, does not reach into
one that a header has opened. -/
def admits (made origin : Origin) : Bool :=
  match origin with
  | .inline => false
  | .header => made != .dotted
  | .implied | .dotted => true

end Origin

namespace Value

/-- An empty table. -/
def empty (origin : Origin) : Value :=
  .table origin []

mutual

/-- Whether every number in a value has a value. -/
def readable : Value → Bool
  | .string _ => true
  | .scalar s => s.fits
  | .array items => allReadable items
  | .tables newest earlier => newest.readable && allReadable earlier
  | .table _ entries => entriesReadable entries

/-- Whether all values of a list are readable. -/
def allReadable : List Value → Bool
  | [] => true
  | v :: rest => v.readable && allReadable rest

/-- Whether all values of a table are readable. -/
def entriesReadable : List (String × Value) → Bool
  | [] => true
  | (_, v) :: rest => v.readable && entriesReadable rest

end

/-- Changes the table at the end of a path.  Tables that are missing on the way
are made with origin `made`, and of an array of tables the newest is meant. -/
def update (made : Origin) (change : Value → Option Value) : List String → Value → Option Value
  | [], v => change v
  | name :: path, .table origin entries => do
    let child ←
      match entries.lookup name with
      | none => update made change path (empty made)
      | some (.tables newest earlier) =>
        (update made change path newest).map fun newest => .tables newest earlier
      | some (.table inner es) =>
        if made.admits inner then update made change path (.table inner es) else none
      | some _ => none
    some (.table origin (Entries.put name child entries))
  | _ :: _, _ => none

/-- Adds an entry.  The name must be new.  A dotted key ends in a table made by
dotted keys, a plain one does not. -/
def insert (table : Value) (key : Key) (value : Value) : Option Value :=
  table.update .dotted (fun
    | .table origin entries =>
      if (origin = .dotted ↔ key.path ≠ []) ∧ entries.lookup key.name = none then
        some (.table origin (Entries.put key.name value entries))
      else none
    | _ => none) key.path

/-- Opens the table that a header names.  Only a table that headers have merely
passed through may exist before. -/
def openTable (table : Value) (key : Key) : Option Value :=
  table.update .implied (fun
    | .table origin entries =>
      match entries.lookup key.name with
      | none => some (.table origin (Entries.put key.name (empty .header) entries))
      | some (.table .implied inner) =>
        some (.table origin (Entries.put key.name (.table .header inner) entries))
      | some _ => none
    | _ => none) key.path

/-- Opens a further table of an array of tables. -/
def openElement (table : Value) (key : Key) : Option Value :=
  table.update .implied (fun
    | .table origin entries =>
      match entries.lookup key.name with
      | none => some (.table origin (Entries.put key.name (.tables (empty .header) []) entries))
      | some (.tables newest earlier) =>
        some (.table origin
          (Entries.put key.name (.tables (empty .header) (newest :: earlier)) entries))
      | some _ => none
    | _ => none) key.path

end Value
end PlayStation.Toml

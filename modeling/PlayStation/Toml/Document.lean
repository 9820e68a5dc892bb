import PlayStation.Toml.Expression

/-!
# Documents

The tables that the headers and entries of a document describe.
-/

namespace PlayStation.Toml

/-- A document that has been read in part. -/
structure Document where
  root : Value := .empty .header
  /-- The table to which the next entries belong. -/
  current : List String := []

namespace Document

/-- Adds a header or an entry, unless it repeats what is there. -/
def add (d : Document) : Expression → Option Document
  | .table key => do
    some ⟨← d.root.openTable key, key.path ++ [key.name]⟩
  | .element key => do
    some ⟨← d.root.openElement key, key.path ++ [key.name]⟩
  | .entry key value => do
    some { d with root := ← d.root.update .implied (·.insert key value) d.current }

end Document

/-- The table that a text describes, if it is a document without contradictions. -/
def parse? (text : String) : Option Value := do
  let d ← (← expressions? text.toList).foldlM Document.add {}
  some d.root

end PlayStation.Toml

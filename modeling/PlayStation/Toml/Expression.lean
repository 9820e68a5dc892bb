import PlayStation.Toml.Quoted
import PlayStation.Toml.Value

/-!
# The lines of a document

A document is a sequence of headers, each `[key]` or `[[key]]`, and of entries
`key = value`, each on a line of its own.
-/

namespace PlayStation.Toml

/-- A header or an entry. -/
inductive Expression where
  /-- The entries that follow belong to this table. -/
  | table (key : Key)
  /-- They belong to a new table of this array. -/
  | element (key : Key)
  | entry (key : Key) (value : Value)

/-- Takes a name, in quotes or not. -/
def name? (s : List Char) : Option (String × List Char) :=
  match s.span isBare with
  | ([], _) => (singleLine? s).map fun (text, rest) => (String.ofList text, rest)
  | (text, rest) => some (String.ofList text, rest)

/-- How many names a key may have, and how many arrays and inline tables may stand in
one another. -/
def maxDepth : Nat := 80

/-- Takes a key of at most `limit` names, together with the blanks after it. -/
def keyUpTo? : (limit : Nat) → List Char → Option (Key × List Char)
  | 0, _ => none
  | limit + 1, s => do
    let (name, rest) ← name? s
    match skipBlanks rest with
    | '.' :: rest => do
      let (key, rest) ← keyUpTo? limit (skipBlanks rest)
      some (⟨name :: key.path, key.name⟩, rest)
    | rest => some (⟨[], name⟩, rest)

/-- Takes a key and the blanks after it. -/
def key? (s : List Char) : Option (Key × List Char) :=
  keyUpTo? maxDepth s

/-! ## Values

`limit` bounds the calls that are open at a time.  A value, an item or an entry
that contains another one has a character before it.  `depth` tells how many arrays
and inline tables may still be opened. -/

mutual

/-- Takes a value. -/
def valueUpTo? : (limit depth : Nat) → List Char → Option (Value × List Char)
  | 0, _, _ => none
  | limit + 1, depth, s =>
    match s, depth with
    | '[' :: s, depth + 1 => do
      let (items, rest) ← itemsUpTo? limit depth s
      some (.array items, rest)
    | '{' :: s, depth + 1 => entriesUpTo? limit depth (.empty .inline) s
    | '[' :: _, 0 | '{' :: _, 0 => none
    | '"' :: _, _ | '\'' :: _, _ =>
      (quoted? s).map fun (text, rest) => (.string (String.ofList text), rest)
    | s, _ => (scalar? s).map fun (scalar, rest) => (.scalar scalar, rest)

/-- Takes the items of an array up to its closing bracket.  Line breaks and comments
may stand between them, and a comma after the last. -/
def itemsUpTo? : (limit depth : Nat) → List Char → Option (List Value × List Char)
  | 0, _, _ => none
  | limit + 1, depth, s => do
    match ← skipSpace false s with
    | ']' :: rest => some ([], rest)
    | s => do
      let (item, rest) ← valueUpTo? limit depth s
      match ← skipSpace false rest with
      | ',' :: rest => do
        let (items, rest) ← itemsUpTo? limit depth rest
        some (item :: items, rest)
      | ']' :: rest => some ([item], rest)
      | _ => none

/-- Takes the entries of an inline table up to its closing brace and adds them to
`table`.  Line breaks and comments may stand around keys and values, and a comma
after the last entry. -/
def entriesUpTo? :
    (limit depth : Nat) → (table : Value) → List Char → Option (Value × List Char)
  | 0, _, _, _ => none
  | limit + 1, depth, table, s => do
    match ← skipSpace false s with
    | '}' :: rest => some (table, rest)
    | s => do
      let (key, rest) ← key? s
      match ← skipSpace false rest with
      | '=' :: rest => do
        let (value, rest) ← valueUpTo? limit depth (← skipSpace false rest)
        let table ← table.insert key value
        match ← skipSpace false rest with
        | ',' :: rest => entriesUpTo? limit depth table rest
        | '}' :: rest => some (table, rest)
        | _ => none
      | _ => none

end

/-- Takes a value. -/
def value? (s : List Char) : Option (Value × List Char) :=
  valueUpTo? (2 * s.length + 1) maxDepth s

/-- Takes a header or an entry. -/
def expression? : List Char → Option (Expression × List Char)
  | '[' :: '[' :: s =>
    match key? (skipBlanks s) with
    | some (key, ']' :: ']' :: rest) => some (.element key, rest)
    | _ => none
  | '[' :: s =>
    match key? (skipBlanks s) with
    | some (key, ']' :: rest) => some (.table key, rest)
    | _ => none
  | s => do
    match ← key? s with
    | (key, '=' :: rest) => do
      let (value, rest) ← value? (skipBlanks rest)
      some (.entry key value, rest)
    | _ => none

/-- Reads a document of at most `limit` headers and entries. -/
def expressionsUpTo? : (limit : Nat) → List Char → Option (List Expression)
  | limit, s => do
    match ← skipSpace false s with
    | [] => some []
    | s =>
      match limit with
      | 0 => none
      | limit + 1 => do
        let (expression, rest) ← expression? s
        let expressions ← expressionsUpTo? limit (← lineEnd rest)
        some (expression :: expressions)

/-- Reads a document.  A byte order mark may come first. -/
def expressions? (s : List Char) : Option (List Expression) :=
  let s := if s.head? = some '\uFEFF' then s.tail else s
  expressionsUpTo? s.length s

end PlayStation.Toml

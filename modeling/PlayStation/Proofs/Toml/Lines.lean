import Mathlib.Data.List.TakeDrop
import PlayStation.Proofs.Toml.QuotedStrings
import PlayStation.Toml.Expression

/-!
# Lines read back

A header with a bare name, and an entry that gives a bare name a string, are read as what
they stand for (`expression?_header`, `expression?_entry`), whatever lines follow.  Such a
line at the beginning of a document is read before the rest (`expressionsUpTo?_line`), so
the lines of a document are read as the headers and entries of the sheet that it describes
(`Describes.expressions?`).
-/

namespace PlayStation.Toml

variable {name text rest : List Char} {c : Char}

/-! ## Names -/

/-- A bare name has a first letter. -/
theorem exists_cons_of_isBareName (h : isBareName name = true) :
    ∃ c letters, name = c :: letters ∧ isBare c = true := by
  cases name with
  | nil => cases h
  | cons c letters =>
    simp only [isBareName, List.all_cons, Bool.and_eq_true] at h
    exact ⟨c, letters, rfl, h.2.1⟩

/-- A bare name ends where a character follows that is not bare. -/
theorem name?_bare (h : isBareName name = true) (stop : ∀ c ∈ rest.head?, isBare c = false) :
    name? (name ++ rest) = some (String.ofList name, rest) := by
  have bare : ∀ c ∈ name, isBare c = true := by
    simp only [isBareName, Bool.and_eq_true, List.all_eq_true] at h
    exact h.2
  have span : (name ++ rest).span isBare = (name, rest) := by
    rw [List.span_eq_takeWhile_dropWhile, List.takeWhile_append_of_pos bare,
      List.dropWhile_append_of_pos bare]
    cases rest with
    | nil => simp
    | cons c rest => simp [stop c rfl]
  rw [name?, span]
  obtain ⟨c, letters, rfl, -⟩ := exists_cons_of_isBareName h
  rfl

/-- A bare name is a key of its own if no dot follows. -/
theorem key?_bare (h : isBareName name = true) (stop : ∀ c ∈ rest.head?, isBare c = false)
    (last : (skipBlanks rest).head? ≠ some '.') :
    key? (name ++ rest) = some (⟨[], String.ofList name⟩, skipBlanks rest) := by
  show keyUpTo? (79 + 1) _ = _
  rw [keyUpTo?, name?_bare h stop]
  simp only [Option.bind_eq_bind, Option.bind_some]
  split
  · next dot => simp [dot] at last
  · rfl

/-- A letter of a bare name is none of the characters that end it. -/
theorem ne_of_isBare {d : Char} (bare : isBare c = true) (other : isBare d = false) : c ≠ d := by
  rintro rfl
  simp [bare] at other

/-- What begins with a bare name begins with neither a blank, a comment nor a line break. -/
theorem skip_of_isBare (bare : isBare c = true) (s : List Char) :
    skipBlanks (c :: s) = c :: s ∧ skipSpace false (c :: s) = some (c :: s) := by
  have others : [' ', '\t', '#', '\n', '\r'].all (!isBare ·) = true := by decide
  have : ∀ d ∈ [' ', '\t', '#', '\n', '\r'], c ≠ d := fun d mem =>
    ne_of_isBare bare (by simpa using List.all_eq_true.mp others d mem)
  simp only [List.forall_mem_cons] at this
  constructor <;> simp [skipBlanks, skipSpace, isBlank, this]

/-! ## Blanks -/

/-- All of a space is skipped. -/
theorem skipBlanks_append {space : List Char} (h : isSpace space = true) (s : List Char) :
    skipBlanks (space ++ s) = skipBlanks s :=
  List.dropWhile_append_of_pos (List.all_eq_true.mp h)

/-- A blank is no letter of a bare name. -/
theorem not_isBare_of_isBlank (h : isBlank c = true) : isBare c = false := by
  simp only [isBlank, Bool.or_eq_true, decide_eq_true_eq] at h
  rcases h with rfl | rfl <;> decide

/-- What is between a name and its string does not belong to the name. -/
theorem stop_of_isSpace {before : List Char} (space : isSpace before = true) (s : List Char) :
    ∀ c ∈ (before ++ '=' :: s).head?, isBare c = false := by
  cases before with
  | nil =>
    rintro _ ⟨⟩
    decide
  | cons blank before =>
    rintro _ ⟨⟩
    simp only [isSpace, List.all_cons, Bool.and_eq_true] at space
    exact not_isBare_of_isBlank space.1

/-! ## Values -/

/-- A string begins with a quote. -/
theorem IsString.head? {string : List Char} (h : IsString string text) (rest : List Char) :
    ∃ f : Form, (string ++ rest).head? = some f.quote := by
  cases h with
  | @sameLine f => exact ⟨f, by rw [List.append_assoc, Form.head?_delimiter_append]⟩
  | @nextLine f => exact ⟨f, by rw [List.append_assoc, Form.head?_delimiter_append]⟩

/-- No blank is skipped before a string. -/
theorem IsString.skipBlanks {string : List Char} (h : IsString string text) (rest : List Char) :
    skipBlanks (string ++ rest) = string ++ rest := by
  obtain ⟨f, head⟩ := h.head? rest
  obtain ⟨s, cons⟩ := List.head?_eq_some_iff.1 head
  rcases f.quote_cases with h | h <;> simp [cons, h, Toml.skipBlanks, isBlank]

/-- What begins with a quote is read as a string. -/
theorem value?_of_quote {f : Form} {s : List Char} (head : s.head? = some f.quote) :
    value? s = (quoted? s).map fun (text, rest) => (.string (String.ofList text), rest) := by
  obtain ⟨s, rfl⟩ := List.head?_eq_some_iff.1 head
  rcases f.quote_cases with h | h <;> simp [h, value?, valueUpTo?]

/-- A string at the end of its line is the value that it stands for. -/
theorem IsString.value? {string : List Char} (h : IsString string text) (rest : List Char) :
    value? (string ++ '\n' :: rest) = some (.string (String.ofList text), '\n' :: rest) := by
  obtain ⟨f, head⟩ := h.head? ('\n' :: rest)
  rw [value?_of_quote head, h.quoted? (by simp) (by simp)]
  rfl

/-! ## Headers and entries -/

/-- A header is read as the table that it opens. -/
theorem expression?_header (h : isBareName name = true) (rest : List Char) :
    expression? ('[' :: (name ++ ']' :: rest)) = some (.table ⟨[], String.ofList name⟩, rest) := by
  have key : key? (name ++ ']' :: rest) = some (⟨[], String.ofList name⟩, ']' :: rest) :=
    key?_bare h (by rintro _ ⟨⟩; decide) (by simp [skipBlanks, isBlank])
  obtain ⟨c, letters, rfl, bare⟩ := exists_cons_of_isBareName h
  rw [List.cons_append] at key ⊢
  unfold expression?
  split
  · next brackets =>
    have : c = '[' := (List.cons.inj (List.cons.inj brackets).2).1
    exact absurd this (ne_of_isBare bare (by decide))
  · next s _ bracket =>
    obtain rfl : c :: (letters ++ ']' :: rest) = s := (List.cons.inj bracket).2
    simp [(skip_of_isBare bare _).1, key]
  · next noBracket => exact absurd rfl (noBracket _)

/-- An entry is read as a name with the text that its string stands for. -/
theorem expression?_entry {before after string : List Char} (h : isBareName name = true)
    (spaceBefore : isSpace before = true) (spaceAfter : isSpace after = true)
    (standsFor : IsString string text) (rest : List Char) :
    expression? (name ++ (before ++ '=' :: (after ++ (string ++ '\n' :: rest)))) =
      some (.entry ⟨[], String.ofList name⟩ (.string (String.ofList text)), '\n' :: rest) := by
  have equals (s : List Char) : skipBlanks (before ++ '=' :: s) = '=' :: s := by
    rw [skipBlanks_append spaceBefore]
    simp [skipBlanks, isBlank]
  have key : key? (name ++ (before ++ '=' :: (after ++ (string ++ '\n' :: rest)))) =
      some (⟨[], String.ofList name⟩, '=' :: (after ++ (string ++ '\n' :: rest))) := by
    rw [key?_bare h (stop_of_isSpace spaceBefore _) (by simp [equals]), equals]
  have value : value? (skipBlanks (after ++ (string ++ '\n' :: rest))) =
      some (.string (String.ofList text), '\n' :: rest) := by
    rw [skipBlanks_append spaceAfter, standsFor.skipBlanks, standsFor.value?]
  obtain ⟨c, letters, rfl, bare⟩ := exists_cons_of_isBareName h
  have noBracket : c ≠ '[' := ne_of_isBare bare (by decide)
  rw [List.cons_append] at key ⊢
  unfold expression?
  split
  · next brackets => exact absurd (List.cons.inj brackets).1 noBracket
  · next bracket => exact absurd (List.cons.inj bracket).1 noBracket
  · rw [key]
    simp [value]

/-! ## The beginning of a document -/

theorem expressionsUpTo?_nil (limit : Nat) : expressionsUpTo? limit [] = some [] := by
  rw [expressionsUpTo?]
  rfl

/-- An empty line counts for nothing. -/
theorem expressionsUpTo?_emptyLine (limit : Nat) (s : List Char) :
    expressionsUpTo? limit ('\n' :: s) = expressionsUpTo? limit s := by
  rw [expressionsUpTo?, expressionsUpTo?, skipSpace]

/-- A line is read before the lines after it, and takes one from the limit. -/
theorem expressionsUpTo?_line {limit : Nat} {s : List Char} {expression : Expression}
    (start : skipSpace false s = some s) (read : expression? s = some (expression, '\n' :: rest)) :
    expressionsUpTo? (limit + 1) s = (expressionsUpTo? limit rest).map (expression :: ·) := by
  have ending : lineEnd ('\n' :: rest) = some rest := by simp [lineEnd, skipBlanks, isBlank]
  cases s with
  | nil => cases read
  | cons c line =>
    rw [expressionsUpTo?, start]
    simp only [Option.bind_eq_bind, Option.bind_some, read, ending]
    cases expressionsUpTo? limit rest <;> rfl

/-! ## Whole documents -/

/-- The entry that gives a name a text. -/
def entryOf (text : String × String) : Expression :=
  .entry ⟨[], text.1⟩ (.string text.2)

/-- The headers and entries of a sheet. -/
def expressionsOf (sheet : Sheet) : List Expression :=
  sheet.flatMap fun (header, texts) => .table ⟨[], header⟩ :: texts.map entryOf

/-- The lines below a header are read before the rest. -/
theorem EntryLines.expressionsUpTo? {lines : List Char} {texts : List (String × String)}
    (h : EntryLines lines texts) (limit : Nat) (rest : List Char) :
    expressionsUpTo? (limit + texts.length) (lines ++ rest) =
      (expressionsUpTo? limit rest).map (texts.map entryOf ++ ·) := by
  induction h with
  | nil => simp
  | emptyLine _ ih => rw [List.cons_append, expressionsUpTo?_emptyLine, ih]
  | @entry name before after string text lines texts bare spaceBefore spaceAfter standsFor _ _ ih =>
    have read := expression?_entry bare spaceBefore spaceAfter standsFor (lines ++ rest)
    have start : skipSpace false
        (name ++ (before ++ '=' :: (after ++ (string ++ '\n' :: (lines ++ rest))))) =
        some (name ++ (before ++ '=' :: (after ++ (string ++ '\n' :: (lines ++ rest))))) := by
      obtain ⟨c, letters, rfl, bareFirst⟩ := exists_cons_of_isBareName bare
      exact (skip_of_isBare bareFirst _).2
    simp only [List.append_assoc, List.cons_append, List.length_cons, ← Nat.add_assoc] at *
    rw [expressionsUpTo?_line start read, ih, Option.map_map]
    rfl

/-- A document is read as the headers and entries that it describes. -/
theorem Describes.expressionsUpTo? {document : List Char} {sheet : Sheet}
    (h : Describes document sheet) (limit : Nat) :
    expressionsUpTo? (limit + (expressionsOf sheet).length) document =
      some (expressionsOf sheet) := by
  induction h with
  | nil => exact expressionsUpTo?_nil _
  | emptyLine _ ih => rw [expressionsUpTo?_emptyLine, ih]
  | @part header lines document texts sheet bare entries _ _ ih =>
    have read := expression?_header bare ('\n' :: (lines ++ document))
    have size : limit + (expressionsOf ((String.ofList header, texts) :: sheet)).length =
        limit + (expressionsOf sheet).length + texts.length + 1 := by
      simp [expressionsOf]
      omega
    rw [size, expressionsUpTo?_line (by simp [skipSpace, isBlank]) read,
      entries.expressionsUpTo?, ih]
    simp [expressionsOf]

/-- A document has a character for each header and each entry. -/
theorem Describes.length_le {document : List Char} {sheet : Sheet}
    (h : Describes document sheet) : (expressionsOf sheet).length ≤ document.length := by
  have below {lines : List Char} {texts : List (String × String)} (h : EntryLines lines texts) :
      texts.length ≤ lines.length := by
    induction h with
    | nil => exact Nat.le_refl _
    | emptyLine _ ih => exact Nat.le_succ_of_le ih
    | entry _ _ _ _ _ _ ih =>
      simp only [List.length_cons, List.length_append]
      omega
  induction h with
  | nil => exact Nat.le_refl _
  | emptyLine _ ih => exact Nat.le_succ_of_le ih
  | part _ entries _ _ ih =>
    have := below entries
    simp only [expressionsOf, List.flatMap_cons, List.length_append, List.length_cons,
      List.length_map] at ih ⊢
    omega

/-- **Documents are read.**  The lines of a document are those of the sheet that it
describes. -/
theorem Describes.expressions? {document : List Char} {sheet : Sheet}
    (h : Describes document sheet) : expressions? document = some (expressionsOf sheet) := by
  have noMark : document.head? ≠ some '\uFEFF' := by cases h <;> simp
  obtain ⟨limit, long⟩ := Nat.exists_eq_add_of_le' h.length_le
  rw [Toml.expressions?, if_neg noMark, long]
  exact h.expressionsUpTo? limit

end PlayStation.Toml

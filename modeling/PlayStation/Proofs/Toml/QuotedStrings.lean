import PlayStation.Proofs.Toml.Grammar
import PlayStation.Toml.Quoting

/-!
# Strings read and written

A string of the grammar is read as the text that it stands for (`IsString.quoted?`), and what
is written for a text is such a string, whatever its characters are (`isString_quote`).

The four forms share one argument.  Reading a body that spells a text gives the text
(`Form.text?_of_spells`), by induction on what it spells.  So it is left to show that a
literal text spells itself and that escaping a text spells it.
-/

namespace PlayStation.Toml

/-! ## Escapes -/

/-- The character of a code point is found again. -/
theorem charOfNat?_toNat (c : Char) : Text.charOfNat? c.toNat = some c := by
  have valid : c.toNat.isValidChar := c.valid
  simp [Text.charOfNat?, valid, Char.ofNat_toNat]

/-- Digits write a code point whatever follows them. -/
theorem codePoint?_append {digits : List Char} {c : Char} {count : Nat}
    (size : digits.length = count) (number : Text.hexNumber? digits = some c.toNat)
    (rest : List Char) : codePoint? count (digits ++ rest) = some c := by
  subst size
  simp [codePoint?, number, charOfNat?_toNat]

/-- An escape is read as the character that it stands for. -/
theorem Escape.read {piece : List Char} {c : Char} (h : Escape piece c) (rest : List Char) :
    escape? (piece ++ rest) = some (c, piece.length) := by
  cases h with
  | short four number => simp [escape?, codePoint?_append four number, four]
  | long eight number => simp [escape?, codePoint?_append eight number, eight]
  | _ => rfl

namespace Form

variable {f : Form} {body text rest : List Char} {c : Char}

/-- There are two quotation marks. -/
theorem quote_cases (f : Form) : f.quote = '"' ∨ f.quote = '\'' := by
  cases h : f.escapes <;> simp [quote, h]

/-- Neither of them is the character that begins an escape. -/
theorem quote_ne_backslash (f : Form) : f.quote ≠ '\\' := by
  rcases f.quote_cases with h | h <;> simp [h]

/-- A string has at least one mark on each side. -/
theorem width_pos (f : Form) : 0 < f.width := by
  unfold width
  split <;> decide

/-! ## Closing quotes -/

/-- There are `n` marks in a row if the text begins with `n` of them. -/
theorem le_run_iff {q : Char} {n limit : Nat} (h : n ≤ limit) (s : List Char) :
    n ≤ ((s.take limit).takeWhile (· = q)).length ↔ List.replicate n q <+: s := by
  induction s generalizing n limit with
  | nil => simp
  | cons c s ih =>
    match n, limit with
    | 0, _ => simp
    | n + 1, limit + 1 =>
      by_cases hc : c = q
      · simp [hc, List.replicate_succ, ih (Nat.le_of_succ_le_succ h)]
      · simp [hc, Ne.symm hc, List.replicate_succ]

/-- A string goes on where its delimiter does not stand. -/
theorem closing?_eq_none_iff {s : List Char} : f.closing? s = none ↔ ¬ f.delimiter <+: s := by
  have window : f.width ≤ 2 * f.width - 1 := by
    have := f.width_pos
    omega
  simp [closing?, delimiter, ← le_run_iff window]

/-- Quotes that are too few to close the string belong to the text. -/
theorem closing?_quotes {count : Nat} (few : count < f.width)
    (after : rest.head? ≠ some f.quote) :
    f.closing? (List.replicate count f.quote ++ (f.delimiter ++ rest)) =
      some (List.replicate count f.quote, rest) := by
  have stop (n : Nat) : (rest.take n).takeWhile (· = f.quote) = [] := by
    cases rest <;> cases n <;> simp_all
  have run : ((List.replicate (count + f.width) f.quote ++ rest).take (2 * f.width - 1)).takeWhile
      (· = f.quote) = List.replicate (count + f.width) f.quote := by
    rw [List.take_append, List.take_of_length_le (by simp; omega),
      List.takeWhile_append_of_pos (by simp [List.mem_replicate]), stop, List.append_nil]
  rw [closing?, delimiter, ← List.append_assoc, List.replicate_append_replicate, run]
  simp

/-- Another character in the body keeps the quotes before it from closing the string. -/
theorem closing?_append_eq_none (isOpen : ¬ f.delimiter <+: body) (mem : c ∈ body)
    (other : c ≠ f.quote) (s : List Char) : f.closing? (body ++ s) = none := by
  refine closing?_eq_none_iff.2 fun closes => ?_
  rcases List.prefix_or_prefix_of_prefix closes (List.prefix_append body s) with early | short
  · exact isOpen early
  · exact other (List.eq_of_mem_replicate (short.subset mem))

/-! ## Reading a body -/

/-- The reader takes a piece that stands for a character as that character. -/
theorem text?_token {piece s : List Char} (token : f.Token piece c)
    (isOpen : f.closing? (piece ++ s) = none) :
    f.text? (piece ++ s) = prepend c (f.text? s) := by
  cases token with
  | plain shown literal =>
    simp only [List.cons_append, List.nil_append] at isOpen ⊢
    have noEscape : ¬ (c = '\\' ∧ f.escapes = true) := fun ⟨hc, he⟩ => by simp [literal hc] at he
    have noReturn : c ≠ '\r' := by
      rintro rfl
      rcases shown with h | ⟨h, -⟩ <;> revert h <;> decide
    rw [text?, isOpen]
    rcases shown with h | h <;> simp [noEscape, noReturn, h]
  | escape escapes standsFor =>
    simp only [List.cons_append] at isOpen ⊢
    rw [text?, isOpen]
    simp [escapes, standsFor.read]

/-- A body does not begin with its own delimiter. -/
theorem Spells.isOpen (h : f.Spells body text) : ¬ f.delimiter <+: body := by
  cases h with
  | nil => simpa [delimiter] using Nat.ne_of_gt f.width_pos
  | cons _ isOpen _ => exact isOpen

/-- A body of quotes stands for itself. -/
theorem Spells.eq_of_quotes (h : f.Spells body text) (quotes : ∀ c ∈ body, c = f.quote) :
    text = body := by
  induction h with
  | nil => rfl
  | cons token _ _ ih =>
    cases token with
    | plain =>
      rw [ih fun c hc => quotes c (List.mem_append_right _ hc)]
      rfl
    | escape => exact absurd (quotes '\\' (by simp)).symm f.quote_ne_backslash

/-- A body of marks only is read up to the last delimiter. -/
theorem text?_of_quotes (h : f.Spells body text) (quotes : ∀ c ∈ body, c = f.quote)
    (after : rest.head? ≠ some f.quote) :
    f.text? (body ++ (f.delimiter ++ rest)) = some (text, rest) := by
  obtain rfl := h.eq_of_quotes quotes
  obtain ⟨count, rfl⟩ : ∃ count, text = List.replicate count f.quote :=
    ⟨_, List.eq_replicate_of_mem quotes⟩
  have few : count < f.width := by
    simpa [delimiter, List.prefix_replicate_iff] using h.isOpen
  rw [text?.eq_def, closing?_quotes few after]

/-- **The reader reads what a body spells,** whatever stands behind the string. -/
theorem text?_of_spells (h : f.Spells body text) (after : rest.head? ≠ some f.quote) :
    f.text? (body ++ (f.delimiter ++ rest)) = some (text, rest) := by
  induction h with
  | nil => exact text?_of_quotes .nil (by simp) after
  | @cons piece body text c token isOpen later ih =>
    by_cases quotes : ∀ c ∈ piece ++ body, c = f.quote
    · exact text?_of_quotes (.cons token isOpen later) quotes after
    · obtain ⟨other, mem, ne⟩ : ∃ c ∈ piece ++ body, c ≠ f.quote := by simpa using quotes
      have notClosed := closing?_append_eq_none isOpen mem ne (f.delimiter ++ rest)
      rw [List.append_assoc] at notClosed ⊢
      rw [text?_token token notClosed, ih]
      rfl

/-! ## Writing a body -/

/-- A digit that is written is read back. -/
theorem hexValue?_hexDigit : ∀ n < 16, Text.hexValue? (Text.hexDigit n) = some n := by
  decide

/-- A character that needs no escape may stand in a string as it is. -/
theorem isPrintable_of_not_needsEscape (h : needsEscape c = false) (line : c ≠ '\n') :
    isPrintable c = true := by
  simpa [needsEscape, line] using h

/-- Only characters of the first page are written by their code point. -/
theorem toNat_lt_of_needsEscape (h : needsEscape c = true) : c.toNat < 256 := by
  have outside : ¬ '\x20' ≤ c ∨ c = '\x7f' := by
    simp only [needsEscape, isPrintable, Bool.not_eq_true', Bool.or_eq_false_iff,
      Bool.and_eq_false_iff, decide_eq_false_iff_not, decide_not] at h
    simpa using h.1.2
  rcases outside with control | rfl
  · have : c.toNat < 0x20 := by simpa [Char.le_def, UInt32.le_iff_toNat_le] using control
    omega
  · decide

/-- Two digits write a code point of the first page. -/
theorem hexNumber?_hexDigit (h : c.toNat < 256) :
    Text.hexNumber? ['0', '0', Text.hexDigit (c.toNat / 16), Text.hexDigit (c.toNat % 16)] =
      some c.toNat := by
  have high := hexValue?_hexDigit (c.toNat / 16) (by omega)
  have low := hexValue?_hexDigit (c.toNat % 16) (by omega)
  have zero : Text.hexValue? '0' = some 0 := by decide
  have number : 16 * (c.toNat / 16) + c.toNat % 16 = c.toNat := Nat.div_add_mod _ _
  simp [Text.hexNumber?, zero, high, low, number]

/-- A character stands in a basic string as it is written there. -/
theorem token_escaped (escapes : f.escapes = true) (c : Char) : f.Token (escaped c) c := by
  unfold escaped
  split
  · next h => exact h ▸ .escape escapes .backspace
  split
  · next h => exact h ▸ .escape escapes .tab
  split
  · next h => exact h ▸ .escape escapes .lineFeed
  split
  · next h => exact h ▸ .escape escapes .formFeed
  split
  · next h => exact h ▸ .escape escapes .carriageReturn
  split
  · next h => exact h ▸ .escape escapes .backslash
  split
  · next h =>
    exact .escape escapes (.short rfl (hexNumber?_hexDigit (toNat_lt_of_needsEscape h)))
  · next line _ _ backslash h =>
    exact .plain (.inl (isPrintable_of_not_needsEscape (by simpa using h) line))
      (absurd · backslash)

/-- What stands for another character does not begin with the mark. -/
theorem head?_escaped (other : c ≠ '"') (s : List Char) : (escaped c ++ s).head? ≠ some '"' := by
  unfold escaped
  repeat' split
  all_goals simp [other]

/-- A text that does not begin with a mark does not begin with several. -/
theorem not_prefix_of_head? {q : Char} {n : Nat} {s : List Char} (pos : 0 < n)
    (head : s.head? ≠ some q) : ¬ List.replicate n q <+: s := by
  obtain ⟨n, rfl⟩ := Nat.exists_eq_succ_of_ne_zero (Nat.ne_of_gt pos)
  rintro ⟨rest, rfl⟩
  simp [List.replicate_succ] at head

/-- `run` quotes and those that follow without an escape are together too few to close the
string. -/
theorem not_prefix_escapeText {run : Nat} (few : run < f.width) (text : List Char) :
    ¬ List.replicate (f.width - run) '"' <+: f.escapeText run text := by
  fun_induction f.escapeText run text with
  | case1 => simp; omega
  | case2 run text more ih =>
    rw [show f.width - run = f.width - (run + 1) + 1 by omega, List.replicate_succ,
      List.prefix_cons_inj]
    exact ih more
  | case6 run c text other => exact not_prefix_of_head? (by omega) (head?_escaped other _)
  | _ => exact not_prefix_of_head? (by omega) (by simp)

/-- Escaping a text spells it. -/
theorem spells_escapeText (escapes : f.escapes = true) {run : Nat} (few : run < f.width)
    (text : List Char) : f.Spells (f.escapeText run text) text := by
  have isOpen {run : Nat} (few : run < f.width) (text : List Char) :
      ¬ f.delimiter <+: f.escapeText run text := by
    refine fun closes => not_prefix_escapeText few text (.trans ?_ closes)
    simp [delimiter, quote, escapes, List.prefix_replicate_iff]
  fun_induction f.escapeText run text with
  | case1 => exact .nil
  | case2 run text more ih =>
    have isOpen := isOpen few ('"' :: text)
    rw [escapeText, if_pos more] at isOpen
    exact .cons (.plain (.inl rfl) (absurd · (by decide))) isOpen (ih more)
  | case3 run text full ih =>
    have isOpen := isOpen few ('"' :: text)
    rw [escapeText, if_neg full] at isOpen
    exact .cons (.escape escapes .quote) isOpen (ih f.width_pos)
  | case4 run text lines ih =>
    have isOpen := isOpen few ('\n' :: text)
    rw [escapeText, if_pos lines] at isOpen
    exact .cons (.plain (.inr ⟨rfl, lines⟩) (absurd · (by decide))) isOpen (ih f.width_pos)
  | case5 run text line ih =>
    have isOpen := isOpen few ('\n' :: text)
    rw [escapeText, if_neg line] at isOpen
    exact .cons (.escape escapes .lineFeed) isOpen (ih f.width_pos)
  | case6 run c text noQuote noBreak ih =>
    have isOpen := isOpen few (c :: text)
    rw [escapeText.eq_4 _ _ _ _ noQuote noBreak] at isOpen
    exact .cons (token_escaped escapes c) isOpen (ih f.width_pos)

/-- The form can show a text as it is if nothing in it needs an escape or would end the string. -/
theorem shows_iff : f.shows text = true ↔ (∀ c ∈ text, needsEscape c = false) ∧
    ¬ f.delimiter <:+: text ∧ (f.escapes = true → '\\' ∉ text) ∧
      ('\n' ∈ text → f.multiline = true) := by
  simp [shows, fitsQuotes, ← Text.occursIn_iff, and_assoc, Decidable.imp_iff_not_or, Or.comm]

/-- A text that needs no escapes spells itself in a form without them. -/
theorem spells_self (escapes : f.escapes = false) (h : f.shows text = true) :
    f.Spells text text := by
  obtain ⟨shown, fits, -, lines⟩ := shows_iff.1 h
  clear h
  induction text with
  | nil => exact .nil
  | cons c text ih =>
    have token : f.Token [c] c := by
      refine .plain ?_ fun _ => escapes
      by_cases line : c = '\n'
      · exact .inr ⟨line, lines (by simp [line])⟩
      · exact .inl (isPrintable_of_not_needsEscape (shown c (by simp)) line)
    refine .cons token (fun closes => fits closes.isInfix) (ih ?_ ?_ ?_)
    · exact fun c mem => shown c (List.mem_cons_of_mem _ mem)
    · exact fun inside => fits (inside.trans (List.suffix_cons c text).isInfix)
    · exact fun mem => lines (List.mem_cons_of_mem _ mem)

end Form

/-! ## Strings -/

/-- The form in which a text is written shows it, or has escapes. -/
theorem Form.ofText_cases (text : List Char) :
    (Form.ofText text).shows text = true ∨ (Form.ofText text).escapes = true := by
  simp only [ofText]
  cases found : List.find? (fun f : Form => f.shows text)
    [⟨true, false⟩, ⟨false, false⟩, ⟨true, true⟩, ⟨false, true⟩] with
  | none => exact .inr rfl
  | some f => exact .inl (List.find?_some (p := fun f : Form => f.shows text) found)

variable {f : Form} {body text rest : List Char}

/-- After three marks a string over several lines begins, without its first line break. -/
theorem quoted?_multiline (lines : f.multiline = true) (s : List Char) :
    quoted? (f.delimiter ++ s) = f.text? (skipLineBreak s) := by
  obtain ⟨escapes, _⟩ := f
  subst lines
  cases escapes <;> rfl

/-- After one mark that no two follow, a string of one line begins. -/
theorem quoted?_singleLine (line : f.multiline = false) {s : List Char}
    (short : ¬ [f.quote, f.quote] <+: s) : quoted? (f.delimiter ++ s) = f.text? s := by
  obtain ⟨escapes, _⟩ := f
  subst line
  cases escapes with
  | true =>
    show quoted? ('"' :: s) = _
    unfold quoted?
    split
    · next h => exact absurd ⟨_, (List.cons.inj h).2.symm⟩ short
    · next h => simp at h
    · rfl
  | false =>
    show quoted? ('\'' :: s) = _
    unfold quoted?
    split
    · next h => simp at h
    · next h => exact absurd ⟨_, (List.cons.inj h).2.symm⟩ short
    · rfl

/-- A delimiter begins with its mark. -/
theorem Form.head?_delimiter_append (s : List Char) :
    (f.delimiter ++ s).head? = some f.quote := by
  obtain ⟨n, h⟩ := Nat.exists_eq_succ_of_ne_zero (Nat.ne_of_gt f.width_pos)
  simp [delimiter, h, List.replicate_succ]

/-- Only a line break that comes first is left out. -/
theorem skipLineBreak_of_head? {s : List Char} (feed : s.head? ≠ some '\n')
    (noReturn : s.head? ≠ some '\r') : skipLineBreak s = s := by
  unfold skipLineBreak
  split <;> simp_all

/-- A carriage return stands in a body as an escape only. -/
theorem Form.Spells.head?_ne_return (h : f.Spells body text) : body.head? ≠ some '\r' := by
  cases h with
  | nil => simp
  | cons token _ _ =>
    cases token with
    | plain shown _ =>
      rintro ⟨⟩
      rcases shown with printable | ⟨feed, -⟩
      · exact absurd printable (by decide)
      · exact absurd feed (by decide)
    | escape => simp

/-- A body that does not begin with a line break is read from its beginning on. -/
theorem Form.Spells.skipLineBreak_eq (h : f.Spells body text) (noBreak : body.head? ≠ some '\n')
    (s : List Char) : skipLineBreak (body ++ (f.delimiter ++ s)) = body ++ (f.delimiter ++ s) := by
  have start (c : Char) (other : body.head? ≠ some c) (noQuote : f.quote ≠ c) :
      (body ++ (f.delimiter ++ s)).head? ≠ some c := by
    cases body with
    | nil =>
      rw [List.nil_append, head?_delimiter_append]
      simpa using noQuote
    | cons => exact other
  apply skipLineBreak_of_head?
  · exact start '\n' noBreak (by rcases f.quote_cases with h | h <;> simp [h])
  · exact start '\r' h.head?_ne_return (by rcases f.quote_cases with h | h <;> simp [h])

/-- A body on one line does not make the opening quotes longer. -/
theorem Form.Spells.short (h : f.Spells body text) (line : f.multiline = false)
    (after : rest.head? ≠ some f.quote) :
    ¬ [f.quote, f.quote] <+: body ++ (f.delimiter ++ rest) := by
  have delimiter_eq : f.delimiter = [f.quote] := by simp [delimiter, width, line]
  intro twice
  cases body with
  | nil =>
    rw [delimiter_eq, List.nil_append, List.singleton_append, List.prefix_cons_inj] at twice
    obtain ⟨_, rfl⟩ := twice
    exact after rfl
  | cons c body =>
    have once : f.delimiter <+: c :: body ++ (f.delimiter ++ rest) := by
      rw [delimiter_eq] at twice ⊢
      exact .trans ⟨[f.quote], rfl⟩ twice
    exact h.isOpen (List.prefix_of_prefix_length_le once (List.prefix_append _ _)
      (by simp [delimiter_eq]))

/-- **Strings are read.**  A string is read as the text that it stands for, whatever follows
it but a quote. -/
theorem IsString.quoted? {string : List Char} (h : IsString string text)
    (basic : rest.head? ≠ some '"') (literal : rest.head? ≠ some '\'') :
    quoted? (string ++ rest) = some (text, rest) := by
  have after (f : Form) : rest.head? ≠ some f.quote := by
    rcases f.quote_cases with h | h <;> rwa [h]
  cases h with
  | @sameLine f body _ spells noBreak =>
    have read := Form.text?_of_spells spells (after f)
    simp only [List.append_assoc]
    cases form : f.multiline with
    | false => rw [quoted?_singleLine form (spells.short form (after f)), read]
    | true => rw [quoted?_multiline form, spells.skipLineBreak_eq (noBreak form), read]
  | @nextLine f body _ spells lines =>
    have read := Form.text?_of_spells spells (after f)
    simp only [List.append_assoc, List.cons_append]
    rw [quoted?_multiline lines, skipLineBreak, read]

/-- A body that begins with a line break spells one. -/
theorem Form.Spells.lineBreak_mem (h : f.Spells body text) (first : body.head? = some '\n') :
    '\n' ∈ text := by
  cases h with
  | nil => cases first
  | cons token _ _ =>
    cases token with
    | plain =>
      obtain rfl := Option.some.inj first
      exact List.mem_cons_self
    | escape => cases first

/-- **Strings are written.**  What is written for a text is a string that stands for it. -/
theorem isString_quote (text : List Char) : IsString (quote text) text := by
  have spells : (Form.ofText text).Spells
      (if (Form.ofText text).escapes then (Form.ofText text).escapeText 0 text else text) text := by
    split
    · next escapes => exact Form.spells_escapeText escapes (Form.width_pos _) text
    · next escapes =>
      have shows := (Form.ofText_cases text).resolve_right escapes
      exact Form.spells_self (by simpa using escapes) shows
  unfold quote
  simp only [List.append_assoc]
  split
  · next lines =>
    simp only [Bool.and_eq_true] at lines
    exact .nextLine spells lines.1
  · next oneLine =>
    refine .sameLine spells fun lines first => oneLine ?_
    simpa [lines] using spells.lineBreak_mem first

end PlayStation.Toml

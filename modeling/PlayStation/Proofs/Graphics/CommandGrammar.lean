import PlayStation.Graphics.Control
import PlayStation.Proofs.Bits

/-!
# The grammar of command words

The first word of a command has its opcode, and the opcode tells how long the
command is (`lengthOf?`), save that an upload brings as many pixel words as its
third word asks for.  A command ends with the first word that makes it complete
(`isComplete`, `IsCommand`).

* `IsCommand.spans` — a command is as long as its length says;
* `lengthOf?_of_length?`, `lengthOf?_of_unhandled` — the lengths of commands by
  what they do.
-/

namespace PlayStation

/-- The opcode in the first word of a command. -/
def opcodeOf (word : UInt32) : UInt8 :=
  (word >>> 24).toUInt8

/-- The opcode is a byte. -/
theorem toNat_opcode (word : UInt32) : (word >>> 24).toNat = (opcodeOf word).toNat := by
  have hlt : (word >>> 24).toNat < 256 := by
    rw [UInt32.toNat_shiftRight]
    have hword := word.toNat_lt
    simp [Nat.shiftRight_eq_div_pow]
    omega
  rw [opcodeOf, UInt32.toNat_toUInt8, Nat.mod_eq_of_lt hlt]

/-- The length of the command that the first word starts, as soon as its words
tell: an upload brings the pixel words that its third word asks for, a download
takes three words, and the others have the length of their opcode. -/
def lengthOf? : List UInt32 → Option CommandLength
  | [] => none
  | first :: arguments =>
      if opcodeOf first = 0xA0 then
        match arguments with
        | position :: size :: _ =>
            some (.fixed (3 + (Transfer.ofWords position size).wordCount))
        | _ => none
      else if opcodeOf first = 0xC0 then some (.fixed 3)
      else some (.ofOpcode (opcodeOf first))

/-- Whether a command of the given length ends within its words so far. -/
def CommandLength.reachedBy (words : List UInt32) : CommandLength → Bool
  | fixed count => count ≤ words.length
  | polyline first => (words.drop first).any isEndMark

/-- Whether the command that the first word starts ends within the words. -/
def isComplete (words : List UInt32) : Bool :=
  match lengthOf? words with
  | some length => length.reachedBy words
  | none => false

/-- Words that are one command: its last word is the first to complete it. -/
def IsCommand (words : List UInt32) : Prop :=
  isComplete words = true ∧ isComplete words.dropLast = false

/-- Whether words are as many as a command of the given length has: a polyline ends with the
first end mark behind the words that every polyline has. -/
def CommandLength.Spans (words : List UInt32) : CommandLength → Prop
  | fixed count => words.length = count
  | polyline first => ∃ init mark, words = init ++ [mark] ∧ first ≤ init.length ∧
      isEndMark mark = true ∧ ∀ word ∈ init.drop first, isEndMark word = false

/-! ## Lengths that are known -/

/-- The length of an upload follows from its header. -/
theorem lengthOf?_of_upload {first position size : UInt32} (h : opcodeOf first = 0xA0)
    (data : List UInt32) :
    lengthOf? (first :: position :: size :: data) =
      some (.fixed (3 + (Transfer.ofWords position size).wordCount)) := by
  simp only [lengthOf?, if_pos h]

/-- Before the header is complete the length of an upload is open. -/
theorem lengthOf?_of_short_upload {first : UInt32} (h : opcodeOf first = 0xA0)
    {arguments : List UInt32} (hshort : arguments.length < 2) :
    lengthOf? (first :: arguments) = none := by
  rcases arguments with _ | ⟨position, _ | ⟨size, data⟩⟩
  · simp only [lengthOf?, if_pos h]
  · simp only [lengthOf?, if_pos h]
  · simp only [List.length_cons] at hshort
    omega

/-- A download has three words. -/
theorem lengthOf?_of_download {first : UInt32} (h : opcodeOf first = 0xC0)
    (arguments : List UInt32) : lengthOf? (first :: arguments) = some (.fixed 3) := by
  have hupload : opcodeOf first ≠ 0xA0 := by
    rw [h]
    decide
  simp only [lengthOf?, if_neg hupload, if_pos h]

/-- For all other commands the table tells the length from the opcode. -/
theorem lengthOf?_of_other {first : UInt32} (hupload : opcodeOf first ≠ 0xA0)
    (hdownload : opcodeOf first ≠ 0xC0) (arguments : List UInt32) :
    lengthOf? (first :: arguments) = some (.ofOpcode (opcodeOf first)) := by
  simp only [lengthOf?, if_neg hupload, if_neg hdownload]

/-- A length that is known stays the same. -/
theorem lengthOf?_append {words : List UInt32} {length : CommandLength}
    (h : lengthOf? words = some length) (more : List UInt32) :
    lengthOf? (words ++ more) = some length := by
  obtain _ | ⟨first, arguments⟩ := words
  · cases h
  · by_cases hupload : opcodeOf first = 0xA0
    · obtain _ | ⟨position, _ | ⟨size, data⟩⟩ := arguments
      · cases (lengthOf?_of_short_upload hupload (by decide)).symm.trans h
      · cases (lengthOf?_of_short_upload hupload (by simp)).symm.trans h
      · rw [lengthOf?_of_upload hupload] at h
        exact (lengthOf?_of_upload hupload _).trans h
    · by_cases hdownload : opcodeOf first = 0xC0
      · rw [lengthOf?_of_download hdownload] at h
        exact (lengthOf?_of_download hdownload _).trans h
      · rw [lengthOf?_of_other hupload hdownload] at h
        exact (lengthOf?_of_other hupload hdownload _).trans h

/-- Behind words that do not reach the end of a command, whether the next word ends
it can be told from that word and its number. -/
theorem CommandLength.reachedBy_concat {length : CommandLength} {words : List UInt32}
    (h : words = [] ∨ length.reachedBy words = false) (word : UInt32) :
    length.reachedBy (words ++ [word]) = length.endsAt (words.length + 1) word := by
  cases length with
  | fixed count => simp only [reachedBy, endsAt, List.length_append, List.length_singleton]
  | polyline first =>
      have hnone : (words.drop first).any isEndMark = false := by
        rcases h with rfl | h
        · rw [List.drop_nil]; rfl
        · exact h
      simp only [reachedBy, endsAt, List.drop_append, List.any_append, hnone, Bool.false_or]
      by_cases hfirst : first < words.length + 1
      · rw [Nat.sub_eq_zero_of_le (Nat.le_of_lt_succ hfirst), List.drop_zero]
        simp [hfirst]
      · rw [List.drop_eq_nil_of_le (by rw [List.length_singleton]; omega)]
        simp [hfirst]

/-- A command of a known length is complete once its words reach it. -/
theorem isComplete_of_lengthOf? {words : List UInt32} {length : CommandLength}
    (h : lengthOf? words = some length) : isComplete words = length.reachedBy words := by
  rw [isComplete, h]

/-! ## The words of a command -/

set_option maxRecDepth 2000 in
/-- No command of the table is without words. -/
theorem CommandLength.ofOpcode_ne_zero (opcode : UInt8) : ofOpcode opcode ≠ .fixed 0 := by
  revert opcode
  exact Bits.forall_byte (by decide)

/-- Every command has a word. -/
theorem pos_of_lengthOf? {words : List UInt32} {count : Nat}
    (h : lengthOf? words = some (.fixed count)) : 0 < count := by
  obtain _ | ⟨first, arguments⟩ := words
  · cases h
  · by_cases hupload : opcodeOf first = 0xA0
    · obtain _ | ⟨position, _ | ⟨size, data⟩⟩ := arguments
      · cases (lengthOf?_of_short_upload hupload (by decide)).symm.trans h
      · cases (lengthOf?_of_short_upload hupload (by simp)).symm.trans h
      · cases (lengthOf?_of_upload hupload data).symm.trans h
        omega
    · by_cases hdownload : opcodeOf first = 0xC0
      · cases (lengthOf?_of_download hdownload arguments).symm.trans h
        decide
      · have hlength :=
          Option.some.inj ((lengthOf?_of_other hupload hdownload arguments).symm.trans h)
        refine Nat.pos_of_ne_zero fun hzero => ?_
        rw [hzero] at hlength
        exact CommandLength.ofOpcode_ne_zero _ hlength

/-- Without its last word a command does not reach its end. -/
theorem IsCommand.not_reachedBy_init {init : List UInt32} {last : UInt32} {length : CommandLength}
    (h : IsCommand (init ++ [last])) (hlength : lengthOf? (init ++ [last]) = some length) :
    init = [] ∨ length.reachedBy init = false := by
  have hincomplete : isComplete init = false := by
    have hdrop := h.2
    rwa [List.dropLast_concat] at hdrop
  rcases hinit : lengthOf? init with _ | known
  · obtain _ | ⟨first, arguments⟩ := init
    · exact .inl rfl
    · by_cases hupload : opcodeOf first = 0xA0
      · obtain _ | ⟨position, _ | ⟨size, data⟩⟩ := arguments
        · cases (lengthOf?_of_short_upload hupload (by simp)).symm.trans hlength
        · cases (lengthOf?_of_upload hupload []).symm.trans hlength
          refine .inr (decide_eq_false ?_)
          simp only [List.length_cons, List.length_nil]
          omega
        · cases hinit.symm.trans (lengthOf?_of_upload hupload data)
      · by_cases hdownload : opcodeOf first = 0xC0
        · cases hinit.symm.trans (lengthOf?_of_download hdownload arguments)
        · cases hinit.symm.trans (lengthOf?_of_other hupload hdownload arguments)
  · obtain rfl : known = length :=
      Option.some.inj ((lengthOf?_append hinit [last]).symm.trans hlength)
    rw [isComplete_of_lengthOf? hinit] at hincomplete
    exact .inr hincomplete

/-- **A command of fixed length is as many words.** -/
theorem IsCommand.length_eq {words : List UInt32} {count : Nat} (h : IsCommand words)
    (hlength : lengthOf? words = some (.fixed count)) : words.length = count := by
  have hreached : count ≤ words.length := by
    have hcomplete := h.1
    rw [isComplete_of_lengthOf? hlength] at hcomplete
    exact of_decide_eq_true hcomplete
  rcases List.eq_nil_or_concat words with rfl | ⟨init, last, rfl⟩
  · cases hlength
  · rw [List.concat_eq_append] at h hlength hreached ⊢
    have hpositive := pos_of_lengthOf? hlength
    rw [List.length_append, List.length_singleton] at hreached ⊢
    rcases h.not_reachedBy_init hlength with rfl | hinit
    · rw [List.length_nil] at hreached ⊢
      omega
    · have hshort := of_decide_eq_false hinit
      omega

/-- **A polyline ends with its first end mark** behind the words that every polyline
has. -/
theorem IsCommand.polyline_end {words : List UInt32} {first : Nat} (h : IsCommand words)
    (hlength : lengthOf? words = some (.polyline first)) :
    ∃ init mark, words = init ++ [mark] ∧ first ≤ init.length ∧
      CommandLength.isEndMark mark = true ∧
      ∀ word ∈ init.drop first, CommandLength.isEndMark word = false := by
  rcases List.eq_nil_or_concat words with rfl | ⟨init, mark, rfl⟩
  · cases hlength
  · rw [List.concat_eq_append] at h hlength ⊢
    have hinit := h.not_reachedBy_init hlength
    have hends := h.1
    rw [isComplete_of_lengthOf? hlength, CommandLength.reachedBy_concat hinit,
      CommandLength.endsAt, Bool.and_eq_true, decide_eq_true_eq] at hends
    refine ⟨init, mark, rfl, Nat.le_of_lt_succ hends.1, hends.2, fun word hword => ?_⟩
    rcases hinit with rfl | hnone
    · rw [List.drop_nil] at hword
      exact absurd hword List.not_mem_nil
    · exact Bool.eq_false_iff.mpr (List.any_eq_false.mp hnone word hword)

/-- **A command is as long as its length says.** -/
theorem IsCommand.spans {words : List UInt32} (h : IsCommand words) :
    ∃ length, lengthOf? words = some length ∧ length.Spans words := by
  rcases hlength : lengthOf? words with _ | length
  · have hcomplete := h.1
    rw [isComplete, hlength] at hcomplete
    cases hcomplete
  · refine ⟨length, rfl, ?_⟩
    cases length with
    | fixed count => exact h.length_eq hlength
    | polyline first => exact h.polyline_end hlength

/-! ## Lengths by what commands do -/

/-- The length of a command that is carried out as a whole. -/
def Command.length? : Command → Option CommandLength
  | polygon form => some (.fixed form.words)
  | download => some (.fixed 3)
  | clearQueue | setting | noOperation => some (.fixed 1)
  | upload | unhandled => none

set_option maxRecDepth 2000 in
/-- The length that a handler waits for is the one in the table. -/
theorem length?_ofOpcode (opcode : UInt8) :
    (Command.ofOpcode opcode).length? = none ∨
      opcode ≠ 0xA0 ∧ (Command.ofOpcode opcode).length? =
        some (if opcode = 0xC0 then .fixed 3 else CommandLength.ofOpcode opcode) := by
  revert opcode
  exact Bits.forall_byte (by decide)

set_option maxRecDepth 2000 in
/-- Uploads and downloads have one opcode each. -/
theorem ofOpcode_eq_iff (opcode : UInt8) :
    (Command.ofOpcode opcode = .upload ↔ opcode = 0xA0) ∧
      (Command.ofOpcode opcode = .download ↔ opcode = 0xC0) := by
  revert opcode
  exact Bits.forall_byte (by decide)

set_option maxRecDepth 2000 in
/-- The opcodes of no-operations. -/
theorem ofOpcode_eq_noOperation_iff (opcode : UInt8) :
    Command.ofOpcode opcode = .noOperation ↔
      opcode.toNat = 0x00 ∨ (0x04 ≤ opcode.toNat ∧ opcode.toNat ≤ 0x1E) ∨ opcode.toNat = 0xE0 ∨
        (0xE7 ≤ opcode.toNat ∧ opcode.toNat ≤ 0xEF) := by
  revert opcode
  exact Bits.forall_byte (by decide)

/-- Whether a word with this opcode takes effect at once in an idle unit. -/
def IsImmediate (opcode : UInt8) : Prop :=
  opcode = 0x00 ∨ (0x04 ≤ opcode ∧ opcode ≤ 0x1E) ∨ opcode = 0xE0 ∨ opcode = 0xE1 ∨
    (0xE3 ≤ opcode ∧ opcode ≤ 0xE5) ∨ (0xE7 ≤ opcode ∧ opcode ≤ 0xEF)

instance : DecidablePred IsImmediate := fun _ =>
  inferInstanceAs (Decidable (_ ∨ _ ∨ _ ∨ _ ∨ _ ∨ _))

set_option maxRecDepth 2000 in
/-- What takes effect at once are the no-operations and four settings. -/
theorem isImmediate_iff (opcode : UInt8) :
    IsImmediate opcode ↔ Command.ofOpcode opcode = .noOperation ∨ opcode.toNat = 0xE1 ∨
      opcode.toNat = 0xE3 ∨ opcode.toNat = 0xE4 ∨ opcode.toNat = 0xE5 := by
  revert opcode
  exact Bits.forall_byte (by decide)

set_option maxRecDepth 2000 in
/-- Only settings and no-operations take effect at once. -/
theorem ofOpcode_of_isImmediate (opcode : UInt8) :
    IsImmediate opcode →
      Command.ofOpcode opcode = .setting ∨ Command.ofOpcode opcode = .noOperation := by
  revert opcode
  exact Bits.forall_byte (by decide)

/-- The length of a command that is carried out as a whole is known from its
first word. -/
theorem lengthOf?_of_length? {first : UInt32} {command : Command} {length : CommandLength}
    (hcommand : Command.ofOpcode (opcodeOf first) = command)
    (h : command.length? = some length) (arguments : List UInt32) :
    lengthOf? (first :: arguments) = some length := by
  subst hcommand
  rcases length?_ofOpcode (opcodeOf first) with hnone | ⟨hupload, hsome⟩
  · rw [hnone] at h
    cases h
  · rw [h] at hsome
    by_cases hdownload : opcodeOf first = 0xC0
    · rw [if_pos hdownload] at hsome
      rw [lengthOf?_of_download hdownload, hsome]
    · rw [if_neg hdownload] at hsome
      rw [lengthOf?_of_other hupload hdownload, hsome]

/-- Commands without a handler have the length in the table. -/
theorem lengthOf?_of_unhandled {first : UInt32}
    (h : Command.ofOpcode (opcodeOf first) = .unhandled) (arguments : List UInt32) :
    lengthOf? (first :: arguments) = some (.ofOpcode (opcodeOf first)) := by
  obtain ⟨hupload, hdownload⟩ := ofOpcode_eq_iff (opcodeOf first)
  rw [h] at hupload hdownload
  exact lengthOf?_of_other (fun heq => nomatch hupload.mpr heq)
    (fun heq => nomatch hdownload.mpr heq) arguments

end PlayStation

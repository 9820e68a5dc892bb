import PlayStation.CommandLine.Number

/-!
# The grammar of addresses

An address is written in decimal or, after `0x` or `0X`, in hexadecimal digits.  A plus
sign may come before the digits, and underscores may stand anywhere (`IsAddress`).
`readAddress` reads exactly the addresses below 2³² that are written so
(`address_grammar`).

The reader follows the digits from left to right and stops at the first value that is too
large.  The grammar weighs each digit by its place instead (`DigitsOf`), so the two meet in
`continueNumber_eq_ok_iff`, an induction on the digits.
-/

namespace PlayStation.CommandLine

/-- The digits of a base of at most sixteen, in either case, and their values. -/
def IsDigit (base : Nat) (c : Char) (d : Nat) : Prop :=
  d < base ∧ (c = d.digitChar ∨ c = d.digitChar.toUpper)

/-- Digits of a base and the number that they write; the first one counts most. -/
inductive DigitsOf (base : Nat) : List Char → Nat → Prop
  | nil : DigitsOf base [] 0
  | cons {c : Char} {d n : Nat} {rest : List Char} (digit : IsDigit base c d)
      (later : DigitsOf base rest n) : DigitsOf base (c :: rest) (d * Nat.pow base rest.length + n)

/-- An optional plus sign and at least one digit. -/
def IsNumeral (base : Nat) (text : List Char) (n : Nat) : Prop :=
  ∃ digits, (text = digits ∨ text = '+' :: digits) ∧ digits ≠ [] ∧ DigitsOf base digits n

/-- The rest of a text that begins with the mark of a hexadecimal number. -/
def IsMarked (text rest : List Char) : Prop :=
  text = '0' :: 'x' :: rest ∨ text = '0' :: 'X' :: rest

/-- An address without its underscores, and the number that it writes. -/
def IsAddress (text : List Char) (n : Nat) : Prop :=
  (∃ rest, IsMarked text rest ∧ IsNumeral 16 rest n) ∨
    (¬ ∃ rest, IsMarked text rest) ∧ IsNumeral 10 text n

/-- A text without underscores. -/
def bare (text : String) : List Char :=
  text.toList.filter (· ≠ '_')

/-- An address as it is printed: in decimal digits, or in hexadecimal digits of either case
after their mark.  Underscores may stand anywhere. -/
def Prints (text : String) (n : Nat) : Prop :=
  bare text = Nat.toDigits 10 n ∨
    ∃ hex, IsMarked (bare text) hex ∧ hex.map Char.toLower = Nat.toDigits 16 n

/-! ## Digits -/

/-- The codes of the digits up to nine, which have no upper case of their own. -/
theorem digitChar_decimal :
    ∀ d < 10, d.digitChar.toNat = 48 + d ∧ d.digitChar.toUpper.toNat = 48 + d := by
  decide

/-- The codes of the digits from ten on, in both cases. -/
theorem digitChar_letter :
    ∀ d < 16, 10 ≤ d → d.digitChar.toNat = 87 + d ∧ d.digitChar.toUpper.toNat = 55 + d := by
  decide

/-- **The reader knows exactly the digits.** -/
theorem digit?_eq_some_iff {base d : Nat} {c : Char} (hbase : base ≤ 16) :
    digit? base c = some d ↔ IsDigit base c d := by
  have hdecimal : ('0' ≤ c ∧ c ≤ '9') ↔ (48 ≤ c.toNat ∧ c.toNat ≤ 57) := Iff.rfl
  have hlower : ('a' ≤ c ∧ c ≤ 'f') ↔ (97 ≤ c.toNat ∧ c.toNat ≤ 102) := Iff.rfl
  have hupper : ('A' ≤ c ∧ c ≤ 'F') ↔ (65 ≤ c.toNat ∧ c.toNat ≤ 70) := Iff.rfl
  unfold digit? IsDigit
  rw [← Char.toNat_inj, ← Char.toNat_inj]
  simp only [hdecimal, hlower, hupper, Option.ite_none_right_eq_some, Option.some.injEq]
  by_cases hten : d < 10
  · rw [(digitChar_decimal d hten).1, (digitChar_decimal d hten).2]
    grind
  · by_cases hletter : d < 16
    · obtain ⟨hlow, hup⟩ := digitChar_letter d hletter (by omega)
      rw [hlow, hup]
      grind
    · grind

/-- What has no value is no digit. -/
theorem digit?_eq_none_iff {base : Nat} {c : Char} (hbase : base ≤ 16) :
    digit? base c = none ↔ ∀ d, ¬ IsDigit base c d := by
  rw [Option.eq_none_iff_forall_ne_some]
  exact forall_congr' fun d => not_congr (digit?_eq_some_iff hbase)

/-- A character is a digit of one value only. -/
theorem IsDigit.unique {base d d' : Nat} {c : Char} (hbase : base ≤ 16) (h : IsDigit base c d)
    (h' : IsDigit base c d') : d = d' :=
  Option.some.inj
    (((digit?_eq_some_iff hbase).mpr h).symm.trans ((digit?_eq_some_iff hbase).mpr h'))

/-- A plus sign is no digit. -/
theorem not_isDigit_plus {base d : Nat} (hbase : base ≤ 16) : ¬ IsDigit base '+' d := by
  have hnone : digit? base '+' = none := by
    unfold digit?
    simp
  exact (digit?_eq_none_iff hbase).mp hnone d

/-! ## Numbers -/

/-- The first of a row of digits counts for a power of the base. -/
theorem DigitsOf.cons_iff {base n : Nat} {c : Char} {rest : List Char} :
    DigitsOf base (c :: rest) n ↔
      ∃ d m, IsDigit base c d ∧ DigitsOf base rest m ∧ n = d * Nat.pow base rest.length + m := by
  constructor
  · rintro (_ | ⟨digit, later⟩)
    exact ⟨_, _, digit, later, rfl⟩
  · rintro ⟨d, m, digit, later, rfl⟩
    exact .cons digit later

/-- **What the digits that follow a number make of it.**  They are read exactly if all of
them are digits and the number that all write together stays below the bound: no number on
the way is larger than the last one. -/
theorem continueNumber_eq_ok_iff {base bound : Nat} (hpos : 0 < base) (hbase : base ≤ 16)
    {value n : Nat} {digits : List Char} :
    continueNumber base bound value digits = .ok n ↔
      ∃ m, DigitsOf base digits m ∧ n = value * Nat.pow base digits.length + m ∧
        (digits = [] ∨ n < bound) := by
  induction digits generalizing value with
  | nil =>
      rw [continueNumber]
      constructor
      · rintro ⟨⟩
        exact ⟨0, .nil, (Nat.mul_one _).symm, .inl rfl⟩
      · rintro ⟨m, ⟨⟩, rfl, -⟩
        exact congrArg Except.ok (Nat.mul_one _).symm
  | cons c rest ih =>
      rw [continueNumber]
      cases hdigit : digit? base c with
      | none =>
          have hnone := (digit?_eq_none_iff hbase).mp hdigit
          constructor
          · nofun
          · rintro ⟨m, hdigits, -⟩
            obtain ⟨d, -, digit, -⟩ := DigitsOf.cons_iff.mp hdigits
            exact absurd digit (hnone d)
      | some d =>
          have hd := (digit?_eq_some_iff hbase).mp hdigit
          have hplaces (m : Nat) :
              (base * value + d) * Nat.pow base rest.length + m =
                value * Nat.pow base (c :: rest).length + (d * Nat.pow base rest.length + m) := by
            have hpow : Nat.pow base (c :: rest).length = base * Nat.pow base rest.length :=
              Nat.pow_succ'
            rw [hpow, Nat.add_mul, Nat.add_assoc, Nat.mul_comm base value, Nat.mul_assoc]
          dsimp only
          constructor
          -- The reader compares the number so far with the bound after every digit.
          · intro h
            split at h
            · rename_i hfits
              obtain ⟨m, hrest, rfl, hless⟩ := ih.mp h
              refine ⟨_, .cons hd hrest, hplaces m, .inr ?_⟩
              rcases hless with rfl | hless
              · cases hrest
                simpa using hfits
              · exact hless
            · cases h
          · rintro ⟨m, hdigits, rfl, hless⟩
            obtain ⟨d', m, hd', hrest, rfl⟩ := DigitsOf.cons_iff.mp hdigits
            obtain rfl := hd.unique hbase hd'
            have hless := hless.resolve_left (List.cons_ne_nil _ _)
            -- Whatever digits follow, the number so far is not above the final one.
            have hgrows : base * value + d ≤ (base * value + d) * Nat.pow base rest.length :=
              Nat.le_mul_of_pos_right _ (Nat.pow_pos hpos)
            have hsame := hplaces m
            rw [if_pos (by omega)]
            exact ih.mpr ⟨m, hrest, hsame.symm, .inr hless⟩

/-- **Numbers.**  A number is read exactly if it is written as one and lies below the
bound. -/
theorem readNumber_eq_ok_iff {base bound n : Nat} (hpos : 0 < base) (hbase : base ≤ 16)
    {text : List Char} :
    readNumber base bound text = .ok n ↔ IsNumeral base text n ∧ n < bound := by
  have hdigits (c : Char) (rest : List Char) :
      continueNumber base bound 0 (c :: rest) = .ok n ↔
        DigitsOf base (c :: rest) n ∧ n < bound := by
    rw [continueNumber_eq_ok_iff hpos hbase]
    constructor
    · rintro ⟨m, h, rfl, hless⟩
      rw [Nat.zero_mul, Nat.zero_add] at hless ⊢
      exact ⟨h, hless.resolve_left (List.cons_ne_nil _ _)⟩
    · rintro ⟨h, hless⟩
      exact ⟨n, h, by rw [Nat.zero_mul, Nat.zero_add], .inr hless⟩
  have hplus (rest : List Char) : ¬ DigitsOf base ('+' :: rest) n := by
    intro h
    obtain ⟨d, -, digit, -⟩ := DigitsOf.cons_iff.mp h
    exact not_isDigit_plus hbase digit
  unfold readNumber
  split
  · constructor
    · nofun
    · rintro ⟨⟨digits, rfl | h, hne, -⟩, -⟩
      · exact absurd rfl hne
      · cases h
  · rename_i c rest
    rw [hdigits]
    constructor
    · rintro ⟨h, hless⟩
      exact ⟨⟨_, .inr rfl, List.cons_ne_nil _ _, h⟩, hless⟩
    · rintro ⟨⟨digits, rfl | htext, -, h⟩, hless⟩
      · exact absurd h (hplus _)
      · obtain rfl := (List.cons.inj htext).2
        exact ⟨h, hless⟩
  · rename_i hne hsigned
    obtain ⟨c, rest, rfl⟩ := List.exists_cons_of_ne_nil hne
    rw [hdigits]
    constructor
    · rintro ⟨h, hless⟩
      exact ⟨⟨_, .inl rfl, List.cons_ne_nil _ _, h⟩, hless⟩
    · rintro ⟨⟨digits, rfl | htext, hdigits, h⟩, hless⟩
      · exact ⟨h, hless⟩
      · obtain ⟨rfl, rfl⟩ := List.cons.inj htext
        obtain ⟨c, rest, rfl⟩ := List.exists_cons_of_ne_nil hdigits
        exact absurd rfl (hsigned c rest)

/-! ## Addresses -/

/-- There is one way to take the mark off a text. -/
theorem IsMarked.unique {text rest rest' : List Char} (h : IsMarked text rest)
    (h' : IsMarked text rest') : rest = rest' := by
  rcases h with rfl | rfl <;> rcases h' with h' | h' <;> cases h' <;> rfl

/-- The number in an address, as the reader takes it. -/
def addressNumber (text : List Char) : Except NumberFault Nat :=
  match text with
  | '0' :: 'x' :: hex | '0' :: 'X' :: hex => readNumber 16 UInt32.size hex
  | _ => readNumber 10 UInt32.size text

/-- The reader accepts the addresses of the grammar that fit into a word, and no other text. -/
theorem addressNumber_eq_ok_iff {text : List Char} {n : Nat} :
    addressNumber text = .ok n ↔ IsAddress text n ∧ n < UInt32.size := by
  have hhex (hex : List Char) (hmarked : IsMarked text hex) :
      readNumber 16 UInt32.size hex = .ok n ↔ IsAddress text n ∧ n < UInt32.size := by
    rw [readNumber_eq_ok_iff (by decide) (by decide), and_congr_left_iff]
    intro _
    constructor
    · exact fun h => .inl ⟨hex, hmarked, h⟩
    · rintro (⟨rest, hrest, h⟩ | ⟨hnone, -⟩)
      · rw [hmarked.unique hrest]
        exact h
      · exact absurd ⟨hex, hmarked⟩ hnone
  unfold addressNumber
  split
  · rename_i hex
    exact hhex hex (.inl rfl)
  · rename_i hex
    exact hhex hex (.inr rfl)
  · rename_i hlower hupper
    have hnone : ¬ ∃ rest, IsMarked text rest := by
      rintro ⟨rest, rfl | rfl⟩
      · exact hlower rest rfl
      · exact hupper rest rfl
    rw [readNumber_eq_ok_iff (by decide) (by decide), IsAddress, and_congr_left_iff]
    intro _
    constructor
    · exact fun h => .inr ⟨hnone, h⟩
    · rintro (⟨rest, hrest, -⟩ | ⟨-, h⟩)
      · exact absurd ⟨rest, hrest⟩ hnone
      · exact h

/-- An argument is read without the space around it, and a fault names what is left. -/
theorem readAddress_eq (text : String) :
    readAddress text =
      match addressNumber (bare text) with
      | .ok n => .ok (UInt32.ofNat n)
      | .error fault => .error ⟨String.ofList (bare text), fault⟩ := rfl

/-- The same of an argument and the word that it becomes. -/
theorem readAddress_eq_ok_iff {text : String} {n : UInt32} :
    readAddress text = .ok n ↔ IsAddress (bare text) n.toNat := by
  rw [readAddress_eq]
  cases hnumber : addressNumber (bare text) with
  | error fault =>
      constructor
      · nofun
      · intro h
        cases hnumber.symm.trans (addressNumber_eq_ok_iff.mpr ⟨h, n.toNat_lt⟩)
  | ok m =>
      obtain ⟨hm, hless⟩ := addressNumber_eq_ok_iff.mp hnumber
      constructor
      · rintro ⟨⟩
        rw [UInt32.toNat_ofNat', Nat.mod_eq_of_lt hless]
        exact hm
      · intro h
        have hsame := hnumber.symm.trans (addressNumber_eq_ok_iff.mpr ⟨h, n.toNat_lt⟩)
        obtain rfl := Except.ok.inj hsame
        dsimp only
        rw [UInt32.ofNat_toNat]

/-! ## Addresses that are printed -/

/-- A further digit. -/
theorem DigitsOf.concat {base n d : Nat} {c : Char} {text : List Char} (h : DigitsOf base text n)
    (digit : IsDigit base c d) : DigitsOf base (text ++ [c]) (base * n + d) := by
  induction h with
  | nil =>
      have hlast : DigitsOf base [c] (d * Nat.pow base 0 + 0) := .cons digit .nil
      simpa using hlast
  | @cons first e m rest hfirst hlater ih =>
      have hlonger := DigitsOf.cons hfirst ih
      have hpow : Nat.pow base (rest ++ [c]).length = base * Nat.pow base rest.length := by
        rw [List.length_append]
        exact Nat.pow_succ'
      have hplaces : base * (e * Nat.pow base rest.length + m) + d =
          e * Nat.pow base (rest ++ [c]).length + (base * m + d) := by
        rw [hpow, Nat.mul_add, Nat.add_assoc, Nat.mul_left_comm]
      rw [hplaces]
      exact hlonger

/-- The digits that print a number write it. -/
theorem digitsOf_toDigits {base : Nat} (hone : 1 < base) (n : Nat) :
    DigitsOf base (Nat.toDigits base n) n := by
  induction n using Nat.strongRecOn with
  | ind n ih =>
      by_cases hless : n < base
      · have hdigit : IsDigit base n.digitChar n := ⟨hless, .inl rfl⟩
        rw [Nat.toDigits_of_lt_base hless]
        simpa using DigitsOf.nil.concat hdigit
      · have hdigit : IsDigit base (n % base).digitChar (n % base) :=
          ⟨Nat.mod_lt _ (by omega), .inl rfl⟩
        rw [Nat.toDigits_of_base_le hone (by omega)]
        have hprinted := (ih (n / base) (Nat.div_lt_self (by omega) hone)).concat hdigit
        rw [Nat.div_add_mod] at hprinted
        exact hprinted

/-- A capital letter lies 32 codes below its small one. -/
theorem toNat_toLower {c : Char} (h : 65 ≤ c.toNat ∧ c.toNat ≤ 90) :
    c.toLower.toNat = c.toNat + 32 := by
  have hupper : c.val ≥ 'A'.val ∧ c.val ≤ 'Z'.val := h
  have hlast : c.val.toNat ≤ 90 := h.2
  have hshift : ('a'.val - 'A'.val).toNat = 32 := rfl
  have hlower : c.toLower = ⟨c.val + ('a'.val - 'A'.val), _⟩ := dif_pos hupper
  rw [hlower]
  change (c.val + ('a'.val - 'A'.val)).toNat = c.val.toNat + 32
  rw [UInt32.toNat_add, hshift]
  omega

/-- The case of a digit does not matter. -/
theorem IsDigit.of_toLower {base d : Nat} {c : Char} (hbase : base ≤ 16)
    (h : IsDigit base c.toLower d) : IsDigit base c d := by
  by_cases hupper : 65 ≤ c.toNat ∧ c.toNat ≤ 90
  · have hlower := toNat_toLower hupper
    obtain ⟨hd, hforms⟩ := h
    refine ⟨hd, .inr (Char.toNat_inj.mp ?_)⟩
    rw [← Char.toNat_inj, ← Char.toNat_inj] at hforms
    by_cases hten : d < 10
    · have hdigit := digitChar_decimal d hten
      omega
    · have hdigit := digitChar_letter d (by omega) (by omega)
      omega
  · have hsame : c.toLower = c := dif_neg hupper
    rw [hsame] at h
    exact h

/-- Digits are the same in either case. -/
theorem DigitsOf.of_toLower {base n : Nat} (hbase : base ≤ 16) {text : List Char}
    (h : DigitsOf base (text.map Char.toLower) n) : DigitsOf base text n := by
  induction text generalizing n with
  | nil => exact h
  | cons c rest ih =>
      rw [List.map_cons, DigitsOf.cons_iff, List.length_map] at h
      obtain ⟨d, m, digit, later, rfl⟩ := h
      exact .cons (digit.of_toLower hbase) (ih later)

/-- A number in decimal digits has no mark. -/
theorem DigitsOf.not_isMarked {n : Nat} {text : List Char} (h : DigitsOf 10 text n) :
    ¬ ∃ rest, IsMarked text rest := by
  have hletter {x : Char} (hx : x = 'x' ∨ x = 'X') (d : Nat) : ¬ IsDigit 10 x d := by
    refine (digit?_eq_none_iff (by decide)).mp ?_ d
    rcases hx with rfl | rfl <;> decide
  rintro ⟨rest, rfl | rfl⟩
  all_goals
    obtain ⟨_, _, _, hlater, _⟩ := DigitsOf.cons_iff.mp h
    obtain ⟨d, _, digit, _⟩ := DigitsOf.cons_iff.mp hlater
  · exact hletter (.inl rfl) d digit
  · exact hletter (.inr rfl) d digit

/-- A row of digits without gaps is a numeral. -/
theorem isNumeral_of_digitsOf {base n : Nat} {text : List Char} (hne : text ≠ [])
    (h : DigitsOf base text n) : IsNumeral base text n :=
  ⟨text, .inl rfl, hne, h⟩

/-- What prints an address writes it. -/
theorem Prints.isAddress {text : String} {n : Nat} (h : Prints text n) :
    IsAddress (bare text) n := by
  rcases h with hdecimal | ⟨hex, hmarked, hhex⟩
  · have hdigits := digitsOf_toDigits (by decide : 1 < 10) n
    rw [← hdecimal] at hdigits
    refine .inr ⟨hdigits.not_isMarked, isNumeral_of_digitsOf ?_ hdigits⟩
    rw [hdecimal]
    exact Nat.toDigits_ne_nil
  · have hdigits := digitsOf_toDigits (by decide : 1 < 16) n
    rw [← hhex] at hdigits
    refine .inl ⟨hex, hmarked, isNumeral_of_digitsOf ?_ (hdigits.of_toLower (by decide))⟩
    rintro rfl
    exact Nat.toDigits_ne_nil hhex.symm

/-- **The grammar of addresses.**  Take any text.

* It is read as an address exactly if it writes that address, its underscores apart:
  an optional plus sign and at least one digit, hexadecimal ones after `0x` or `0X` and
  decimal ones otherwise, with a value below 2³².
* Every other text is refused.
* So the decimal form of an address and its hexadecimal form in either case are read back,
  wherever underscores are put. -/
theorem address_grammar (text : String) :
    (∀ address : UInt32, readAddress text = .ok address ↔ IsAddress (bare text) address.toNat) ∧
      ((∃ e, readAddress text = .error e) ↔ ¬ ∃ n < UInt32.size, IsAddress (bare text) n) ∧
      ∀ address : UInt32, Prints text address.toNat → readAddress text = .ok address := by
  refine ⟨fun address => readAddress_eq_ok_iff, ?_, fun address h =>
    readAddress_eq_ok_iff.mpr h.isAddress⟩
  rw [readAddress_eq]
  cases hnumber : addressNumber (bare text) with
  | error fault =>
      refine iff_of_true ⟨_, rfl⟩ ?_
      rintro ⟨n, hless, h⟩
      cases hnumber.symm.trans (addressNumber_eq_ok_iff.mpr ⟨h, hless⟩)
  | ok n =>
      obtain ⟨h, hless⟩ := addressNumber_eq_ok_iff.mp hnumber
      exact iff_of_false nofun fun hnone => hnone ⟨n, hless, h⟩

/-- Both cases, and underscores before, in and after the mark. -/
theorem address_of_mixed_case :
    Prints "_0_X_DEad_bEEf" 0xDEADBEEF ∧ readAddress "_0_X_DEad_bEEf" = .ok 0xDEADBEEF := by
  have hprints : Prints "_0_X_DEad_bEEf" (0xDEADBEEF : UInt32).toNat :=
    .inr ⟨['D', 'E', 'a', 'd', 'b', 'E', 'E', 'f'], .inr (by decide), by decide⟩
  exact ⟨hprints, (address_grammar _).2.2 0xDEADBEEF hprints⟩

/-- Leading zeros do not make a number too large, and the mark counts once only. -/
example : readAddress "0x+000000000000001F" = .ok 0x1F ∧
    readAddress "0x0x1F" = .error ⟨"0x0x1F", .invalidDigit⟩ ∧
    readAddress "4294967296" = .error ⟨"4294967296", .tooLarge⟩ :=
  ⟨rfl, rfl, rfl⟩

end PlayStation.CommandLine

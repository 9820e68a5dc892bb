/-!
# Texts in texts

`occursIn` finds a text in another one (`occursIn_iff`).
-/

namespace PlayStation.Text

/-- Whether a text occurs in another one. -/
def occursIn (part : List Char) : List Char → Bool
  | [] => part.isEmpty
  | c :: text => part.isPrefixOf (c :: text) || occursIn part text

/-- The search finds a part exactly if the text contains it. -/
theorem occursIn_iff {part text : List Char} : occursIn part text = true ↔ part <:+: text := by
  induction text with
  | nil => simp [occursIn]
  | cons c text ih => simp [occursIn, ih, List.infix_cons_iff, List.isPrefixOf_iff_prefix]

end PlayStation.Text

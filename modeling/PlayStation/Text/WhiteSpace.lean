import PlayStation.Text.CharRanges

/-!
# White space
-/

namespace PlayStation.Text

/-- Whether a character is white space, in any script. -/
def isSpace (c : Char) : Bool :=
  inRanges [(0x09, 0x0d), (0x20, 0x20), (0x85, 0x85), (0xa0, 0xa0), (0x1680, 0x1680),
    (0x2000, 0x200a), (0x2028, 0x2029), (0x202f, 0x202f), (0x205f, 0x205f), (0x3000, 0x3000)] c

/-- A text without the white space at its end. -/
def trimEnd (text : List Char) : List Char :=
  (text.reverse.dropWhile isSpace).reverse

/-- A text without the white space at its ends. -/
def trim (text : String) : String :=
  String.ofList (trimEnd (text.toList.dropWhile isSpace))

end PlayStation.Text

/-!
# Sets of characters

A set is kept as the expression that describes it, and asked about one character at a
time.
-/

namespace PlayStation.Text

/-- A set of characters. -/
inductive CharSet where
  | nothing
  | range (first last : Char)
  | complement (s : CharSet)
  | union (s t : CharSet)
  | intersection (s t : CharSet)
  | difference (s t : CharSet)
  | symmetricDifference (s t : CharSet)
  /-- The set with both cases of the letters `a` to `z` in it. -/
  | bothCases (s : CharSet)
  deriving DecidableEq, Repr

namespace CharSet

/-- Whether a character is in the set. -/
def contains (c : Char) : CharSet → Bool
  | nothing => false
  | range first last => first ≤ c && c ≤ last
  | complement s => !s.contains c
  | union s t => s.contains c || t.contains c
  | intersection s t => s.contains c && t.contains c
  | difference s t => s.contains c && !t.contains c
  | symmetricDifference s t => s.contains c != t.contains c
  | bothCases s => s.contains c || s.contains c.toLower || s.contains c.toUpper

def singleton (c : Char) : CharSet := range c c

def all : CharSet := complement nothing

def digits : CharSet := range '0' '9'
def lower : CharSet := range 'a' 'z'
def upper : CharSet := range 'A' 'Z'
def letters : CharSet := union lower upper
def words : CharSet := union letters (union digits (singleton '_'))
def spaces : CharSet := union (range '\t' '\x0d') (singleton ' ')

/-- The sets of ASCII characters that have names. -/
def named : List (String × CharSet) := [
  ("alnum", union letters digits),
  ("alpha", letters),
  ("ascii", range '\x00' '\x7f'),
  ("blank", union (singleton '\t') (singleton ' ')),
  ("cntrl", union (range '\x00' '\x1f') (singleton '\x7f')),
  ("digit", digits),
  ("graph", range '!' '~'),
  ("lower", lower),
  ("print", range ' ' '~'),
  ("punct", difference (range '!' '~') (union letters digits)),
  ("space", spaces),
  ("upper", upper),
  ("word", words),
  ("xdigit", union digits (union (range 'A' 'F') (range 'a' 'f')))]

end CharSet
end PlayStation.Text

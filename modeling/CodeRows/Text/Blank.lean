/-! # Blank characters and words

A property of characters is kept as a table: closed ranges of code points in ascending order, no
two of which touch.  A character is blank when it has the Unicode property `White_Space`.  A text
falls into words, the longest runs of characters that are not blank. -/

set_option autoImplicit false

namespace CodeRows.Text

/-! ## Ranges of code points -/

abbrev Ranges := List (Nat × Nat)

def Ranges.holds (ranges : Ranges) (c : Char) : Bool :=
  ranges.any fun range => range.1 ≤ c.toNat && c.toNat ≤ range.2

/-- Whether ranges are not empty, ascend and leave a gap between each two. -/
def Ranges.separate : Ranges → Bool
  | [] => true
  | [range] => range.1 ≤ range.2
  | range :: next :: ranges =>
    range.1 ≤ range.2 && range.2 + 1 < next.1 && separate (next :: ranges)

def Ranges.count : Ranges → Nat
  | [] => 0
  | range :: ranges => range.2 + 1 - range.1 + count ranges

def Ranges.within (ranges others : Ranges) : Bool :=
  ranges.all fun range => others.any fun other => other.1 ≤ range.1 && range.2 ≤ other.2

/-! ## Blank characters -/

/-- The code points with the property `White_Space`, as closed ranges in ascending order. -/
def blankRanges : Ranges :=
  [(0x09, 0x0d), (0x20, 0x20), (0x85, 0x85), (0xa0, 0xa0), (0x1680, 0x1680), (0x2000, 0x200a),
    (0x2028, 0x2029), (0x202f, 0x202f), (0x205f, 0x205f), (0x3000, 0x3000)]

def isBlank (c : Char) : Bool := blankRanges.holds c

example : blankRanges.separate = true := by decide

example : blankRanges.count = 25 := by decide

/-! ## Words -/

def consWord (word : List Char) (words : List (List Char)) : List (List Char) :=
  if word.isEmpty then words else word :: words

/-- The run of nonblank characters at the front, and the words after it. -/
def splitFirst : List Char → List Char × List (List Char)
  | [] => ([], [])
  | c :: rest =>
    let (word, words) := splitFirst rest
    if isBlank c then ([], consWord word words) else (c :: word, words)

def wordLists (chars : List Char) : List (List Char) :=
  consWord (splitFirst chars).1 (splitFirst chars).2

def words (text : String) : List String :=
  (wordLists text.toList).map String.ofList

end CodeRows.Text

import SqlStatement.Text.Basic

/-!
# Blank characters

`isBlank` is the property White_Space of the Unicode character database: 25 characters in ten
ranges, unchanged since version 6.3.
-/

namespace SqlStatement.Text

/-- The ranges of blank characters, ascending and apart. -/
def blankRanges : List (Nat × Nat) :=
  [(0x09, 0x0D), (0x20, 0x20), (0x85, 0x85), (0xA0, 0xA0), (0x1680, 0x1680), (0x2000, 0x200A),
    (0x2028, 0x2029), (0x202F, 0x202F), (0x205F, 0x205F), (0x3000, 0x3000)]

def isBlank (c : Char) : Bool := blankRanges.any fun (lo, hi) => lo ≤ c.toNat && c.toNat ≤ hi

def trim (s : String) : String := strip isBlank s

def trimEnd (s : String) : String := stripEnd isBlank s

def isBlankText (s : String) : Bool := s.toList.all isBlank

end SqlStatement.Text

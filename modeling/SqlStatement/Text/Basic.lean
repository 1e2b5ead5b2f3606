/-!
# Cutting and searching text

Each function works on the list of characters, so that it can be reasoned about by induction on that
list.
-/

namespace SqlStatement.Text

/-! ## Lists of characters -/

def dropEndWhile (p : Char → Bool) (cs : List Char) : List Char :=
  (cs.reverse.dropWhile p).reverse

def trimWhile (p : Char → Bool) (cs : List Char) : List Char :=
  dropEndWhile p (cs.dropWhile p)

/-- The characters before and after the first `sep`. -/
def cutAt? (sep : Char) : List Char → Option (List Char × List Char)
  | [] => none
  | c :: cs => if c = sep then some ([], cs) else (cutAt? sep cs).map fun (a, b) => (c :: a, b)

def afterLastIn? (sep : Char) : List Char → Option (List Char)
  | [] => none
  | c :: cs =>
    match afterLastIn? sep cs with
    | some rest => some rest
    | none => if c = sep then some cs else none

def occursIn (needle : List Char) : List Char → Bool
  | [] => needle.isEmpty
  | c :: cs => needle.isPrefixOf (c :: cs) || occursIn needle cs

def dropStartIn? : List Char → List Char → Option (List Char)
  | [], cs => some cs
  | _ :: _, [] => none
  | a :: as, c :: cs => if a = c then dropStartIn? as cs else none

/-- The characters before and after the first place where `sep` stands. -/
def cutAtText? (sep : List Char) : List Char → Option (List Char × List Char)
  | [] => none
  | c :: cs =>
    match dropStartIn? sep (c :: cs) with
    | some rest => some ([], rest)
    | none => (cutAtText? sep cs).map fun (a, b) => (c :: a, b)

/-! ## Strings -/

def strip (p : Char → Bool) (s : String) : String := String.ofList (trimWhile p s.toList)

def stripEnd (p : Char → Bool) (s : String) : String := String.ofList (dropEndWhile p s.toList)

def cut? (sep : Char) (s : String) : Option (String × String) :=
  (cutAt? sep s.toList).map fun (a, b) => (String.ofList a, String.ofList b)

/-- The parts of the text between the occurrences of `sep`; at least one, possibly empty. -/
def split (sep : Char) (s : String) : List String := (s.toList.splitOn sep).map String.ofList

def afterLast? (sep : Char) (s : String) : Option String :=
  (afterLastIn? sep s.toList).map String.ofList

def occurs (needle s : String) : Bool := occursIn needle.toList s.toList

def hasChar (c : Char) (s : String) : Bool := s.toList.contains c

def dropStart? (start s : String) : Option String :=
  (dropStartIn? start.toList s.toList).map String.ofList

def dropSuffix? (ending s : String) : Option String :=
  (dropStartIn? ending.toList.reverse s.toList.reverse).map fun cs => String.ofList cs.reverse

def asciiUpper (s : String) : String := String.ofList (s.toList.map Char.toUpper)

def asciiLower (s : String) : String := String.ofList (s.toList.map Char.toLower)

end SqlStatement.Text

import SqlStatement.Entries
import SqlStatement.MapKey
import SqlStatement.Row.Basic
import SqlStatement.Row.MapOption

/-!
# Rows collected into a map

Each row contributes one value under the key of its key column. Keys stand in the order of their
first row. An entry holds the value of its last row, or the values of all its rows in order.
-/

namespace SqlStatement

inductive FetchMap where
  | values (entries : List (MapKey × Value))
  | rows (entries : List (MapKey × Row))
  | valueLists (entries : List (MapKey × List Value))
  | rowLists (entries : List (MapKey × List Row))
  deriving DecidableEq, Repr, Inhabited

/-! ## Grouping -/

/-- Adds `x` behind the values of key `k`, or in a new last entry. -/
def addTo {α : Type} (k : MapKey) (x : α) : List (MapKey × List α) → List (MapKey × List α)
  | [] => [(k, [x])]
  | (j, xs) :: rest => if j = k then (j, xs ++ [x]) :: rest else (j, xs) :: addTo k x rest

def collect {α : Type} (pairs : List (MapKey × α)) : List (MapKey × List α) :=
  pairs.foldl (fun entries p => addTo p.1 p.2 entries) []

def lastOfEach {α : Type} (pairs : List (MapKey × α)) : List (MapKey × α) := Entries.ofList pairs

/-! ## Rows with their keys -/

def Row.mapKey (r : Row) (column : String) : Except Error MapKey :=
  (r.require column).map MapKey.ofValue

def Row.shape (r : Row) : MapFields → Except Error Row
  | .all => .ok r
  | .many columns => r.project columns
  | .single column => r.project [column]

/-- Keys of rows with what `part` makes of them, up to the first row where a column is missing. -/
def keyed {α : Type} (column : String) (part : Row → Except Error α) :
    List Row → Except Error (List (MapKey × α))
  | [] => .ok []
  | r :: rs =>
    match r.mapKey column with
    | .error e => .error e
    | .ok k =>
      match part r with
      | .error e => .error e
      | .ok x => (keyed column part rs).map ((k, x) :: ·)

namespace FetchMap

def build (option : MapOption) (rs : List Row) : Except Error FetchMap :=
  match option.fields, option.asList with
  | .single field, false =>
    (keyed option.key (·.require field) rs).map fun ps => values (lastOfEach ps)
  | .single field, true =>
    (keyed option.key (·.require field) rs).map fun ps => valueLists (collect ps)
  | fields, false => (keyed option.key (·.shape fields) rs).map fun ps => rows (lastOfEach ps)
  | fields, true => (keyed option.key (·.shape fields) rs).map fun ps => rowLists (collect ps)

def size : FetchMap → Nat
  | values es => es.length
  | rows es => es.length
  | valueLists es => es.length
  | rowLists es => es.length

def isEmpty (m : FetchMap) : Bool := m.size == 0

def values? : FetchMap → Option (List (MapKey × Value))
  | values es => some es
  | _ => none

def rows? : FetchMap → Option (List (MapKey × Row))
  | rows es => some es
  | _ => none

def valueLists? : FetchMap → Option (List (MapKey × List Value))
  | valueLists es => some es
  | _ => none

def rowLists? : FetchMap → Option (List (MapKey × List Row))
  | rowLists es => some es
  | _ => none

end FetchMap

end SqlStatement

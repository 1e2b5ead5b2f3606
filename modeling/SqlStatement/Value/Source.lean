import SqlStatement.Value.Basic

/-!
# Values from typed data

`Source` lists the kinds of data that can be given where a value is expected. Integers stay integers
if 64 bits with sign hold them and become decimal text otherwise; identifiers, dates, times and
fixed-point numbers become their usual text.
-/

namespace SqlStatement

def padded (width n : Nat) : String :=
  let ds := toString n
  String.ofList (List.replicate (width - ds.length) '0') ++ ds

/-! ## Dates and times -/

structure Date where
  year : Int
  month : Nat
  day : Nat
  deriving DecidableEq, Repr

/-- Years from 0 to 9999 have four digits; others have a sign and at least four digits. -/
def Date.writeYear (y : Int) : String :=
  if 0 ≤ y ∧ y ≤ 9999 then padded 4 y.natAbs
  else (if y < 0 then "-" else "+") ++ padded 4 y.natAbs

def Date.write (d : Date) : String :=
  Date.writeYear d.year ++ "-" ++ padded 2 d.month ++ "-" ++ padded 2 d.day

/-- A time of day. A count of nanoseconds of a full second or more is a leap second. -/
structure TimeOfDay where
  hour : Nat
  minute : Nat
  second : Nat
  nanosecond : Nat
  deriving DecidableEq, Repr

/-- The fraction of a second in the fewest of zero, three, six or nine places that hold it. -/
def TimeOfDay.writeFraction (nanos : Nat) : String :=
  if nanos = 0 then ""
  else if nanos % 1000000 = 0 then "." ++ padded 3 (nanos / 1000000)
  else if nanos % 1000 = 0 then "." ++ padded 6 (nanos / 1000)
  else "." ++ padded 9 nanos

/-- The time as hour, minute, second and fraction; a leap second counts on the second before it. -/
def TimeOfDay.write (t : TimeOfDay) : String :=
  let leap := 1000000000 ≤ t.nanosecond
  let second := if leap then t.second + 1 else t.second
  let nanos := if leap then t.nanosecond - 1000000000 else t.nanosecond
  padded 2 t.hour ++ ":" ++ padded 2 t.minute ++ ":" ++ padded 2 second ++
    TimeOfDay.writeFraction nanos

/-! ## Fixed-point numbers and identifiers -/

/-- The number `mantissa / 10 ^ scale`. -/
structure Fixed where
  mantissa : Int
  scale : Nat
  deriving DecidableEq, Repr

def Fixed.write (f : Fixed) : String :=
  let ds := (padded (f.scale + 1) f.mantissa.natAbs).toList
  let whole := ds.take (ds.length - f.scale)
  let places := ds.drop (ds.length - f.scale)
  let sign := if f.mantissa < 0 then ['-'] else []
  String.ofList (sign ++ if f.scale = 0 then whole else whole ++ '.' :: places)

def hexDigits : Nat → Nat → List Char
  | 0, _ => []
  | count + 1, n => hexDigits count (n / 16) ++ [Json.hexDigit (n % 16)]

def uuidText (n : Nat) : String :=
  let ds := hexDigits 32 n
  let group := fun start count => String.ofList ((ds.drop start).take count)
  "-".intercalate [group 0 8, group 8 4, group 12 4, group 16 4, group 20 12]

/-! ## Sources -/

inductive Source where
  | unit
  | bool (b : Bool)
  /-- a signed integer of up to 64 bits or an unsigned one of up to 32 -/
  | integer (n : Int64)
  | unsigned (n : UInt64)
  | single (x : Float32)
  | double (x : Float)
  | text (s : String)
  | absent
  | uuid (n : Nat)
  | date (d : Date)
  | moment (d : Date) (t : TimeOfDay)
  | fixed (f : Fixed)

def Source.toValue : Source → Value
  | unit => .null
  | bool b => .bool b
  | integer n => .int n
  | unsigned n =>
    match Integer.inRange? n.toNat with
    | some i => .int i
    | none => .text (toString n.toNat)
  | single x => .float x.toFloat
  | double x => .float x
  | text s => .text s
  | absent => .null
  | uuid n => .text (uuidText n)
  | date d => .text d.write
  | moment d t => .text (d.write ++ " " ++ t.write)
  | fixed f => .text f.write

end SqlStatement

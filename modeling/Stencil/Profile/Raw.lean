import Stencil.Number.Layout
import Stencil.Profile.Calendar
import Stencil.Text.Quoted

/-!
# Data of a profile

A profile is given as data whose kinds are not yet checked. A mapping lists its entries in the
order of their first appearance; its keys can be of any scalar kind, or rows of scalars, and two
numbers are the same key if they are equal, a truth value counting as 0 or 1.
-/

set_option autoImplicit false

namespace Stencil

inductive Raw where
  | null
  | bool (b : Bool)
  | integer (n : Int)
  | double (x : Double)
  | text (s : String)
  | date (d : Day)
  | moment (m : Moment)
  | list (items : List Raw)
  /-- A list that stands as a key and does not change any more. -/
  | row (items : List Raw)
  | mapping (entries : List (Raw × Raw))

namespace Raw

/-- The kind of data, under the name that reports give it. -/
def kindName : Raw → String
  | .null => "NoneType"
  | .bool _ => "bool"
  | .integer _ => "int"
  | .double _ => "float"
  | .text _ => "str"
  | .date _ => "date"
  | .moment _ => "datetime"
  | .list _ => "list"
  | .row _ => "tuple"
  | .mapping _ => "dict"

/-- The kind of a key that should have been a text. This report is not one of the profile's own, and
there a kind that comes from a library has the library's name in front. -/
def fullKindName : Raw → String
  | .date d => "datetime." ++ (Raw.date d).kindName
  | .moment m => "datetime." ++ (Raw.moment m).kindName
  | r => r.kindName

/-- Whether data counts as not given where a collection is due. Beside nothing at all these are the
false, the zero and the empty of each kind, so that a collection can be given as `0` or `[]`. -/
def isVoid : Raw → Bool
  | .null => true
  | .bool b => !b
  | .integer n => n == 0
  | .double x => x.isZero
  | .text s => s.isEmpty
  | .date _ => false
  | .moment _ => false
  | .list items => items.isEmpty
  | .row items => items.isEmpty
  | .mapping entries => entries.isEmpty

/-! ## Keys -/

/-- A number, or a truth value as a number, in units of `2 ^ -1074`. Every finite double is a whole
number of them, so numbers of both kinds are compared without rounding. -/
def units? : Raw → Option Int
  | .bool b => some (if b then Double.unit else 0)
  | .integer n => some (n * Double.unit)
  | .double (.finite negative rank) => some (Double.units negative rank)
  | _ => none

mutual

/-- Whether two pieces of data are the same key. Numbers are told apart by their size alone; data of
other kinds is the same only as data of its own kind. Lists and mappings are never keys. -/
def sameKey : Raw → Raw → Bool
  | .null, .null => true
  | .text s, .text t => s == t
  | .date d, .date e => d == e
  | .moment m, .moment n => m == n
  | .double (.infinite s), .double (.infinite t) => s == t
  | .row items, .row others => sameKeys items others
  -- Numbers are left, and data that is the same key as nothing.
  | a, b =>
    match a.units?, b.units? with
    | some m, some n => m == n
    | _, _ => false

def sameKeys : List Raw → List Raw → Bool
  | [], [] => true
  | a :: as, b :: bs => sameKey a b && sameKeys as bs
  | _, _ => false

end

/-- A number on the line of all numbers. The pair is ordered by its first part first, which puts an
infinity at either end. -/
def place? : Raw → Option (Int × Int)
  | .double (.infinite negative) => some (if negative then -1 else 1, 0)
  | r => r.units?.map fun n => (0, n)

mutual

/-- Whether a key comes before another one, if the two have an order: texts, numbers, days, moments
and rows have one among themselves. -/
def before? : Raw → Raw → Option Bool
  | .text s, .text t => some (decide (s < t))
  | .date d, .date e => some (decide (d.rank < e.rank))
  | .moment m, .moment n => some (decide (m.rank < n.rank))
  | .row items, .row others => rowBefore? items others
  | a, b =>
    match a.place?, b.place? with
    | some p, some q => some (decide (p.1 < q.1 ∨ p.1 = q.1 ∧ p.2 < q.2))
    | _, _ => none

/-- Rows are ordered by the first place where they differ. -/
def rowBefore? : List Raw → List Raw → Option Bool
  | [], others => some (!others.isEmpty)
  | _ :: _, [] => some false
  | a :: as, b :: bs => if sameKey a b then rowBefore? as bs else before? a b

end

/-- Puts an entry in. One under the same key keeps its place and its key and takes the new value, so
1 and then a truth value are one entry, under 1. -/
def putEntry (key value : Raw) : List (Raw × Raw) → List (Raw × Raw)
  | [] => [(key, value)]
  | (k, v) :: rest =>
    if k.sameKey key then (k, value) :: rest else (k, v) :: putEntry key value rest

def ofEntries (entries : List (Raw × Raw)) : Raw :=
  .mapping (entries.foldl (fun es e => putEntry e.1 e.2 es) [])

def find? (entries : List (Raw × Raw)) (name : String) : Option Raw :=
  (entries.find? (fun e => e.1.sameKey (.text name))).map (·.2)

/-! ## Text -/

/-- A number with at least so many digits, zeros in front. -/
def padded (width n : Nat) : List Char :=
  let digits := Nat.toDigits 10 n
  List.replicate (width - digits.length) '0' ++ digits

def numberChars (ns : List Nat) : List Char :=
  List.intercalate [',', ' '] (ns.map (Nat.toDigits 10))

end Raw

def Day.numbers (d : Day) : List Nat := [d.year, d.month, d.day]

/-- The numbers that a moment inside a collection is written with. From the seconds on, what is zero
at the end is left out. -/
def Moment.numbers (m : Moment) : List Nat :=
  m.day.numbers ++ [m.hour, m.minute] ++
    if m.micro = 0 then if m.second = 0 then [] else [m.second] else [m.second, m.micro]

def Day.chars (d : Day) : List Char :=
  Raw.padded 4 d.year ++ ['-'] ++ Raw.padded 2 d.month ++ ['-'] ++ Raw.padded 2 d.day

/-- A moment as it stands alone, apart from other data. Its millionths are left out if there are
none. -/
def Moment.chars (m : Moment) : List Char :=
  m.day.chars ++ [' '] ++ Raw.padded 2 m.hour ++ [':'] ++ Raw.padded 2 m.minute ++ [':'] ++
    Raw.padded 2 m.second ++ if m.micro = 0 then [] else '.' :: Raw.padded 6 m.micro

namespace Raw

mutual

/-- The text of data inside a collection, where a text stands in quotes and a day or a moment is
written as the call that makes it. `display` differs from this for what stands alone. -/
def innerChars : Raw → List Char
  | .null => "None".toList
  | .bool b => (if b then "True" else "False").toList
  | .integer n => integerChars n
  | .double x => DoubleLayout.profile.chars x
  | .text s => Quoted.chars s
  | .date d => "datetime.date(".toList ++ numberChars d.numbers ++ [')']
  | .moment m => "datetime.datetime(".toList ++ numberChars m.numbers ++ [')']
  | .list items => '[' :: listChars items ++ [']']
  | .row items => '(' :: listChars items ++ (if items.length = 1 then [',', ')'] else [')'])
  | .mapping entries => '{' :: entryChars entries ++ ['}']

def listChars : List Raw → List Char
  | [] => []
  | [r] => innerChars r
  | r :: rs => innerChars r ++ [',', ' '] ++ listChars rs

def entryChars : List (Raw × Raw) → List Char
  | [] => []
  | [(k, v)] => innerChars k ++ [':', ' '] ++ innerChars v
  | (k, v) :: es => innerChars k ++ [':', ' '] ++ innerChars v ++ [',', ' '] ++ entryChars es

end

/-- The text of data that stands alone: a text is itself. -/
def display : Raw → String
  | .text s => s
  | .date d => String.ofList d.chars
  | .moment m => String.ofList m.chars
  | r => String.ofList r.innerChars

end Raw

end Stencil

import Stencil.Number.Literal
import Stencil.Profile.Raw
import Stencil.Profile.Yaml.Quoted
import Stencil.Profile.Yaml.Token

/-!
# Words

A plain scalar is whatever its word looks like: nothing, a truth value, a number, a day, a moment,
or else a text. `Kind.ofWord` says what it looks like, and `Kind.data` reads it as that. Some words
look like a number and are none, as a dash with an underscore.
-/

set_option autoImplicit false

namespace Stencil

namespace Yaml

/-! ## Numbers -/

def isBinary (c : Char) : Bool := c == '0' || c == '1' || c == '_'

def isOctal (c : Char) : Bool := ('0' ≤ c && c ≤ '7') || c == '_'

def isDecimal (c : Char) : Bool := c.isDigit || c == '_'

def isHex (c : Char) : Bool := (hexDigit? c).isSome || c == '_'

/-- Whether a word is one or more characters of a kind. -/
def allOf (p : Char → Bool) (cs : List Char) : Bool := !cs.isEmpty && cs.all p

/-- Whether a word looks like a whole number without its sign. -/
def isNatural : List Char → Bool
  | '0' :: 'b' :: rest => allOf isBinary rest
  | '0' :: 'o' :: rest => allOf isOctal rest
  | '0' :: 'x' :: rest => allOf isHex rest
  | cs => allOf isDecimal cs

/-- An exponent, with a sign if one is due. -/
def isExponent (signed : Bool) : List Char → Bool
  | e :: rest =>
    (e == 'e' || e == 'E') &&
      match rest with
      | c :: rest =>
        if c == '+' || c == '-' then allOf Char.isDigit rest
        else !signed && (c :: rest).all Char.isDigit
      | [] => false
  | [] => false

/-- Whether a word looks like a double without its sign: it has a point or an exponent. An exponent
behind a number that starts with its point needs a sign. -/
def isReal (cs : List Char) : Bool :=
  let whole := cs.takeWhile isDecimal
  match cs.dropWhile isDecimal with
  | '.' :: rest =>
    let fraction := rest.takeWhile isDecimal
    let rest := rest.dropWhile isDecimal
    if whole.isEmpty then !fraction.isEmpty && (rest.isEmpty || isExponent true rest)
    else whole.head?.any Char.isDigit && (rest.isEmpty || isExponent false rest)
  | rest => whole.head?.any Char.isDigit && isExponent false rest

def infinityWords : List (List Char) := [".inf".toList, ".Inf".toList, ".INF".toList]

def nanWords : List (List Char) := [".nan".toList, ".NaN".toList, ".NAN".toList]

/-- Whether a word looks like a double. -/
def isDouble (cs : List Char) : Bool :=
  let (_, rest) := Literal.splitSign cs
  isReal rest || infinityWords.contains rest || nanWords.contains cs

/-! ## Moments -/

def digits? (least most : Nat) (cs : List Char) : Option (Nat × List Char) :=
  let digits := (cs.take most).takeWhile Char.isDigit
  if digits.length < least then none
  else some (Nat.ofDigitChars 10 digits 0, cs.drop digits.length)

def expect? (c : Char) (cs : List Char) : Option (List Char) :=
  if cs.head? = some c then some (cs.drop 1) else none

/-- A year, a month and a day, with at least so many digits in the last two. -/
def day? (least : Nat) (cs : List Char) : Option (Day × List Char) := do
  let (year, cs) ← digits? 4 4 cs
  let (month, cs) ← digits? least 2 (← expect? '-' cs)
  let (day, cs) ← digits? least 2 (← expect? '-' cs)
  some (⟨year, month, day⟩, cs)

/-- What may follow a time: nothing, a letter, or how far its clock is ahead, in seconds. -/
def zone? (cs : List Char) : Option Int :=
  match cs.dropWhile isGap with
  | [] => if cs.isEmpty then some 0 else none
  | ['Z'] => some 0
  | sign :: rest => do
    let ahead ← if sign = '+' then some true else if sign = '-' then some false else none
    let (hours, rest) ← digits? 1 2 rest
    let minutes ←
      if rest.isEmpty then some 0
      else do
        let (minutes, rest) ← digits? 2 2 (← expect? ':' rest)
        if rest.isEmpty then some minutes else none
    let seconds : Int := (hours * 60 + minutes) * 60
    some (if ahead then seconds else -seconds)

/-- The millionths of the digits of a fraction: the seventh digit rounds the ones in front. -/
def millionths (digits : List Char) : Nat :=
  let head := digits.take 6
  Nat.ofDigitChars 10 (head ++ List.replicate (6 - head.length) '0') 0 +
    if (digits[6]?).any fun c => '4' < c then 1 else 0

/-- A moment as it is written: what its own clock shows, and how many seconds to move it by. -/
structure WrittenMoment where
  moment : Moment
  shift : Int

/-- A day with a time behind it. A fraction that is rounded up to a second moves the moment. -/
def moment? (cs : List Char) : Option WrittenMoment := do
  let (day, cs) ← day? 1 cs
  let rest := cs.dropWhile isGap
  let cs ←
    if rest.length < cs.length then some rest
    else if cs.head? = some 'T' ∨ cs.head? = some 't' then some (cs.drop 1)
    else none
  let (hour, cs) ← digits? 1 2 cs
  let (minute, cs) ← digits? 2 2 (← expect? ':' cs)
  let (second, cs) ← digits? 2 2 (← expect? ':' cs)
  let (fraction, cs) := match cs with
    | '.' :: cs => (cs.takeWhile Char.isDigit, cs.dropWhile Char.isDigit)
    | cs => ([], cs)
  let ahead ← zone? cs
  let micro := millionths fraction
  if micro < 1000000 then some ⟨⟨day, hour, minute, second, micro⟩, -ahead⟩
  else
    let extra := if 0 < ahead then -1 else 1
    some ⟨⟨day, hour, minute, second, 0⟩, -ahead + extra⟩

/-- Whether a word looks like a day or a moment. -/
def isMoment (cs : List Char) : Bool :=
  (day? 2 cs).any (·.2.isEmpty) || (moment? cs).isSome

/-! ## Kinds -/

/-- The words that stand for something else than themselves. -/
def words : List (String × Kind) :=
  [("", .null), ("~", .null), ("null", .null), ("Null", .null), ("NULL", .null),
    ("true", .bool), ("True", .bool), ("TRUE", .bool), ("false", .bool), ("False", .bool),
    ("FALSE", .bool), ("<<", .merge), ("=", .equals)]

/-- Whether a word starts as a number does. -/
def startsNumber (cs : List Char) : Bool :=
  cs.head?.any fun c => c.isDigit || c == '+' || c == '-'

namespace Kind

/-- What a plain scalar looks like. Looks are all that counts here: what looks like a day is one,
and `data` finds out whether the calendar has it. -/
def ofWord (cs : List Char) : Kind :=
  match words.lookup (String.ofList cs) with
  | some k => k
  | none =>
    if isDouble cs then .double
    else if startsNumber cs && isNatural (Literal.splitSign cs).2 then .integer
    else if isMoment cs then .moment
    else .text

/-! ## Data -/

/-- Digits in a base, as a number. -/
def digitsData (base : Nat) (digits : List Char) : Except YamlFault Nat :=
  match digits.mapM hexDigit? with
  | some ns =>
    if !ns.isEmpty && ns.all (· < base) then .ok (ns.foldl (· * base + ·) 0)
    else refused
  | none => refused
where
  refused : Except YamlFault Nat :=
    .error (.unfit ("invalid literal for int() with base " ++ toString base ++ ": " ++
      Stencil.quoted (String.ofList digits)))

def naturalData : List Char → Except YamlFault Nat
  | '0' :: 'b' :: digits => digitsData 2 digits
  | '0' :: 'o' :: digits => digitsData 8 digits
  | '0' :: 'x' :: digits => digitsData 16 digits
  | digits => digitsData 10 digits

/-- A whole number; underscores count for nothing. -/
def integerData (cs : List Char) : Except YamlFault Raw := do
  let (negative, rest) := Literal.splitSign (cs.filter (· != '_'))
  let n ← naturalData rest
  .ok (.integer (if negative then -(n : Int) else n))

/-- A double; underscores count for nothing. -/
def doubleData (cs : List Char) : Except YamlFault Raw :=
  let (negative, rest) := Literal.splitSign (cs.filter (· != '_'))
  if infinityWords.contains rest then .ok (.double (.infinite negative))
  else if nanWords.contains rest then .ok (.double .nan)
  else
    match Literal.decimal? rest with
    | some d => .ok (.double (d.toDouble negative))
    | none =>
      .error (.unfit ("could not convert string to float: " ++
        Stencil.quoted (String.ofList (rest.map Char.toLower))))

/-- What exists, unless it has a fault. -/
def existing (fault : Option String) (r : Raw) : Except YamlFault Raw :=
  match fault with
  | some reason => .error (.unfit reason)
  | none => .ok r

def momentData (cs : List Char) : Except YamlFault Raw :=
  match day? 1 cs, moment? cs with
  | some (d, []), _ => existing d.fault? (.date d)
  | _, some w => do
    let r ← existing w.moment.fault? .null
    match w.moment.move? w.shift, r with
    | some m, _ => .ok (.moment m)
    | none, _ => .error .outOfRange
  | _, none => malformed

/-- The words for truth values, in small letters. -/
def boolWords : List (String × Bool) :=
  [("yes", true), ("no", false), ("y", true), ("n", false), ("true", true), ("false", false),
    ("on", true), ("off", false)]

def data (k : Kind) (cs : List Char) : Except YamlFault Raw :=
  match k with
  | .null => .ok .null
  | .bool =>
    match boolWords.lookup (String.ofList (cs.map Char.toLower)) with
    | some b => .ok (.bool b)
    | none => malformed
  | .integer => integerData cs
  | .double => doubleData cs
  | .moment => momentData cs
  | .text => .ok (.text (String.ofList cs))
  | .merge | .equals | .list | .mapping => malformed

end Kind

end Yaml

end Stencil

/-
# Numbers and dates in TOML

A value that is neither a text nor a list nor a table is one run of letters, digits and a few
marks: an integer, a floating point number, a truth value, a date or a time. A run that begins with
a date may go on behind a blank with a time of day.
-/
import VariableRegistry.Calendar
import VariableRegistry.Document.Basic
import VariableRegistry.Float.Text

namespace VariableRegistry.Toml

/-! ## Runs -/

/-- Whether a character may belong to a number or a date. -/
def isScalarChar (c : Char) : Bool :=
  c.isAlphanum || c = '_' || c = '+' || c = '-' || c = '.' || c = ':'

/-- The digits of a run in which single low lines stand between digits only. -/
def ungroup : List Char → Option (List Char)
  | [] => none
  | [c] => if c = '_' then none else some [c]
  | c :: d :: cs =>
    if c = '_' then none
    else if d = '_' then (ungroup cs).map (c :: ·)
    else (ungroup (d :: cs)).map (c :: ·)

/-- Whether a character is a digit or groups digits. -/
def isGrouped (c : Char) : Bool := c.isDigit || c = '_'

/-! ## Integers -/

/-- The number of digits in a base. -/
def digits? (base : Nat) (cs : List Char) : Option Nat := (ungroup cs).bind (Numeral.ofDigits? base)

/-- Whether a run of digits begins with a zero that is not all of it. -/
def hasLeadingZero : List Char → Bool
  | '0' :: _ :: _ => true
  | _ => false

/-- The number of an integer without a sign. -/
def wholeNumber? (cs : List Char) : Option Nat := if hasLeadingZero cs then none else digits? 10 cs

/-- Reads an integer, which fits into sixty-four bits; it has no sign if its base is told. -/
def integer? (cs : List Char) : Option Int :=
  let n? : Option Int :=
    match cs with
    | '0' :: 'x' :: cs => (digits? 16 cs).map Int.ofNat
    | '0' :: 'o' :: cs => (digits? 8 cs).map Int.ofNat
    | '0' :: 'b' :: cs => (digits? 2 cs).map Int.ofNat
    | cs =>
      let (negative, body) := Decimal.takeSign cs
      (wholeNumber? body).map fun n => if negative then -(n : Int) else n
  n?.filter fun n => -0x8000000000000000 ≤ n && n < 0x8000000000000000

/-! ## Floating point numbers -/

/-- The digits behind a point, and what follows them; there are none where no point is. -/
def fraction? : List Char → Option (List Char × List Char)
  | '.' :: cs => (ungroup (cs.takeWhile isGrouped)).map fun ds => (ds, cs.dropWhile isGrouped)
  | cs => some ([], cs)

/-- The exponent that a run ends with; it is zero where there is none. -/
def exponent? : List Char → Option Int
  | [] => some 0
  | c :: cs =>
    if c = 'e' || c = 'E' then
      let (negative, body) := Decimal.takeSign cs
      (digits? 10 body).map fun n => if negative then -(n : Int) else n
    else none

/-- The decimal of digits with a fraction, an exponent or both. -/
def decimal? (cs : List Char) : Option Decimal :=
  let whole := cs.takeWhile isGrouped
  let rest := cs.dropWhile isGrouped
  if rest.isEmpty || hasLeadingZero whole then none
  else
    (ungroup whole).bind fun whole =>
    (fraction? rest).bind fun (fraction, rest) =>
    (exponent? rest).map (Decimal.ofParts whole fraction)

/-- Reads a floating point number. One that is too large is refused, one that is too small becomes
an infinity; the infinities have names. -/
def float? (cs : List Char) : Option Double :=
  let (negative, body) := Decimal.takeSign cs
  if body = ['i', 'n', 'f'] then some (.infinite negative)
  else if body = ['n', 'a', 'n'] then some (.nan negative)
  else
    (decimal? body).bind fun d =>
      let x : Double := d.toWord negative
      if x.isInfinite && !negative then none else some x

/-! ## Dates and times -/

/-- Two digits between two bounds, and what follows them. -/
def pair? (low high : Nat) : List Char → Option (Nat × List Char)
  | a :: b :: cs =>
    (Numeral.ofDigits? 10 [a, b]).bind fun n =>
      if low ≤ n && n ≤ high then some (n, cs) else none
  | _ => none

/-- What follows a mark. -/
def after? (mark : Char) : List Char → Option (List Char)
  | c :: cs => if c = mark then some cs else none
  | [] => none

/-- What follows a date that exists. -/
def afterDate? (cs : List Char) : Option (List Char) :=
  (Numeral.ofDigits? 10 (cs.take 4)).bind fun year =>
  if (cs.take 4).length < 4 then none
  else
    (after? '-' (cs.drop 4)).bind fun cs =>
    (pair? 1 12 cs).bind fun (month, cs) =>
    (after? '-' cs).bind fun cs =>
    (pair? 1 31 cs).bind fun (day, cs) =>
    if day ≤ Date.daysInMonth year month then some cs else none

/-- What follows a fraction of a second. -/
def afterFraction? : List Char → Option (List Char)
  | '.' :: cs =>
    let (digits, rest) := Decimal.takeDigits cs
    if digits.isEmpty then none else some rest
  | cs => some cs

/-- What follows a time of day; a minute may have a leap second. -/
def afterTime? (cs : List Char) : Option (List Char) :=
  (pair? 0 23 cs).bind fun (_, cs) =>
  (after? ':' cs).bind fun cs =>
  (pair? 0 59 cs).bind fun (_, cs) =>
  (after? ':' cs).bind fun cs =>
  (pair? 0 60 cs).bind fun (_, cs) =>
  afterFraction? cs

/-- Whether a text is nothing or a distance from universal time. -/
def isOffset : List Char → Bool
  | [] => true
  | c :: cs =>
    if c = 'Z' || c = 'z' then cs.isEmpty
    else if c = '+' || c = '-' then
      ((pair? 0 23 cs).bind fun (_, cs) =>
       (after? ':' cs).bind fun cs =>
       (pair? 0 59 cs).map fun (_, cs) => cs.isEmpty).getD false
    else false

/-- Whether a character may stand between a date and a time of day. -/
def joinsTime (c : Char) : Bool := c = 'T' || c = 't' || c = ' '

/-- Whether a text is a date, a time of day, or both with an optional offset. -/
def isMoment (cs : List Char) : Bool :=
  match afterDate? cs with
  | some [] => true
  | some (c :: rest) => joinsTime c && ((afterTime? rest).map isOffset).getD false
  | none => afterTime? cs = some []

/-! ## Scalars -/

/-- Cuts the run of a number or a date. -/
def cutScalar (cs : List Char) : List Char × List Char :=
  let run := cs.takeWhile isScalarChar
  match cs.dropWhile isScalarChar with
  | ' ' :: c :: rest =>
    if afterDate? run = some [] && c.isDigit then
      (run ++ ' ' :: (c :: rest).takeWhile isScalarChar, (c :: rest).dropWhile isScalarChar)
    else (run, ' ' :: c :: rest)
  | rest => (run, rest)

/-- The value of a run. -/
def scalar? (cs : List Char) : Option Document :=
  if cs = "true".toList || cs = "false".toList then some .other
  else if isMoment cs then some .moment
  else
    match float? cs with
    | some x => some (.double x)
    | none => (integer? cs).map .integer

/-- Reads a number, a truth value or a date. -/
def readScalar (cs : List Char) : Option (Document × List Char) :=
  let (run, rest) := cutScalar cs
  (scalar? run).map fun d => (d, rest)

/-! ## Writing -/

/-- A number has a plain point at every size. -/
def floatStyle : FloatStyle := ⟨fun _ => true, true, false, .up, "nan"⟩

/-- A floating point number; what is no number has no sign. -/
def writeFloat (x : Double) : List Char := x.shortestChars floatStyle

end VariableRegistry.Toml

/-
# Texts in TOML

A text stands between quotation marks, where a backslash escapes, or between apostrophes, where
everything stands for itself. Three marks in a row open a text of several lines. The writer takes
the first of these forms in which nothing has to be escaped, so that a text is shown as it is
wherever that can be done.
-/
import VariableRegistry.Numeral

namespace VariableRegistry.Toml

/-! ## Characters -/

/-- Whether a character is white space within a line. -/
def isSpace (c : Char) : Bool := c = ' ' || c = '\t'

/-- Whether a character may stand in a text or a comment as it is: no control character but the
tab. -/
def isTextChar (c : Char) : Bool := c = '\t' || (' ' ≤ c && c ≠ '\x7f')

/-- The character for a letter behind a backslash. -/
def shortEscaped? (e : Char) : Option Char :=
  if e = '"' || e = '\\' then some e
  else if e = 'b' then some '\x08'
  else if e = 't' then some '\t'
  else if e = 'n' then some '\n'
  else if e = 'f' then some '\x0c'
  else if e = 'r' then some '\r'
  else none

/-- The character with a number, if there is one. -/
def charOfNat? (n : Nat) : Option Char := if n.isValidChar then some (Char.ofNat n) else none

/-! ## Finding the end -/

/-- Cuts a text at the mark that ends it, behind characters that were read before, last one first.
Where a backslash escapes, the character behind it is passed over. -/
def cut (mark : Char) (escapes : Bool) (read : List Char) :
    List Char → Option (List Char × List Char)
  | [] => none
  | [c] => if c = mark then some (read.reverse, []) else none
  | c :: d :: cs =>
    if c = mark then some (read.reverse, d :: cs)
    else if escapes && c = '\\' then cut mark escapes (d :: c :: read) cs
    else cut mark escapes (c :: read) (d :: cs)

/-- Takes up to two further marks at the end of a text of several lines into the text. -/
def closeLines (mark : Char) (read : List Char) : List Char → List Char × List Char
  | c :: d :: cs =>
    if c = mark then
      if d = mark then ((mark :: mark :: read).reverse, cs) else ((mark :: read).reverse, d :: cs)
    else (read.reverse, c :: d :: cs)
  | [c] => if c = mark then ((mark :: read).reverse, []) else (read.reverse, [c])
  | [] => (read.reverse, [])

/-- Cuts a text of several lines at the three marks that end it. -/
def cutLines (mark : Char) (escapes : Bool) (read : List Char) :
    List Char → Option (List Char × List Char)
  | a :: b :: c :: cs =>
    if a = mark && b = mark && c = mark then some (closeLines mark read cs)
    else if escapes && a = '\\' then cutLines mark escapes (b :: a :: read) (c :: cs)
    else cutLines mark escapes (a :: read) (b :: c :: cs)
  | _ => none

/-! ## Reading -/

/-- What the next character of a text with escapes is read as. -/
inductive EscapeState where
  /-- A character of the text. -/
  | plain
  /-- The character behind a backslash. -/
  | escaped
  /-- A hexadecimal digit of a number: how many are left, and the number so far. -/
  | number (left n : Nat)
  /-- Space behind a backslash that joins two lines. -/
  | joining
  /-- Space before the first character of a joined line. -/
  | joined
deriving DecidableEq, Repr

/-- Reads the inside of a text with escapes; only a text of several lines may hold a line end or
join lines. -/
def unescape (lines : Bool) : EscapeState → List Char → Option (List Char)
  | .plain, [] => some []
  | .joined, [] => some []
  | _, [] => none
  | .plain, c :: cs =>
    if c = '\\' then unescape lines .escaped cs
    else if isTextChar c || (lines && c = '\n') then (unescape lines .plain cs).map (c :: ·)
    else none
  | .escaped, c :: cs =>
    if c = 'u' then unescape lines (.number 4 0) cs
    else if c = 'U' then unescape lines (.number 8 0) cs
    else if lines && isSpace c then unescape lines .joining cs
    else if lines && c = '\n' then unescape lines .joined cs
    else (shortEscaped? c).bind fun x => (unescape lines .plain cs).map (x :: ·)
  | .number left n, c :: cs =>
    (Numeral.digit? 16 c).bind fun d =>
      if 1 < left then unescape lines (.number (left - 1) (n * 16 + d)) cs
      else (charOfNat? (n * 16 + d)).bind fun x => (unescape lines .plain cs).map (x :: ·)
  | .joining, c :: cs =>
    if isSpace c then unescape lines .joining cs
    else if c = '\n' then unescape lines .joined cs
    else none
  | .joined, c :: cs =>
    if isSpace c || c = '\n' then unescape lines .joined cs
    else if c = '\\' then unescape lines .escaped cs
    else if isTextChar c then (unescape lines .plain cs).map (c :: ·)
    else none

/-- Reads the inside of a text without escapes. -/
def verbatim (lines : Bool) (cs : List Char) : Option (List Char) :=
  if cs.all fun c => isTextChar c || (lines && c = '\n') then some cs else none

/-- The text with every line end as one character. -/
def unifyLineEnds : List Char → List Char
  | [] => []
  | [c] => [c]
  | c :: d :: cs =>
    if c = '\r' && d = '\n' then unifyLineEnds (d :: cs) else c :: unifyLineEnds (d :: cs)

/-- The text without a line end at its front. -/
def dropLineEnd : List Char → List Char
  | '\n' :: cs => cs
  | cs => cs

/-- Reads a text of one line behind its opening mark. -/
def readLine (mark : Char) (cs : List Char) : Option (String × List Char) :=
  let escapes := mark = '"'
  (cut mark escapes [] cs).bind fun (inside, rest) =>
    (if escapes then unescape false .plain inside else verbatim false inside).map fun s =>
      (String.ofList s, rest)

/-- Reads a text of several lines behind its three opening marks. A line end right behind them does
not belong to the text. -/
def readLines (mark : Char) (cs : List Char) : Option (String × List Char) :=
  let escapes := mark = '"'
  (cutLines mark escapes [] cs).bind fun (inside, rest) =>
    let inside := dropLineEnd (unifyLineEnds inside)
    (if escapes then unescape true .plain inside else verbatim true inside).map fun s =>
      (String.ofList s, rest)

/-- Reads a text from its opening mark on. -/
def readText : List Char → Option (String × List Char)
  | '"' :: '"' :: '"' :: cs => readLines '"' cs
  | '"' :: cs => readLine '"' cs
  | '\'' :: '\'' :: '\'' :: cs => readLines '\'' cs
  | '\'' :: cs => readLine '\'' cs
  | _ => none

/-! ## Writing -/

/-- The form of a text. -/
structure TextForm where
  mark : Char
  /-- Whether the text may have several lines. -/
  lines : Bool
deriving DecidableEq, Repr

/-- The length of the longest run of a character, behind a run of some length. -/
def longestRun (c : Char) (run : Nat) : List Char → Nat
  | [] => run
  | d :: cs => if d = c then longestRun c (run + 1) cs else max run (longestRun c 0 cs)

/-- Whether a character can stand in a text by an escape only. -/
def needsEscape (c : Char) : Bool := !isTextChar c && c ≠ '\n'

/-- Whether a text can stand in a form as it is; a tab is no obstacle to any form. -/
def TextForm.showsPlainly (form : TextForm) (cs : List Char) : Bool :=
  !cs.any needsEscape && (form.mark ≠ '"' || !cs.contains '\\')
    && (form.lines || !cs.contains '\n')
    && longestRun form.mark 0 cs ≤ if form.lines then 2 else 0

/-- The forms in the order in which they are tried. -/
def TextForm.all : List TextForm := [⟨'"', false⟩, ⟨'\'', false⟩, ⟨'"', true⟩, ⟨'\'', true⟩]

/-- The form that a text is written in; with escapes if no form shows it plainly. -/
def TextForm.of (cs : List Char) : TextForm :=
  (all.find? fun form => form.showsPlainly cs).getD ⟨'"', cs.contains '\n'⟩

/-- A character other than a quotation mark as it stands in a text with escapes. -/
def escape (lines : Bool) (c : Char) : List Char :=
  if c = '\x08' then ['\\', 'b']
  else if c = '\t' then ['\\', 't']
  else if c = '\n' then if lines then ['\n'] else ['\\', 'n']
  else if c = '\x0c' then ['\\', 'f']
  else if c = '\r' then ['\\', 'r']
  else if c = '\\' then ['\\', '\\']
  else if isTextChar c then [c]
  else '\\' :: 'u' :: (Numeral.padded 4 (Nat.toDigits 16 c.toNat)).map Char.toUpper

/-- The inside of a text with escapes, behind a run of quotation marks that were not escaped. In a
text of several lines two of them may stand together. -/
def escapeFrom (lines : Bool) (run : Nat) : List Char → List Char
  | [] => []
  | c :: cs =>
    if c = '"' then
      if lines && run < 2 then '"' :: escapeFrom lines (run + 1) cs
      else '\\' :: '"' :: escapeFrom lines 0 cs
    else escape lines c ++ escapeFrom lines 0 cs

/-- Writes a text. -/
def writeText (s : String) : List Char :=
  let cs := s.toList
  let form := TextForm.of cs
  let marks := List.replicate (if form.lines then 3 else 1) form.mark
  marks ++ (if form.lines && cs.contains '\n' then ['\n'] else [])
    ++ (if form.mark = '"' then escapeFrom form.lines 0 cs else cs) ++ marks

end VariableRegistry.Toml

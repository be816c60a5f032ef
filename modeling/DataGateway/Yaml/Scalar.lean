import DataGateway.Text.Digits
import DataGateway.Yaml.Spot

/-!
# Scalars that are folded

A plain or quoted scalar may go on over several lines. Between two of its lines one break reads as a
space, and of several breaks the first is dropped; blanks around a break are dropped. An escaped
break reads as nothing, and the breaks after it all stand.
-/

namespace DataGateway.Yaml

/-- How a scalar is written. -/
inductive Style
  | plain | single | double | literal | folded
  deriving DecidableEq, Repr

/-- A scalar with its tag, if it has one. -/
structure Scalar where
  text : String
  style : Style := .plain
  tag : Option String := none
  deriving DecidableEq, Repr

/-- The blanks, or the first break and the others, between two characters of a scalar. -/
inductive Gap
  | blanks (cs : List Char)
  | breaks (first more : List Char)
  deriving DecidableEq

namespace Gap

def empty : Gap := blanks []

/-- A gap with one more blank or break. -/
def add (c : Char) : Gap → Gap
  | blanks cs => if isBreak c then breaks [c] [] else blanks (cs ++ [c])
  | breaks first more => breaks first (if isBreak c then more ++ [c] else more)

/-- Whether a gap ends a line. -/
def hasBreak : Gap → Bool
  | blanks _ => false
  | breaks _ _ => true

/-- What a gap reads as. -/
def fold : Gap → List Char
  | blanks cs => cs
  | breaks ['\n'] more => if more = [] then [' '] else more
  | breaks first more => first ++ more

end Gap

/-- The text of a plain scalar from a gap on, whether a break comes after it, and the spots after
both. In a block it goes on in lines that are indented by `floor` or more, and between brackets, if
`flow`, up to a bracket or a comma. A tab is no indentation. -/
def plainFrom (flow : Bool) (floor : Nat) (gap : Gap) :
    List Spot → Option (List Char × Bool × List Spot)
  | [] => some ([], gap.hasBreak, [])
  | s :: rest =>
    let c := s.char
    let stop := some ([], gap.hasBreak, s :: rest)
    if isBlank c || isBreak c then
      if c = '\t' ∧ gap.hasBreak ∧ s.column < floor then none
      else plainFrom flow floor (gap.add c) rest
    else if gap ≠ .empty ∧ (atMarker (s :: rest) ∨ c = '#' ∨ (!flow ∧ s.column < floor)) then stop
    else if flow ∧ c = ':' ∧ (next? rest).any ",?[]\x7b\x7d".toList.contains then none
    else if (c = ':' ∧ isEnd (next? rest)) ∨ (flow ∧ ",[]\x7b\x7d".toList.contains c) then stop
    else do
      let (text, hasBreak, rest) ← plainFrom flow floor .empty rest
      return (gap.fold ++ c :: text, hasBreak, rest)

/-- The text between single quotes from a gap on, and the spots after it. A quote that is doubled
stands for itself. -/
def singleQuoted? (gap : Gap) : List Spot → Option (List Char × List Spot)
  | [] => none
  | s :: rest =>
    if isBlank s.char || isBreak s.char then singleQuoted? (gap.add s.char) rest
    else if atMarker (s :: rest) then none
    else if s.char = '\'' then
      match rest with
      | t :: rest' =>
        if t.char = '\'' then do
          let (text, rest) ← singleQuoted? .empty rest'
          return (gap.fold ++ '\'' :: text, rest)
        else some (gap.fold, rest)
      | [] => some (gap.fold, [])
    else do
      let (text, rest) ← singleQuoted? .empty rest
      return (gap.fold ++ s.char :: text, rest)

/-- How many hexadecimal digits come after an escape's letter. -/
def escapeWidth : Char → Nat
  | 'x' => 2
  | 'u' => 4
  | 'U' => 8
  | _ => 0

/-- The character that an escape's letter and its digits stand for. -/
def escaped? (letter : Char) (digits : List Char) : Option Char :=
  if digits.length < escapeWidth letter then none
  else if escapeWidth letter = 0 then
    (shortEscapes.find? (·.2 = letter)).map (·.1)
      <|> if [' ', '/', '\t'].contains letter then some letter else none
  else do
    let n ← Text.natural? 16 digits
    if n.isValidChar then some (Char.ofNat n) else none

/-- The text between double quotes from a gap on, and the spots after it. -/
def doubleQuoted? (gap : Gap) (spots : List Spot) : Option (List Char × List Spot) :=
  match spots with
  | [] => none
  | s :: rest =>
    if isBlank s.char || isBreak s.char then doubleQuoted? (gap.add s.char) rest
    else if atMarker (s :: rest) then none
    else if s.char = '"' then some (gap.fold, rest)
    else if s.char = '\\' then
      match rest with
      | [] => none
      | t :: rest =>
        if isBreak t.char then do
          let (text, rest) ← doubleQuoted? (.breaks [] []) rest
          return (gap.fold ++ text, rest)
        else do
          let width := escapeWidth t.char
          let c ← escaped? t.char (chars (rest.take width))
          let (text, rest) ← doubleQuoted? .empty (rest.drop width)
          return (gap.fold ++ c :: text, rest)
    else do
      let (text, rest) ← doubleQuoted? .empty rest
      return (gap.fold ++ s.char :: text, rest)
termination_by spots.length
decreasing_by all_goals simp only [List.length_cons, List.length_drop]; omega

end DataGateway.Yaml

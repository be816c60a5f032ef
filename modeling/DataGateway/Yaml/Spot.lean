import DataGateway.Yaml.Character

/-!
# Places in a text

Where a character stands decides what it means: indentation is a column, and the line between two
documents begins in column 0. A text is therefore read as its `Spot`s, which lose none of its
characters. Breaks of the common kinds count as one character each.
-/

namespace DataGateway.Yaml

/-- A character where it stands. Lines and columns are counted from 0. -/
structure Spot where
  char : Char
  line : Nat
  column : Nat
  deriving DecidableEq, Repr

/-- A text with its breaks of the common kinds as one character each. -/
def normalize : List Char → List Char
  | '\r' :: '\n' :: cs => '\n' :: normalize cs
  | '\r' :: cs => '\n' :: normalize cs
  | '\x85' :: cs => '\n' :: normalize cs
  | c :: cs => c :: normalize cs
  | [] => []

/-- The spots of characters that begin at a line and a column. -/
def spotsFrom (line column : Nat) : List Char → List Spot
  | [] => []
  | c :: cs =>
    ⟨c, line, column⟩
      :: if isBreak c then spotsFrom (line + 1) 0 cs else spotsFrom line (column + 1) cs

/-- The spots of a text that holds no character but those that may stand in a document. -/
def spots? (s : String) : Option (List Spot) :=
  if s.toList.all isAllowed then some (spotsFrom 0 0 (normalize s.toList)) else none

/-- The characters of spots. -/
def chars (spots : List Spot) : List Char := spots.map Spot.char

theorem chars_spotsFrom (line column : Nat) (cs : List Char) :
    chars (spotsFrom line column cs) = cs := by
  induction cs generalizing line column with
  | nil => rfl
  | cons c cs ih =>
    simp only [chars] at ih
    simp only [chars, spotsFrom, List.map_cons]
    split <;> rw [ih]

/-- The character that comes next. -/
def next? (spots : List Spot) : Option Char := spots.head?.map Spot.char

/-- The characters in front that satisfy a condition, and the spots after them. -/
def span (p : Char → Bool) (spots : List Spot) : List Char × List Spot :=
  (chars (spots.takeWhile fun s => p s.char), spots.dropWhile fun s => p s.char)

theorem span_append (p : Char → Bool) (spots : List Spot) :
    (span p spots).1 ++ chars (span p spots).2 = chars spots := by
  simp only [span, chars, ← List.map_append, List.takeWhile_append_dropWhile]

def skipBlanks (spots : List Spot) : List Spot := spots.dropWhile fun s => isBlank s.char

/-- What comes after the end of a line, which may hold a comment but nothing else. -/
def endLine (spots : List Spot) : Option (List Spot) :=
  let rest := skipBlanks spots
  let rest := if next? rest = some '#' then rest.dropWhile fun s => !isBreak s.char else rest
  if (next? rest).all isBreak then some (rest.drop 1) else none

/-- Whether a line comes next that ends a document. -/
def atMarker (spots : List Spot) : Bool :=
  spots.head?.any (·.column = 0) && beginsMarker (chars (spots.take 3))
    && isEnd (next? (spots.drop 3))

end DataGateway.Yaml

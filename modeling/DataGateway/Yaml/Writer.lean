import DataGateway.Yaml.Plain
import DataGateway.Yaml.Scalar

/-!
# Writing YAML

A text is written in the plainest of four styles from which it can be read back: plainly, between
single quotes, which escape nothing but themselves, as a literal block of indented lines, which is
for texts with line breaks, or between double quotes, where every character has an escape.
-/

namespace DataGateway.Yaml

/-- Whether two neighbours in a text satisfy a condition. -/
def anyPair (p : Char → Char → Bool) (cs : List Char) : Bool :=
  (cs.zip cs.tail).any fun (a, b) => p a b

/-- Whether only double quotes can hold a text: a character has no graphic, or a space would be lost
before a break. -/
def needsEscapes (cs : List Char) : Bool :=
  cs.any (fun c => !isPrintable c) || anyPair (fun a b => a == ' ' && isBreak b) cs

/-- Whether a text can be told from the structure around it. -/
def allowsPlain (cs : List Char) : Bool :=
  !(needsEscapes cs || cs.any isBreak || cs.head? == some ' ' || cs.getLast? == some ' '
    || beginsIndicator cs || beginsMarker cs || cs.getLast? == some ':'
    || anyPair (fun a b => (a == ':' && isBlank b) || (isBlank a && b == '#')) cs)

def allowsSingle (cs : List Char) : Bool :=
  !(needsEscapes cs || anyPair (fun a b => isBreak a && b == ' ') cs)

def allowsLiteral (cs : List Char) : Bool := !(needsEscapes cs || cs.getLast? == some ' ')

/-- The style of a text. -/
def style (s : String) : Style :=
  let cs := s.toList
  if cs.contains '\n' then if allowsLiteral cs then .literal else .double
  else if standsForItself s && allowsPlain cs then .plain
  else if allowsSingle cs then .single
  else .double

theorem style_ne_folded (s : String) : style s ≠ .folded := by
  unfold style
  simp only
  repeat' split
  all_goals decide

/-- How far the lines of a text are indented. -/
def indent : List Char := [' ', ' ']

/-- A text with every line after the first break indented, and its quotes doubled. -/
def singleFrom : (afterBreak : Bool) → List Char → List Char
  | afterBreak, [] => if afterBreak then indent else []
  | afterBreak, c :: cs =>
    if isBreak c then c :: singleFrom true cs
    else
      (if afterBreak then indent else []) ++ (if c = '\'' then [c, c] else [c])
        ++ singleFrom false cs

/-- A text with every line indented that is not empty. -/
def literalFrom : (afterBreak : Bool) → List Char → List Char
  | _, [] => []
  | afterBreak, c :: cs =>
    if isBreak c then c :: literalFrom true cs
    else (if afterBreak then indent else []) ++ c :: literalFrom false cs

/-- What a literal block says at its beginning: its indentation, if its first line does not show it,
and how many of the breaks at its end belong to it. -/
def literalHints (cs : List Char) : List Char :=
  (if cs.head?.any (fun c => c == ' ' || isBreak c) then ['2'] else [])
  ++ match cs.reverse with
    | [] => ['-']
    | last :: before =>
      if !isBreak last then ['-']
      else if before.head?.all isBreak then ['+'] else []

/-- A character between double quotes. -/
def escape (c : Char) : List Char :=
  if isPrintable c && !isBreak c && c != '"' && c != '\\' then [c]
  else match shortEscapes.lookup c with
    | some letter => ['\\', letter]
    | none =>
      let numbered := fun (letter : Char) (width : Nat) =>
        '\\' :: letter :: (Text.fixed 16 width c.toNat).map Char.toUpper
      if c.toNat < 0x100 then numbered 'x' 2
      else if c.toNat < 0x10000 then numbered 'u' 4
      else numbered 'U' 8

/-- A text as a scalar, in its style. No text is folded. -/
def scalar (s : String) : List Char :=
  match style s with
  | .plain => s.toList
  | .single => '\'' :: singleFrom false s.toList ++ ['\'']
  | .double => '"' :: s.toList.flatMap escape ++ ['"']
  | .literal | .folded => '|' :: literalHints s.toList ++ '\n' :: literalFrom true s.toList

/-- One entry of a block mapping. A scalar that ends in a break ends its own line. -/
def entry (key : String) (value : List Char) : List Char :=
  key.toList ++ [':', ' '] ++ value ++ if value.getLast?.any isBreak then [] else ['\n']

end DataGateway.Yaml

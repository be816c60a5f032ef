import DataGateway.Yaml.Block
import DataGateway.Yaml.Token

/-!
# Indentation

Reading a text to its tokens. A block begins where its first item or key stands further right than
the blocks around it, and ends where something stands further left. A key is known only by the colon
after it, so the place where one may have begun is kept as a `Candidate` until the colon comes or
the line ends; then the tokens before it are put in. Between brackets indentation means nothing.
-/

namespace DataGateway.Yaml

/-- Where a key may have begun, after so many tokens. A block whose keys stand in the same column
requires one there. -/
structure Candidate where
  required : Bool
  before : Nat
  line : Nat
  column : Nat

/-- A text read in part: what is left of it, the tokens so far, the columns of the blocks that are
open, innermost first, and the candidates of the innermost brackets, or the block, and of what is
around them. -/
structure Scan where
  rest : List Spot
  tokens : Array Token
  columns : List Nat
  keyAllowed : Bool
  candidate : Option Candidate
  outer : List (Option Candidate)

namespace Scan

/-- Whether brackets are open. -/
def flow (s : Scan) : Bool := !s.outer.isEmpty

/-- The column that belongs to the innermost block and is not one of its own. -/
def floor (s : Scan) : Nat := s.columns.head?.elim 0 (· + 1)

def push (s : Scan) (t : Token) : Scan := { s with tokens := s.tokens.push t }

/-- A token is read, whose spots are those before `rest`. -/
def emit (s : Scan) (t : Token) (rest : List Spot) : Scan := { s.push t with rest }

/-- The next token, past blanks, breaks and comments. In a block a key may begin a line, and a tab
is a blank only where no key may begin. -/
def skipFrom (flow keyAllowed comment : Bool) : List Spot → Bool × List Spot
  | [] => (keyAllowed, [])
  | s :: rest =>
    let c := s.char
    let isSpace := c = ' ' ∨ (c = '\t' ∧ (flow ∨ !keyAllowed)) ∨ (c = byteOrderMark ∧ s.column = 0)
    if isBreak c then skipFrom flow (keyAllowed || !flow) false rest
    else if comment ∨ isSpace then skipFrom flow keyAllowed comment rest
    else if c = '#' then skipFrom flow keyAllowed true rest
    else (keyAllowed, s :: rest)

def skip (s : Scan) : Scan :=
  let (keyAllowed, rest) := skipFrom s.flow s.keyAllowed false s.rest
  { s with keyAllowed, rest }

/-- Whether no colon can make a candidate a key any more: a key is one line of no more than 1024
characters. -/
def isPast (here : Spot) (c : Candidate) : Bool :=
  c.line < here.line || c.column + 1024 < here.column

/-- Without the candidates that are past, none of which may be required. -/
def dropPast? (here : Spot) (s : Scan) : Option Scan :=
  let isLost := fun (c : Option Candidate) => c.any fun c => c.required && isPast here c
  if isLost s.candidate || s.outer.any isLost then none
  else
    let keep := fun (c : Option Candidate) => c.filter (!isPast here ·)
    some { s with candidate := keep s.candidate, outer := s.outer.map keep }

/-- Without the innermost candidate, which may not be required. -/
def dropKey? (s : Scan) : Option Scan :=
  if s.candidate.any (·.required) then none else some { s with candidate := none }

/-- With a candidate here, if a key is allowed. -/
def keepKey? (here : Spot) (s : Scan) : Option Scan :=
  if s.keyAllowed then do
    let s ← s.dropKey?
    let required := !s.flow && s.columns.head? == some here.column
    return { s with candidate := some ⟨required, s.tokens.size, here.line, here.column⟩ }
  else some s

/-- With the blocks ended that stand in columns for which a condition holds. -/
def endBlocks (ends : Nat → Bool) (s : Scan) : Scan :=
  if s.flow then s
  else
    let columns := s.columns.dropWhile ends
    let ended := List.replicate (s.columns.length - columns.length) Token.blockEnd
    { s with columns, tokens := s.tokens ++ ended }

/-- With a block begun in a column, if it stands further right than the others. Its start is put in
after so many tokens. -/
def beginBlock (column : Nat) (start : Token) (before : Nat) (s : Scan) : Scan :=
  if s.flow || s.columns.head?.any (column ≤ ·) then s
  else
    { s with
      columns := column :: s.columns
      tokens := s.tokens.insertIdxIfInBounds before start }

/-- An item or a key that a mark announces, in a block where one is allowed. -/
def mark? (here : Spot) (start : Token) (s : Scan) : Option Scan :=
  if s.flow then some s
  else if s.keyAllowed then some (s.beginBlock here.column start s.tokens.size)
  else none

/-- A colon. What comes before it was a key if a candidate is there; else the key is left out. -/
def colon? (here : Spot) (rest : List Spot) (s : Scan) : Option Scan :=
  match s.candidate with
  | some k =>
    let s := { s with tokens := s.tokens.insertIdxIfInBounds k.before .key, candidate := none }
    let s := s.beginBlock k.column .mappingStart k.before
    some { s.emit .value rest with keyAllowed := false }
  | none => do
    let s ← s.mark? here .mappingStart
    return { s.emit .value rest with keyAllowed := !s.flow }

/-- Directives and the lines between documents end all blocks. -/
def outside? (s : Scan) (token : Token) (rest : List Spot) : Option Scan := do
  let s ← (s.endBlocks fun _ => true).dropKey?
  return { s.emit token rest with keyAllowed := false }

/-- A part of a node that may be a key. -/
def part? (here : Spot) (s : Scan) (token : Token) (rest : List Spot) : Option Scan := do
  let s ← s.keepKey? here
  return { s.emit token rest with keyAllowed := false }

def opening? (here : Spot) (b : Bracket) (rest : List Spot) (s : Scan) : Option Scan := do
  let s ← s.keepKey? here
  return { s.emit (.opening b) rest with
    keyAllowed := true, candidate := none, outer := s.candidate :: s.outer }

def closing? (b : Bracket) (rest : List Spot) (s : Scan) : Option Scan := do
  let s ← s.dropKey?
  let s := { s.emit (.closing b) rest with keyAllowed := false }
  match s.outer with
  | [] => return s
  | candidate :: outer => return { s with candidate, outer }

/-- Whether a plain scalar begins here. -/
def beginsPlain (flow : Bool) (spots : List Spot) : Bool :=
  match spots with
  | [] => false
  | s :: rest =>
    let c := s.char
    let next := next? rest
    if c = '-' then !next.any isBlank
    else if c = '?' ∨ c = ':' then !flow && !isEnd next
    else !isEnd (some c) && !isIndicator c

/-- The text with the token read that begins at the next spot. -/
def token? (here : Spot) (rest : List Spot) (s : Scan) : Option Scan := do
  let spots := here :: rest
  let c := here.char
  let atEnd := isEnd (next? rest)
  if here.column = 0 ∧ c = '%' then
    let (token, rest) ← directive? rest
    s.outside? token rest
  else if atMarker spots then
    s.outside? (if c = '-' then .documentStart else .documentEnd) (spots.drop 3)
  else if c = '[' then s.opening? here .square rest
  else if c = '\x7b' then s.opening? here .curly rest
  else if c = ']' then s.closing? .square rest
  else if c = '\x7d' then s.closing? .curly rest
  else if c = ',' then
    return { (← s.dropKey?).emit .comma rest with keyAllowed := true }
  else if c = '-' ∧ atEnd then
    let s ← (← s.mark? here .sequenceStart).dropKey?
    return { s.emit .item rest with keyAllowed := true }
  else if c = '?' ∧ (s.flow ∨ atEnd) then
    let s ← (← s.mark? here .mappingStart).dropKey?
    return { s.emit .key rest with keyAllowed := !s.flow }
  else if c = ':' ∧ (s.flow ∨ atEnd) then s.colon? here rest
  else if c = '*' then
    let (name, rest) ← anchorName? rest
    s.part? here (.reference name) rest
  else if c = '&' then
    let (name, rest) ← anchorName? rest
    s.part? here (.anchor name) rest
  else if c = '!' then
    let (token, rest) ← tag? s.flow rest
    s.part? here token rest
  else if (c = '|' ∨ c = '>') ∧ !s.flow then
    let (text, rest) ← block? (c = '|') s.floor rest
    let style := if c = '|' then Style.literal else .folded
    return { (← s.dropKey?).emit (.scalar style (String.ofList text)) rest with keyAllowed := true }
  else if c = '\'' then
    let (text, rest) ← singleQuoted? .empty rest
    s.part? here (.scalar .single (String.ofList text)) rest
  else if c = '"' then
    let (text, rest) ← doubleQuoted? .empty rest
    s.part? here (.scalar .double (String.ofList text)) rest
  else if beginsPlain s.flow spots then
    let (text, hasBreak, rest) ← plainFrom s.flow s.floor .empty spots
    let s ← s.part? here (.scalar .plain (String.ofList text)) rest
    return { s with keyAllowed := hasBreak }
  else none

/-- The tokens of a text. The fuel is the number of spots, of which every token takes one. -/
def run (s : Scan) : (fuel : Nat) → Option (List Token)
  | 0 => none
  | fuel + 1 => do
    let s := s.skip
    match s.rest with
    | [] => return (← (s.endBlocks fun _ => true).dropKey?).tokens.toList
    | here :: rest =>
      let s ← s.dropPast? here
      run (← (s.endBlocks (here.column < ·)).token? here rest) fuel

end Scan

/-- The tokens of a text, which begins with no block. -/
def tokens? (spots : List Spot) : Option (List Token) :=
  Scan.run ⟨spots, #[], [], true, none, []⟩ (spots.length + 1)

end DataGateway.Yaml

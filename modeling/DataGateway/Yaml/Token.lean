import DataGateway.Text.Digits
import DataGateway.Yaml.Scalar

/-!
# Tokens

A document is a row of tokens: scalars, the marks that put them together, what is said about a node
before it, and directives before all. Blocks have no brackets of their own; `sequenceStart`,
`mappingStart`, `blockEnd` and a `key` before a colon stand for what their indentation says.
-/

namespace DataGateway.Yaml

/-- The brackets of a sequence and of a mapping. -/
inductive Bracket
  | square | curly
  deriving DecidableEq, Repr

inductive Token
  | version (major minor : Nat)
  | handle (name start : String)
  | documentStart
  | documentEnd
  | sequenceStart
  | mappingStart
  | blockEnd
  | opening (b : Bracket)
  | closing (b : Bracket)
  | comma
  | item
  | key
  | value
  | anchor (name : String)
  | reference (name : String)
  | tag (handle suffix : String)
  | scalar (style : Style) (text : String)
  deriving DecidableEq, Repr

/-- The name of an anchor, which ends where a scalar might. -/
def anchorName? (spots : List Spot) : Option (String × List Spot) :=
  let (name, rest) := span isWord spots
  let next := next? rest
  if name ≠ [] ∧ (isEnd next ∨ next.any "?:,]\x7d%@\x60".toList.contains) then
    some (String.ofList name, rest)
  else none

/-- A character of a tag; a `bare` one may hold no marks that stand between brackets. -/
def isTagChar (bare : Bool) (c : Char) : Bool :=
  isWord c || ";/?:@&=+$.%!~*'()".toList.contains c || (!bare && ",[]".toList.contains c)

/-- How many octets come after the first of a character. -/
def octetsAfter? (lead : Nat) : Option Nat :=
  if lead < 0x80 then some 0
  else if lead < 0xc0 then none
  else if lead < 0xe0 then some 1
  else if lead < 0xf0 then some 2
  else if lead < 0xf8 then some 3
  else none

/-- A tag with its escaped octets as characters of their number, when a character still wants `more`
octets. -/
def unescapeTag? (more : Nat) : List Char → Option (List Char)
  | [] => if more = 0 then some [] else none
  | '%' :: a :: b :: cs => do
    let n ← Text.natural? 16 [a, b]
    let more ← if more = 0 then octetsAfter? n else if n / 64 = 2 then some (more - 1) else none
    return Char.ofNat n :: (← unescapeTag? more cs)
  | c :: cs => if more = 0 ∧ c ≠ '%' then (c :: ·) <$> unescapeTag? 0 cs else none

/-- The text of a tag up to the first octet of zero, and the spots after it. -/
def tagText? (bare mayBeEmpty : Bool) (spots : List Spot) : Option (String × List Spot) := do
  let (cs, rest) := span (isTagChar bare) spots
  if cs = [] ∧ !mayBeEmpty then none
  else
    let text ← unescapeTag? 0 cs
    return (String.ofList (text.takeWhile (· ≠ '\x00')), rest)

/-- A tag after its first exclamation mark: as a whole between angle brackets, or after a handle. A
mark alone is a tag too. -/
def tag? (flow : Bool) (spots : List Spot) : Option (Token × List Spot) := do
  let (name, rest) := span isWord spots
  let (token, rest) ←
    if next? spots = some '<' then do
      let (text, rest) ← tagText? false false (spots.drop 1)
      if next? rest = some '>' then some (Token.tag "" text, rest.drop 1) else none
    else if next? rest = some '!' then do
      let (suffix, rest) ← tagText? true false (rest.drop 1)
      some (.tag ("!" ++ String.ofList name ++ "!") suffix, rest)
    else do
      let (suffix, rest) ← tagText? true true spots
      some (if suffix = "" then .tag "" "!" else .tag "!" suffix, rest)
  if isEnd (next? rest) ∨ (flow ∧ next? rest = some ',') then some (token, rest) else none

/-- A number of at most nine decimal digits. -/
def versionNumber? (spots : List Spot) : Option (Nat × List Spot) := do
  let (digits, rest) := span Char.isDigit spots
  if 9 < digits.length then none else some (← Text.natural? 10 digits, rest)

/-- The handle that a directive defines. -/
def handleName? (spots : List Spot) : Option (String × List Spot) :=
  let (name, rest) := span isWord (spots.drop 1)
  if next? spots ≠ some '!' then none
  else if next? rest = some '!' then some ("!" ++ String.ofList name ++ "!", rest.drop 1)
  else if name = [] then some ("!", rest)
  else none

/-- A directive after its percent sign, and what comes after its line. -/
def directive? (spots : List Spot) : Option (Token × List Spot) := do
  let (name, rest) := span isWord spots
  if !isEnd (next? rest) then none
  else
    let rest := skipBlanks rest
    match String.ofList name with
    | "YAML" =>
      let (major, rest) ← versionNumber? rest
      if next? rest ≠ some '.' then none
      else
        let (minor, rest) ← versionNumber? (rest.drop 1)
        return (.version major minor, ← endLine rest)
    | "TAG" =>
      let (handle, rest) ← handleName? rest
      if !(next? rest).any isBlank then none
      else
        let (start, rest) ← tagText? false false (skipBlanks rest)
        if isEnd (next? rest) then return (.handle handle start, ← endLine rest) else none
    | _ => none

end DataGateway.Yaml

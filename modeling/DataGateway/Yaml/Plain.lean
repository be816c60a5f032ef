import DataGateway.Text.Digits

/-!
# What plain text means

A plain scalar may be read as something else than a text: as null, a truth value or a number. A text
is therefore written plainly only if it `standsForItself`. Digits after a leading zero are no
number, yet they are kept apart from text as well.
-/

namespace DataGateway.Yaml

open DataGateway.Text (natural? allDigits shortest)

def isNull (s : String) : Bool := ["", "~", "null", "Null", "NULL"].contains s

def boolean? (s : String) : Option Bool :=
  if ["true", "True", "TRUE"].contains s then some true
  else if ["false", "False", "FALSE"].contains s then some false
  else none

/-- A text without the sign at its beginning. -/
def dropSign (cs : List Char) : List Char :=
  match cs with
  | '+' :: rest | '-' :: rest => rest
  | _ => cs

/-- Whether a text is digits after a leading zero. -/
def isZeroLed (s : String) : Bool :=
  match dropSign s.toList with
  | '0' :: c :: rest => allDigits (c :: rest)
  | _ => false

/-- The number that unsigned digits spell, in the radix that they announce. -/
def digits? (cs : List Char) : Option Nat :=
  match cs with
  | '0' :: 'x' :: rest => natural? 16 rest
  | '0' :: 'o' :: rest => natural? 8 rest
  | '0' :: 'b' :: rest => natural? 2 rest
  | _ => natural? 10 cs

/-- The number that a text spells without a minus. -/
def unsigned? (s : String) : Option Nat :=
  if isZeroLed s then none
  else match s.toList with
    | '+' :: rest => digits? rest
    | cs => digits? cs

/-- What a text spells after a minus. -/
def negated? (s : String) : Option Nat :=
  match s.toList with
  | '-' :: rest => if isZeroLed s then none else digits? rest
  | _ => none

/-- Whether a text reads as an integer of at most 128 bits. -/
def isInteger (s : String) : Bool :=
  (unsigned? s).any (· < Nat.pow 2 128) || (negated? s).any (· ≤ Nat.pow 2 127)

/-- The exponent that stands at the end of a decimal number. -/
def exponent? (cs : List Char) : Option Int :=
  match cs with
  | [] => some 0
  | e :: rest =>
    if e ≠ 'e' ∧ e ≠ 'E' then none
    else match rest with
      | '-' :: ds => (natural? 10 ds).map fun n => -(n : Int)
      | '+' :: ds => (natural? 10 ds).map Int.ofNat
      | ds => (natural? 10 ds).map Int.ofNat

/-- The digits and the power of ten of an unsigned decimal number. -/
def decimal? (cs : List Char) : Option (Nat × Int) := do
  let whole := cs.takeWhile Char.isDigit
  let rest := cs.dropWhile Char.isDigit
  let (part, rest) := match rest with
    | '.' :: rest => (rest.takeWhile Char.isDigit, rest.dropWhile Char.isDigit)
    | _ => ([], rest)
  let digits ← natural? 10 (whole ++ part)
  let exponent ← exponent? rest
  return (digits, exponent - part.length)

/-- Whether a decimal number rounds to a finite number of double precision. -/
def isFinite (digits : Nat) (power : Int) : Bool :=
  let magnitude := (shortest 10 digits).length + power
  if digits = 0 ∨ magnitude < 300 then true
  else if 310 < magnitude then false
  else
    let limit := (Nat.pow 2 54 - 1) * Nat.pow 2 970
    if 0 ≤ power then digits * Nat.pow 10 power.toNat < limit
    else digits < limit * Nat.pow 10 (-power).toNat

/-- Whether a text reads as a number of double precision. -/
def isDecimal (s : String) : Bool :=
  [".inf", ".Inf", ".INF", "+.inf", "+.Inf", "+.INF", "-.inf", "-.Inf", "-.INF", ".nan", ".NaN",
    ".NAN"].contains s
  || (decimal? (dropSign s.toList)).any fun (digits, power) => isFinite digits power

/-- Whether a plain scalar with this text is read as the text. -/
def standsForItself (s : String) : Bool :=
  !(isNull s || (boolean? s).isSome || isInteger s || isDecimal s || isZeroLed s)

end DataGateway.Yaml

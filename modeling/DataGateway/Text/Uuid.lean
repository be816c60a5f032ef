import DataGateway.Text.Digits

/-!
# Generated message ids

A message id may be any text; those that are generated are universally unique identifiers of version
four, in five groups of hexadecimal digits. `ofSerial` makes a different one for every serial number
below `2 ^ 48`, and `isNext` finds one at the beginning of a text.
-/

namespace DataGateway.Uuid

open DataGateway.Text (fixed digit?)

/-- The identifier for a serial number. -/
def ofSerial (n : Nat) : String :=
  String.ofList ("00000000-0000-4000-8000-".toList ++ fixed 16 12 n)

/-- How many characters an identifier has. -/
def length : Nat := 36

/-- What each character of an identifier may be: a dash between the groups, the version, one of the
four variants, or any digit. -/
def fits (place : Nat) (c : Char) : Bool :=
  if place = 8 ∨ place = 13 ∨ place = 18 ∨ place = 23 then c == '-'
  else if place = 14 then c == '4'
  else if place = 19 then (digit? c).any fun d => 8 ≤ d && d < 12
  else (digit? c).isSome

/-- Whether a text begins with an identifier. -/
def isNext (cs : List Char) : Bool :=
  (cs.take length).length = length && (cs.take length).zipIdx.all fun (c, place) => fits place c

/-- Whether a text is an identifier. -/
def isUuid (s : String) : Bool := s.toList.length = length && isNext s.toList

end DataGateway.Uuid

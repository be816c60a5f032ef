import DataGateway.Dict
import DataGateway.Wire.Draft
import DataGateway.Wire.Dynamic

/-!
# Layouts

A layout says how a type stands on the wire. A layout of grade `value` describes one MessagePack
value; one of grade `row` describes the fields of a record, one value each, in order. Reading and
writing are each one recursion over the layout, so a law proved for layouts holds of every record.

Three rules run through all layouts. A nil in place of a value reads as nothing, and it is the
field, the list element or the map entry around it that refuses it. A record is an array of exactly
as many elements as it has fields, and its content check runs after it is read and before it is
written. A map that repeats a key keeps the last value, and is written in key order.
-/

namespace DataGateway

open MessagePack (Value)

/-- What a layout describes. -/
inductive Grade
  /-- One value. -/
  | value
  /-- The fields of a record, in order. -/
  | row
  deriving DecidableEq, Repr

/-- How a type stands on the wire. -/
inductive Layout : Grade → Type → Type 1
  | boolean : Layout .value Bool
  | long : Layout .value Int64
  | int : Layout .value Int32
  | text : Layout .value String
  | binary : Layout .value Bytes
  /-- Any value at all; nil is one. -/
  | dynamic : Layout .value Value
  | list {α : Type} (item : Layout .value α) : Layout .value (List α)
  | dict {κ α : Type} [Ord κ] [Std.TransOrd κ] (key : Layout .value κ) (item : Layout .value α) :
    Layout .value (Dict κ α)
  /-- A value that stands for another. -/
  | coded {α β : Type} (base : Layout .value α) (code : β → α)
    (meaning : α → Except ProtocolError β)
    (meaning_code : ∀ b, meaning (code b) = .ok b)
    (code_meaning : ∀ a b, meaning a = .ok b → code b = a) : Layout .value β
  /-- Either of two values: one that begins as a map does, or one that does not. -/
  | mapOr {α β : Type} (left : Layout .value α) (right : Layout .value β) : Layout .value (α ⊕ β)
  /-- A record: an array with one element per field, with a content check. -/
  | record {ρ α : Type} (name : String) (row : Layout .row ρ) (toRow : α → ρ)
    (ofRow : ρ → Except ProtocolError α) (check : α → Except ProtocolError Unit)
    (ofRow_toRow : ∀ a, check a = .ok () → ofRow (toRow a) = .ok a)
    (toRow_ofRow : ∀ r a, ofRow r = .ok a → toRow a = r) : Layout .value α
  /-- No more fields. -/
  | done : Layout .row Unit
  /-- A field that must be present. -/
  | required {α ρ : Type} (name : String) (value : Layout .value α) (rest : Layout .row ρ) :
    Layout .row (α × ρ)
  /-- A field that may be nil. -/
  | optional {α ρ : Type} (name : String) (value : Layout .value α) (rest : Layout .row ρ) :
    Layout .row (Option α × ρ)

/-- A reader of what a layout describes: a value is read in its slot and may be nil, a row is read
for its owner. -/
abbrev Grade.Reading : Grade → Type → Type
  | .value, α => Slot → Reader (Option α)
  | .row, α => String → Reader α

namespace Layout

/-- How many values a layout describes: the number of fields of a row. -/
def count : {g : Grade} → {α : Type} → Layout g α → Nat
  | _, _, done => 0
  | _, _, required _ _ rest => rest.count + 1
  | _, _, optional _ _ rest => rest.count + 1
  | _, _, _ => 1

/-- Reads what a layout describes. -/
def read : {g : Grade} → {α : Type} → Layout g α → g.Reading α
  | _, _, boolean => Reader.boolean
  | _, _, long => Reader.long
  | _, _, int => Reader.int
  | _, _, text => Reader.text
  | _, _, binary => Reader.binary
  | _, _, dynamic => fun _ => some <$> Value.read
  | _, _, list item => fun slot => do
    match ← Reader.arrayLength slot with
    | none => return none
    | some n => some <$> Reader.times n (Reader.required item.read slot)
  | _, _, dict key item => fun slot => do
    match ← Reader.mapLength slot with
    | none => return none
    | some n =>
      let pairs ← Reader.times n do
        let k ← Reader.required key.read slot
        let v ← Reader.required item.read slot
        return (k, v)
      return some (Dict.ofList pairs)
  | _, _, coded base _ meaning _ _ => fun slot => do
    match ← base.read slot with
    | none => return none
    | some a => some <$> Reader.ofExcept (meaning a)
  | _, _, mapOr left right => fun slot => do
    let marker ← Reader.peek
    if marker.family = .map then Option.map .inl <$> left.read slot
    else Option.map .inr <$> right.read slot
  | _, _, record name row _ ofRow check _ _ => fun slot =>
    Reader.typed slot .array fun operand => do
      let found ← Reader.length operand
      if found ≠ row.count then
        throw (.elementCount name row.count found)
      let a ← Reader.ofExcept (ofRow (← row.read name))
      Reader.ofExcept (check a)
      return a
  | _, _, done => fun _ => return ()
  | _, _, required field value rest => fun owner => do
    let a ← Reader.required value.read ⟨field, owner⟩
    let r ← rest.read owner
    return (a, r)
  | _, _, optional field value rest => fun owner => do
    let a ← value.read ⟨field, owner⟩
    let r ← rest.read owner
    return (a, r)

/-- Writes what a layout describes. -/
def write : {g : Grade} → {α : Type} → Layout g α → α → Draft
  | _, _, boolean => Draft.boolean
  | _, _, long => fun n => Draft.integer n.toInt
  | _, _, int => fun n => Draft.integer n.toInt
  | _, _, text => fun s => Draft.string (Text.octets s)
  | _, _, binary => Draft.binary
  | _, _, dynamic => fun v => ⟨v.encode, none⟩
  | _, _, list item => fun as =>
    Draft.arrayHead as.length ++ Draft.concat (as.map item.write)
  | _, _, dict key item => fun d =>
    Draft.mapHead d.entries.length
      ++ Draft.concat (d.entries.map fun e => key.write e.1 ++ item.write e.2)
  | _, _, coded base code _ _ _ => fun b => base.write (code b)
  | _, _, mapOr left right => fun
    | .inl a => left.write a
    | .inr b => right.write b
  | _, _, record _ row toRow _ check _ _ => fun a =>
    Draft.check (check a) ++ (Draft.arrayHead row.count ++ row.write (toRow a))
  | _, _, done => fun _ => Draft.empty
  | _, _, required _ value rest => fun (a, r) => value.write a ++ rest.write r
  | _, _, optional _ value rest => fun (a, r) => a.elim Draft.nil value.write ++ rest.write r

end Layout

end DataGateway

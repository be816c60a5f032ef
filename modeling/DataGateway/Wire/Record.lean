import DataGateway.Wire.Layout

/-!
# Records

A record type stands on the wire as an array of its fields in a fixed order. `Record α` gathers what
there is to say about one such type: the name that errors give it, the layout of its fields, the two
ways between a value and its fields, and its content check. The two ways undo each other: fields
that are accepted are the fields of the value they make, and a value that passes its check is made
again from its fields.
-/

namespace DataGateway

/-- How `α` stands on the wire as a record. -/
structure Record (α : Type) where
  name : String
  {Row : Type}
  row : Layout .row Row
  toRow : α → Row
  ofRow : Row → Except ProtocolError α
  check : α → Except ProtocolError Unit
  ofRow_toRow : ∀ a, check a = .ok () → ofRow (toRow a) = .ok a
  toRow_ofRow : ∀ r a, ofRow r = .ok a → toRow a = r

namespace Record

variable {α : Type}

/-- A record whose fields make a value whatever they are. -/
def plain {ρ : Type} (name : String) (row : Layout .row ρ) (toRow : α → ρ) (ofRow : ρ → α)
    (check : α → Except ProtocolError Unit := fun _ => .ok ())
    (ofRow_toRow : ∀ a, ofRow (toRow a) = a := by intro a; rfl)
    (toRow_ofRow : ∀ r, toRow (ofRow r) = r := by intro r; rfl) : Record α where
  name := name
  row := row
  toRow := toRow
  ofRow r := .ok (ofRow r)
  check := check
  ofRow_toRow a _ := by rw [ofRow_toRow]
  toRow_ofRow r a h := by cases h; exact toRow_ofRow r

/-- How many elements the record's array has. -/
def count (r : Record α) : Nat := r.row.count

/-- A record as a value in its place. -/
def layout (r : Record α) : Layout .value α :=
  .record r.name r.row r.toRow r.ofRow r.check r.ofRow_toRow r.toRow_ofRow

/-- Reads the fields, without the array header around them and without the content check. -/
def unpack (r : Record α) : Reader α := do
  Reader.ofExcept (r.ofRow (← r.row.read r.name))

/-- Writes the fields, without the array header around them and without the content check. -/
def pack (r : Record α) (a : α) : Draft := r.row.write (r.toRow a)

/-- A record on its own as bytes. -/
def encode (r : Record α) (a : α) : Except ProtocolError Bytes := (r.layout.write a).result

/-- The record that bytes hold on their own; the content is checked after the last byte. -/
def decode (r : Record α) : Bytes → Except ProtocolError α :=
  Reader.outcome do
    Reader.sequence r.name r.count
    let a ← r.unpack
    Reader.finish
    Reader.ofExcept (r.check a)
    return a

end Record

end DataGateway

import DataGateway.Record.Code
import DataGateway.Wire.Record

/-!
# Tables

Rows of dynamic values travel beside the descriptors of their columns, in query pages and in
documents alike; a row that is not as wide as there are descriptors makes the whole record invalid.
-/

namespace DataGateway

open MessagePack (Value)

/-- A column: its name, its type and the MIME type of its content. -/
structure FieldDescriptor where
  name : String
  type : FieldType
  mimeType : String
  deriving DecidableEq

def FieldDescriptor.record : Record FieldDescriptor :=
  .plain "FieldHolder"
    (.required "fieldName" .text <| .required "fieldType" FieldType.layout <|
      .required "mimeType" .text .done)
    (fun f => (f.name, f.type, f.mimeType, ()))
    (fun (name, type, mimeType, ()) => ⟨name, type, mimeType⟩)

/-- Refuses, for `owner`, the first row that is not as wide as there are descriptors. -/
def checkRows (owner : String) (descriptors : List FieldDescriptor) (rows : List (List Value)) :
    Except ProtocolError Unit :=
  match rows.zipIdx.find? fun (row, _) => row.length ≠ descriptors.length with
  | some (row, index) => .error (.invalid owner (.rowWidth index row.length descriptors.length))
  | none => .ok ()

theorem checkRows_eq_ok_iff {owner : String} {descriptors : List FieldDescriptor}
    {rows : List (List Value)} :
    checkRows owner descriptors rows = .ok () ↔ ∀ row ∈ rows, row.length = descriptors.length := by
  unfold checkRows
  split
  · rename_i row index found
    simp only [reduceCtorEq, false_iff]
    intro all
    have wide := List.find?_some found
    have here := List.mem_of_find?_eq_some found
    have mem : row ∈ rows := by
      have := List.mem_zipIdx' here
      exact this.2 ▸ List.getElem_mem _
    simp [all row mem] at wide
  · rename_i found
    simp only [true_iff]
    intro row mem
    obtain ⟨index, bound, rfl⟩ := List.mem_iff_getElem.1 mem
    have := List.find?_eq_none.1 found (rows[index], index)
      (by rw [List.mem_iff_getElem]; exact ⟨index, by simpa using bound, by simp⟩)
    simpa using this

end DataGateway

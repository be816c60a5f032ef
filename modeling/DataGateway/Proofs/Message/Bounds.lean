import DataGateway.Proofs.Message.RoundTrip
import DataGateway.Proofs.Wire.Bounds

/-!
# Decoding is bounded by its input

Main statement: whatever a list or a map announces, its reader stops with an error as soon as the
bytes run out, having read no more elements than there were bytes; and what a message or a slice
that was decoded has of elements, entries and fields, at every depth, is less than the bytes that it
was decoded from.
-/

namespace DataGateway

open MessagePack (Value Head Spells)

/-- How many list elements, map entries and fields there are in a header, at every depth. -/
def Header.tally (h : Header) : Nat :=
  Header.record.row.tally (Header.record.toRow h) + Header.record.count

/-- The same for a payload. -/
def Payload.tally (p : Payload) : Nat := p.type.record.layout.tally p.body

theorem Header.tally_le {fields : List Value} {h : Header} (hmatch : Header.Matches fields h) :
    h.tally ≤ (Value.partsItems fields).length := by
  obtain ⟨r, hrow, hr, _⟩ := hmatch
  have hle := Header.record.row.tally_le fields r hrow
  rw [← Header.record.toRow_ofRow r h hr, Layout.length_of_matches _ hrow] at hle
  exact hle

theorem Payload.tally_lt {value : Value} {p : Payload} (hmatch : Payload.Matches value p) :
    p.tally < value.parts.length := by
  have hle := p.type.record.layout.tally_le value p.body hmatch
  simpa [Value.partsItems] using! hle

namespace Inbound

/-- How many list elements, map entries and fields there are in what was decoded, at every depth.
The payload, or the slice, is the field that follows those of the header. -/
def tally : Inbound → Nat
  | message m => m.header.tally + 1 + m.payload.tally
  | slice s => s.header.tally + 1

private theorem parts_frame (fields : List Value) (value : Value) :
    (Value.partsItems [.array (fields ++ [value])]).length
      = (Value.partsItems fields).length + value.parts.length + 1 := by
  simp [Value.partsItems, Value.parts, Value.partsItems_append]

/-- What is left of the bytes is less than the bytes. -/
theorem tally_lt_length {bytes : Bytes} {m : Inbound} (h : decode bytes = .ok m) :
    m.tally < bytes.length := by
  cases m with
  | message m =>
      obtain ⟨_, fields, value, hspells, hmatch, _⟩ := matches_of_decode h
      have hheader := Header.tally_le hmatch.header
      have hpayload := Payload.tally_lt hmatch.payload
      have hbytes := hspells.length_parts_le
      rw [parts_frame] at hbytes
      simp only [tally]
      omega
  | slice s =>
      obtain ⟨fields, hspells, hmatch, _⟩ := matches_of_decode_slice h
      have hheader := Header.tally_le hmatch
      have hbytes := hspells.length_parts_le
      rw [parts_frame] at hbytes
      simp only [tally, Value.parts, List.length_singleton] at hbytes ⊢
      omega

/-- Decoding is bounded by its input. A list that announces more elements than there are bytes left
is refused, and so is a map that announces more entries than there is room for their keys and
values; until then no more were read than there is room for. And the elements, entries and fields
that a message or a slice has when it was decoded, at every depth, are fewer than its bytes. -/
theorem decoding_bounded :
    (∀ {α : Type} (item : Layout .value α) (slot : Slot) (n : Nat) (head rest : Bytes),
      Head .array n head → rest.length < n → ∃ k e u, k ≤ rest.length
        ∧ Reader.FailsAfter (Reader.required item.read slot) k rest e u
        ∧ (Layout.list item).read slot (head ++ rest) = .error e u)
    ∧ (∀ {κ α : Type} [Ord κ] [Std.TransOrd κ] (key : Layout .value κ) (item : Layout .value α)
      (slot : Slot) (n : Nat) (head rest : Bytes), Head .map n head → rest.length < 2 * n →
        ∃ k e u, 2 * k ≤ rest.length ∧ Reader.FailsAfter (key.readEntry item slot) k rest e u
          ∧ (Layout.dict key item).read slot (head ++ rest) = .error e u)
    ∧ ∀ (bytes : Bytes) (m : Inbound), decode bytes = .ok m → m.tally < bytes.length :=
  ⟨fun item slot _ _ _ => item.list_fails slot, fun key item slot _ _ _ => key.dict_fails item slot,
    fun _ _ => tally_lt_length⟩

/-- The most that a head can announce, before two bytes: of a list of texts, of a matrix and of a
map of flags. -/
theorem decoding_bounded_widest :
    (∃ k e u, k ≤ 2
      ∧ Reader.FailsAfter (Reader.required Layout.text.read ⟨"texts", "o"⟩) k [0xa1, 0x61] e u
      ∧ (Layout.list .text).read ⟨"texts", "o"⟩
        ([0xdd, 0xff, 0xff, 0xff, 0xff] ++ [0xa1, 0x61]) = .error e u)
    ∧ (∃ k e u, k ≤ 2
      ∧ Reader.FailsAfter (Reader.required (Layout.list .dynamic).read ⟨"rows", "o"⟩) k
        [0x90, 0x90] e u
      ∧ (Layout.list (.list .dynamic)).read ⟨"rows", "o"⟩
        ([0xdd, 0xff, 0xff, 0xff, 0xff] ++ [0x90, 0x90]) = .error e u)
    ∧ (∃ k e u, 2 * k ≤ 2
      ∧ Reader.FailsAfter (Layout.int.readEntry .boolean ⟨"flags", "o"⟩) k [0x01, 0xc3] e u
      ∧ (Layout.dict .int .boolean).read ⟨"flags", "o"⟩
        ([0xdf, 0xff, 0xff, 0xff, 0xff] ++ [0x01, 0xc3]) = .error e u)
    ∧ ∃ m : Message, decode loose = .ok (.message m) ∧ (message m).tally < loose.length := by
  obtain ⟨hlist, hdict, htally⟩ := decoding_bounded
  have harray : Head .array (0xffffffff : Nat) [0xdd, 0xff, 0xff, 0xff, 0xff] :=
    ⟨0xdd, ⟨.array, .unsigned 4⟩, _, rfl, rfl, rfl, rfl, rfl⟩
  have hmap : Head .map (0xffffffff : Nat) [0xdf, 0xff, 0xff, 0xff, 0xff] :=
    ⟨0xdf, ⟨.map, .unsigned 4⟩, _, rfl, rfl, rfl, rfl, rfl⟩
  obtain ⟨m, hm⟩ := exists_decode_loose
  refine ⟨?_, ?_, ?_, m, hm, htally loose _ hm⟩
  · exact hlist .text ⟨"texts", "o"⟩ _ _ [0xa1, 0x61] harray (by simp)
  · exact hlist (.list .dynamic) ⟨"rows", "o"⟩ _ _ [0x90, 0x90] harray (by simp)
  · exact hdict .int .boolean ⟨"flags", "o"⟩ _ _ [0x01, 0xc3] hmap (by simp)

end Inbound

end DataGateway

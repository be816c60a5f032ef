import DataGateway.Proofs.Message.RoundTrip

/-!
# The grammar of messages

What the decoder accepts can be said in two stages that look at the bytes once each: the bytes are
one well-formed value, and that value is an array of eleven that the layouts of a header and of the
announced payload match. Decoding in one pass accepts the same bytes and reads the same message off
them, except for two things that a well-formed value does not show: it takes the reserved byte for a
nil inside dynamic values, and it follows those only so deep. `decode_eq_message_iff` says so for
bytes in which neither occurs.
-/

namespace DataGateway

open MessagePack (Value Spells Opening)

namespace MessagePack

/-! ### Value positions -/

/-- Bytes after which so many values are due of the one value that began with the first byte. -/
inductive Due : Bytes → Nat → Prop
  | start : Due [] 1
  | opening {front piece : Bytes} {v : Value} {n : Nat} (h : Due front (n + 1))
    (hpiece : Opening False v piece) : Due (front ++ piece) (v.children.length + n)

/-- No byte where a value is due is the reserved one. -/
def ReservedFree (bytes : Bytes) : Prop :=
  ∀ front back n, bytes = front ++ 0xc1 :: back → ¬Due front (n + 1)

theorem ReservedFree.of_not_mem {bytes : Bytes} (h : 0xc1 ∉ bytes) : ReservedFree bytes := by
  rintro front back n rfl
  simp at h

theorem Due.spells {vs : List Value} {bytes : Bytes} (h : Spells False vs bytes) {front : Bytes}
    {n : Nat} (hdue : Due front (vs.length + n)) : Due (front ++ bytes) n := by
  induction h generalizing front n with
  | nil => simpa using hdue
  | @cons v vs piece body back opening _ _ inside rest =>
      rw [List.length_cons, Nat.add_right_comm] at hdue
      have hrest := rest (inside (hdue.opening opening))
      simpa only [List.append_assoc] using hrest

/-- Without the reserved byte where a value is due, what is spelled is well-formed. -/
theorem ReservedFree.wellFormed {bytes : Bytes} (h : ReservedFree bytes) {vs : List Value}
    {part : Bytes} (hspells : Spells True vs part) (front back : Bytes) {n : Nat}
    (hbytes : bytes = front ++ (part ++ back)) (hdue : Due front (vs.length + n)) :
    Spells False vs part := by
  -- After `front` as many values are due as are spelled here, so no reserved byte follows it.
  induction hspells generalizing front back n with
  | nil => exact .nil
  | @cons v vs piece body rest opening _ _ inside ihrest =>
      rw [List.length_cons, Nat.add_right_comm] at hdue
      rcases opening.wellFormed_or with opening | ⟨_, rfl, rfl⟩
      · have hinside := inside (front ++ piece) (rest ++ back)
          (by simp [hbytes]) (hdue.opening opening)
        exact .cons opening hinside (ihrest (front ++ piece ++ body) back
          (by simp [hbytes]) ((hdue.opening opening).spells hinside))
      · exact (h front (body ++ (rest ++ back)) _ (by simp [hbytes]) hdue).elim

end MessagePack

open MessagePack (ReservedFree Due)

/-- No dynamic field of a message that the bytes spell nests too deep. -/
def Message.WithinDepth (bytes : Bytes) : Prop :=
  ∀ fields value h p, Spells False [.array (fields ++ [value])] bytes →
    Message.Matches fields value h p → p.type.Shallow value

/-- Few bytes cannot nest too deep. -/
theorem Message.WithinDepth.of_length_le {bytes : Bytes}
    (h : 3 * bytes.length ≤ Value.depthBudget) : WithinDepth bytes := by
  intro fields value header p hspells _ w hw
  obtain ⟨c, hc, hpart⟩ := Layout.mem_parts_of_mem_dynamicFields _ _ w hw
  obtain rfl := List.mem_singleton.1 hc
  have hchild : c ∈ (Value.array (fields ++ [c])).children :=
    List.mem_append_right _ (List.mem_singleton_self c)
  have hwithin := Value.depth_le_of_mem_parts
    (Value.mem_parts_trans hpart (Value.mem_parts_of_mem_children hchild))
  have hbytes := Value.depthItems_le_iff.1 hspells.depth_le _ (List.mem_singleton_self _)
  exact hwithin.trans (hbytes.trans h)

namespace Inbound

/-- The decoder accepts exactly the grammar. -/
theorem decode_eq_message_iff {bytes : Bytes} (hreserved : ReservedFree bytes)
    (hdepth : Message.WithinDepth bytes) (m : Message) :
    decode bytes = .ok (.message m) ↔ m.kept = ⟨some bytes⟩ ∧
      ∃ fields value, Spells False [.array (fields ++ [value])] bytes
        ∧ Message.Matches fields value m.header m.payload := by
  constructor
  · intro h
    obtain ⟨hkept, fields, value, hspells, hmatch, _⟩ := matches_of_decode h
    exact ⟨hkept, fields, value,
      hreserved.wellFormed hspells [] [] (by simp) (n := 0) .start, hmatch⟩
  · rintro ⟨hkept, fields, value, hspells, hmatch⟩
    obtain ⟨header, payload, kept⟩ := m
    obtain rfl : kept = ⟨some bytes⟩ := hkept
    exact decode_of_matches hspells hmatch (hdepth fields value _ _ hspells hmatch)

theorem decode_eq_message_iff_loose : ∃ m, decode loose = .ok (.message m)
    ∧ m.kept = ⟨some loose⟩ ∧ ∃ fields value, Spells False [.array (fields ++ [value])] loose
      ∧ Message.Matches fields value m.header m.payload := by
  obtain ⟨m, hm⟩ := exists_decode_loose
  have hreserved : ReservedFree loose := .of_not_mem (by decide)
  have hdepth : Message.WithinDepth loose := .of_length_le (by decide)
  exact ⟨m, hm, (decode_eq_message_iff hreserved hdepth m).1 hm⟩

end Inbound

end DataGateway

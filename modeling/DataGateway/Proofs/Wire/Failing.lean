import DataGateway.Proofs.Wire.Parsing

/-!
# Where reading fails

What a reader answers to bytes that are not what it expects is settled by the first thing that is
wrong with them. The head of an array is the first thing of all, and whatever is wrong with it is an
error of decoding (`sequence_error`). The fields of a row come in order, and a field that cannot be
read ends the row with its own error, whatever the fields before it say and whatever stands behind
it (`read_of_failsAt`); the record's own checks are not reached.
-/

namespace DataGateway

open MessagePack (Value Spells Head Marker Operand)

namespace Reader

variable {α β : Type} {s t : Bytes}

theorem map_of_error {read : Reader α} {e : ProtocolError} (h : read s = .error e t) (f : α → β) :
    (f <$> read) s = .error e t := by
  rw [map_eq_pure_bind, bind_of_error h]

/-- A number is there unless the bytes end inside it. -/
theorem number_cases (operand : Operand) (s : Bytes) :
    number operand s = .error (.malformed .cutOperand) s ∨ ∃ n t, number operand s = .ok n t := by
  rcases Nat.lt_or_ge s.length operand.width with hshort | hlong
  · exact .inl (map_of_error (takeOr_eq_error _ hshort) _)
  · refine .inr ⟨_, s.drop operand.width, map_eq_ok.2 ⟨s.take operand.width, ?_, rfl⟩⟩
    exact takeOr_eq_ok.2 ⟨List.length_take_of_le hlong, (List.take_append_drop ..).symm⟩

/-- Where no array of so many elements begins, that is an error of decoding. -/
theorem sequence_error {owner : String} {count : Nat}
    (h : ∀ u t, sequence owner count s ≠ .ok u t) :
    ∃ e t, sequence owner count s = .error e t ∧ e.kind = .decode := by
  cases s with
  | nil => exact ⟨.unexpectedEnd, [], rfl, rfl⟩
  | cons b r =>
      cases hb : Marker.ofByte b with
      | none => exact ⟨_, _, sequence_of_reserved hb r, rfl⟩
      | some marker =>
          rw [sequence_of_marker hb] at h ⊢
          by_cases hfamily : marker.family ≠ .array
          · rw [if_pos hfamily]
            exact ⟨_, _, rfl, rfl⟩
          rw [if_neg hfamily] at h ⊢
          rcases number_cases marker.operand r with hcut | ⟨n, t, hn⟩
          · exact ⟨_, _, bind_of_error (map_of_error hcut _) _, rfl⟩
          have hlength : length marker.operand r = .ok n.toNat t := map_eq_ok.2 ⟨n, hn, rfl⟩
          rw [bind_of_ok hlength] at h ⊢
          by_cases hcount : n.toNat ≠ count
          · rw [if_pos hcount]
            exact ⟨_, _, rfl, rfl⟩
          · rw [if_neg hcount] at h
            exact (h () t rfl).elim

/-- An integer that is no signed 64-bit number is refused. -/
theorem long_of_large {n : Int} {head : Bytes} (hhead : Head .integer n head) (hn : 2 ^ 63 ≤ n)
    (slot : Slot) (t : Bytes) : long slot (head ++ t) = .error (.malformed .beyondLong) t := by
  obtain ⟨b, marker, operand, hb, hfamily, hlength, hvalue, rfl⟩ := hhead
  have hnumber : number marker.operand (operand ++ t) = .ok n t :=
    numberOr_eq_ok.2 ⟨operand, hlength, rfl, hvalue⟩
  have hlarge : ¬n < 0x8000000000000000 := by omega
  rw [long, List.cons_append, typed_of_marker hb, hfamily, if_neg (by decide), if_neg (by decide)]
  apply map_of_error
  rw [bind_of_ok hnumber, if_neg hlarge]
  rfl

end Reader

namespace Layout

/-- Reading the field at this place fails like that. -/
def FailsAt (owner : String) (s : Bytes) (e : ProtocolError) (u : Bytes) :
    {ρ : Type} → Layout .row ρ → Nat → Prop
  | _, done, _ => False
  | _, required name value _, 0 => Reader.required value.read ⟨name, owner⟩ s = .error e u
  | _, optional name value _, 0 => value.read ⟨name, owner⟩ s = .error e u
  | _, required _ _ rest, place + 1 => rest.FailsAt owner s e u place
  | _, optional _ _ rest, place + 1 => rest.FailsAt owner s e u place

/-- A row fails as its first field does that cannot be read. -/
theorem read_of_failsAt {owner : String} {s u : Bytes} {e : ProtocolError} {ρ : Type} :
    (l : Layout .row ρ) → l.unambiguous → {vs : List Value} → {r : ρ} → l.Matches vs r →
      l.Shallow vs → {place : Nat} → l.FailsAt owner s e u place → {front : Bytes} →
      Spells False (vs.take place) front → l.read owner (front ++ s) = .error e u
  | done, _, _, _, _, _, _, hfails, _, _ => by rw [FailsAt] at hfails; exact hfails.elim
  | required name value rest, h, _, (a, r), hmatch, hshallow, place, hfails, front, hfront => by
      obtain ⟨v, vs, rfl, hvmatch, hrest⟩ := hmatch
      obtain ⟨hvalue, hrow⟩ := Bool.and_eq_true_iff.1 h
      obtain ⟨hv, hvs⟩ := List.forall_mem_append.1 hshallow
      cases place with
      | zero =>
          rw [Spells.nil_iff.1 hfront]
          exact Reader.bind_of_error hfails _
      | succ place =>
          obtain ⟨x, y, rfl, hx, hy⟩ := Spells.cons_iff.1 hfront
          have hread : Reader.required value.read ⟨name, owner⟩ (x ++ (y ++ s)) = .ok a (y ++ s) :=
            Reader.required_eq_ok.2 (value.complete hvalue _ v a x _ hvmatch hv hx)
          have hfail := rest.read_of_failsAt hrow hrest hvs hfails hy
          rw [List.append_assoc]
          exact (Reader.bind_of_ok hread _).trans (Reader.bind_of_error hfail _)
  | optional name value rest, h, _, (o, r), hmatch, hshallow, place, hfails, front, hfront => by
      simp only [unambiguous, Bool.and_eq_true, decide_eq_true_eq] at h
      obtain ⟨⟨hvalue, hrow⟩, hnil⟩ := h
      obtain ⟨v, vs, rfl, hvmatch, hrest⟩ := hmatch
      obtain ⟨hv, hvs⟩ := List.forall_mem_append.1 hshallow
      cases place with
      | zero =>
          rw [Spells.nil_iff.1 hfront]
          exact Reader.bind_of_error hfails _
      | succ place =>
          obtain ⟨x, y, rfl, hx, hy⟩ := Spells.cons_iff.1 hfront
          have hread := (value.complete hvalue).field hnil hvmatch hv hx ⟨name, owner⟩ (y ++ s)
          have hfail := rest.read_of_failsAt hrow hrest hvs hfails hy
          rw [List.append_assoc]
          exact (Reader.bind_of_ok hread _).trans (Reader.bind_of_error hfail _)

end Layout

end DataGateway

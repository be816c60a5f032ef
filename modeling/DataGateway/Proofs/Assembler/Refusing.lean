import DataGateway.Proofs.Arrival

/-!
# Slices that are refused

A slice that is not taken in ends its message: what was buffered of it is gone, and the message has
to begin anew. No other message notices. Wherever the error comes from, it is one of two places:
beginning a message fails before anything is added, and continuing one fails after the message was
looked up, with the message dropped or not there at all.

One error is different. The size that a first slice announces is looked at before the message's own
entry is dropped, so a message that begins anew with too large a size leaves the older slices
buffered.
-/

namespace DataGateway.Assembler

variable {a : Assembler} {s : Slice} {e : ProtocolError}

theorem get?_drop_self (a : Assembler) (id : String) : (a.drop id).pending.get? id = none :=
  Dict.get?_erase_self a.pending id

/-- A slice that does not continue its message leaves nothing of it. -/
theorem get?_extend_of_error {last : Bool} {offset : Int64} {size : Nat}
    (h : (a.extend s last offset size).1 = .error e) :
    (a.extend s last offset size).2.pending.get? s.header.messageId = none := by
  unfold extend at h ⊢
  dsimp only at h ⊢
  cases hp : a.pending.get? s.header.messageId with
  | none => exact hp
  | some p =>
      rw [hp] at h
      dsimp only at h ⊢
      split
      · exact get?_drop_self a _
      · rename_i hnext
        rw [hnext] at h
        dsimp only at h
        split
        · exact get?_drop_self a _
        · rename_i hlast
          rw [if_neg hlast] at h
          split
          · exact get?_drop_self a _
          · rename_i hmore
            rw [if_neg hmore] at h
            cases h

/-- A first slice of an allowed size that is not taken in leaves nothing of its message. -/
theorem get?_push_first_of_error {last : Bool} {offset size : Int64}
    (hs : s.header.fragmentation = .slice true last offset size)
    (hsize : count size ≤ a.maxPayload) (h : (a.push s).1 = .error e) :
    (a.push s).2.pending.get? s.header.messageId = none := by
  have hcases : (∃ e, a.start s.header (count size) = (.error e, a.drop s.header.messageId))
      ∨ a.start s.header (count size) = (.ok (), a.begun s.header (count size)) := by
    rw [start, if_neg (Nat.not_lt.2 hsize)]
    dsimp only
    split
    · exact .inl ⟨_, rfl⟩
    · exact .inr rfl
  rcases hcases with ⟨e', hstart⟩ | hstart
  · rw [push_of_start_error hs hstart]
    exact get?_drop_self a _
  · rw [push_first hs hstart] at h ⊢
    exact get?_extend_of_error h

/-- A slice that is refused changes nothing about other messages and leaves nothing of its own,
unless it begins its message anew with too large a size: then nothing at all is changed. -/
theorem refusal_drops {first last : Bool} {offset size : Int64}
    (hs : s.header.fragmentation = .slice first last offset size)
    (h : (a.push s).1 = .error e) :
    (∀ id, id ≠ s.header.messageId → (a.push s).2.pending.get? id = a.pending.get? id)
    ∧ (¬(first = true ∧ a.maxPayload < count size) →
      (a.push s).2.pending.get? s.header.messageId = none)
    ∧ (first = true ∧ a.maxPayload < count size →
      e = .tooLarge (count size) a.maxPayload ∧ (a.push s).2 = a) := by
  refine ⟨fun id hid => get?_push_of_ne a hid, fun hsmall => ?_, fun hlarge => ?_⟩
  · cases first with
    | false =>
        rw [push_next hs] at h ⊢
        exact get?_extend_of_error h
    | true =>
        have hsize : count size ≤ a.maxPayload := Nat.not_lt.1 fun hlt => hsmall ⟨rfl, hlt⟩
        exact get?_push_first_of_error hs hsize h
  · obtain ⟨rfl, hlt⟩ := hlarge
    rw [push_of_large hs hlt] at h ⊢
    exact ⟨(Except.error.inj h).symm, rfl⟩

/-- A slice of an attachment request. -/
def sliceOf (id : String) (fragmentation : Fragmentation) (chunk : Bytes) : Slice :=
  ⟨⟨"user", id, 1, 2, fragmentation, .attachmentRequest⟩, chunk⟩

/-- Two messages of which one byte each has arrived. -/
def two : Assembler :=
  let empty : Assembler := { maxPayload := 64, maxPending := 2 }
  let one := (empty.push (sliceOf "m" (.slice true false 0 5) [1])).2
  (one.push (sliceOf "n" (.slice true false 0 5) [2])).2

/-- A slice of the first of them that skips a byte. -/
def skipping : Slice := sliceOf "m" (.slice false true 2 5) [3, 4, 5]

/-- The first of them again, with more bytes than are allowed. -/
def oversized : Slice := sliceOf "m" (.slice true false 0 65) [3]

theorem refusal_drops_skipping :
    (two.push skipping).1 = .error (.invalid Slice.owner (.offsetNotNext 2 1))
      ∧ (two.pending.get? "m").isSome ∧ (two.push skipping).2.pending.get? "m" = none
      ∧ (two.pending.get? "n").isSome
      ∧ (two.push skipping).2.pending.get? "n" = two.pending.get? "n"
      ∧ (two.push oversized).2 = two := by
  have herror : (two.push skipping).1 = .error (.invalid Slice.owner (.offsetNotNext 2 1)) := rfl
  have hlarge : (two.push oversized).1 = .error (.tooLarge 65 64) := rfl
  obtain ⟨hothers, hown, _⟩ := refusal_drops (a := two) (s := skipping) rfl herror
  obtain ⟨_, _, hkept⟩ := refusal_drops (a := two) (s := oversized) rfl hlarge
  exact ⟨herror, rfl, hown (by decide), rfl, hothers "n" (by decide), (hkept (by decide)).2⟩

/-- A refused slice need not leave its message empty: what was buffered before is still there. -/
theorem oversized_keeps : two.Reachable
    ∧ oversized.header.fragmentation = .slice true false 0 65
    ∧ (two.push oversized).1 = .error (.tooLarge 65 64)
    ∧ ((two.push oversized).2.pending.get? "m").map Partial.buffer = some [1] :=
  ⟨.push (.push (.start 64 2) _) _, rfl, rfl, rfl⟩

end DataGateway.Assembler

import DataGateway.Assembler
import DataGateway.Proofs.Dictionary

/-!
# States of an assembler

However slices arrive and messages are discarded, an assembler never has more incomplete messages
than it is allowed. So a message of which something is buffered can always begin anew: its own place
is free by then. The last part says what one slice does to an assembler when it is the next one of
its message.
-/

namespace DataGateway.Assembler

/-- The states that an assembler gets into from its start, where its limits are fixed. -/
inductive Reachable : Assembler → Prop
  | start (maxPayload maxPending : Nat) : Reachable { maxPayload, maxPending }
  | push {a : Assembler} (h : Reachable a) (s : Slice) : Reachable (a.push s).2
  | discard {a : Assembler} (h : Reachable a) (id : String) : Reachable (a.discard id).2

/-- The outcomes of taking in slices in order, and the assembler afterwards. -/
def pushAll (a : Assembler) : List Slice → List (Except ProtocolError (Option Message)) × Assembler
  | [] => ([], a)
  | s :: rest =>
    let (outcome, a) := a.push s
    let (outcomes, a) := a.pushAll rest
    (outcome :: outcomes, a)

/-- Whether a message can begin: there is a free place, or it has one already. -/
def HasRoom (a : Assembler) (id : String) : Prop :=
  a.pending.size < a.maxPending ∨ (a.pending.get? id).isSome

/-! ### The number of incomplete messages -/

/-- No more messages are incomplete than are allowed. -/
def Within (a : Assembler) : Prop := a.pending.size ≤ a.maxPending

theorem Within.drop {a : Assembler} (h : a.Within) (id : String) : (a.drop id).Within :=
  (a.pending.size_erase_le id).trans h

theorem Within.extend {a : Assembler} (h : a.Within) (s : Slice) (last : Bool) (offset : Int64)
    (size : Nat) : (a.extend s last offset size).2.Within := by
  unfold Assembler.extend
  cases hp : a.pending.get? s.header.messageId with
  | none =>
      simp only [hp]
      exact h
  | some p =>
      simp only [hp]
      cases p.checkNext s.header (count offset) size with
      | error e => exact h.drop _
      | ok u =>
          simp only
          split
          · exact h.drop _
          · split
            · exact h.drop _
            · exact (Dict.size_insert_of_get? hp _).trans_le h

theorem Within.start {a : Assembler} (h : a.Within) (header : Header) (size : Nat) :
    (a.start header size).2.Within := by
  unfold Assembler.start
  split
  · exact h
  · simp only
    split
    · exact h.drop _
    · rename_i hroom
      exact (Dict.size_insert_le _ _ _).trans (Nat.lt_of_not_le hroom)

theorem Within.push {a : Assembler} (h : a.Within) (s : Slice) : (a.push s).2.Within := by
  unfold Assembler.push
  split
  · exact h
  · rename_i first last offset size _
    simp only
    split
    · have hstart := h.start s.header (count size)
      split
      · rename_i hs
        rw [hs] at hstart
        exact hstart
      · rename_i hs
        rw [hs] at hstart
        exact hstart.extend s last offset (count size)
    · exact h.extend s last offset (count size)

theorem Reachable.within {a : Assembler} (h : Reachable a) : a.Within := by
  induction h with
  | start maxPayload maxPending => exact Nat.zero_le _
  | push _ s ih => exact ih.push s
  | discard _ id ih => exact ih.drop id

/-- Once a message's own place is free, there is room for it. -/
theorem Within.size_drop_lt {a : Assembler} (h : a.Within) {id : String} (hroom : a.HasRoom id) :
    (a.drop id).pending.size < a.maxPending := by
  rcases hroom with hfree | hown
  · exact (a.pending.size_erase_le id).trans_lt hfree
  · obtain ⟨p, hp⟩ := Option.isSome_iff_exists.1 hown
    exact (Dict.size_erase_lt hp).trans_le h

/-! ### The next slice of a message -/

/-- The assembler with nothing buffered of a message but its beginning. -/
def begun (a : Assembler) (header : Header) (size : Nat) : Assembler :=
  { a with
    pending := (a.pending.erase header.messageId).insert header.messageId ⟨header, size, []⟩ }

/-- A first slice for which there is room begins its message anew. -/
theorem start_eq_ok {a : Assembler} (h : a.Within) {header : Header} {size : Nat}
    (hsize : size ≤ a.maxPayload) (hroom : a.HasRoom header.messageId) :
    a.start header size = (.ok (), a.begun header size) := by
  unfold Assembler.start
  rw [if_neg (Nat.not_lt.2 hsize)]
  simp only
  exact if_neg (Nat.not_le.2 (h.size_drop_lt hroom))

theorem push_first {a b : Assembler} {s : Slice} {last : Bool} {offset size : Int64}
    (hs : s.header.fragmentation = .slice true last offset size)
    (hstart : a.start s.header (count size) = (.ok (), b)) :
    a.push s = b.extend s last offset (count size) := by
  unfold push
  simp only [hs, hstart, if_true]

theorem push_next {a : Assembler} {s : Slice} {last : Bool} {offset size : Int64}
    (hs : s.header.fragmentation = .slice false last offset size) :
    a.push s = a.extend s last offset (count size) := by
  unfold push
  simp only [hs, Bool.false_eq_true, if_false]

theorem extend_eq_none {a : Assembler} {s : Slice} {offset : Int64} {size : Nat} {p : Partial}
    (hp : a.pending.get? s.header.messageId = some p)
    (hnext : p.checkNext s.header (count offset) size = .ok ())
    (hmore : p.buffer.length + s.chunk.length < p.size) :
    a.extend s false offset size = (.ok none, { a with
      pending :=
        a.pending.insert s.header.messageId { p with buffer := p.buffer ++ s.chunk } }) := by
  have hshort : ¬p.size ≤ (p.buffer ++ s.chunk).length := by
    rw [List.length_append]
    omega
  unfold Assembler.extend
  simp only [hp, hnext, Bool.false_eq_true, if_false, if_neg hshort]

theorem extend_eq_last {a : Assembler} {s : Slice} {offset : Int64} {size : Nat} {p : Partial}
    (hp : a.pending.get? s.header.messageId = some p)
    (hnext : p.checkNext s.header (count offset) size = .ok ()) :
    a.extend s true offset size =
      (some <$> Partial.complete { p with buffer := p.buffer ++ s.chunk },
        a.drop s.header.messageId) := by
  unfold Assembler.extend
  simp only [hp, hnext, if_true]

end DataGateway.Assembler

import DataGateway.Proofs.Arrival
import Mathlib.Algebra.Order.BigOperators.Group.List
import Mathlib.Algebra.Order.Ring.Nat

/-!
# What an assembler holds

However an assembler is used, it holds a bounded number of bytes: every incomplete message is short
of the size it has announced, that size is an allowed one, and there are no more such messages than
places. The slices may be anything, also such as no frame decodes to. What is buffered after a slice
is said once, in `get?_push`; that the bounds hold after every operation follows by induction.
-/

namespace DataGateway

/-- What is buffered of a message under an id is short of the size announced, that size is allowed,
and the id is that of the message's header. -/
structure Partial.Bounded (p : Partial) (id : String) (maxPayload : Nat) : Prop where
  short : p.buffer.length < p.size
  allowed : p.size ≤ maxPayload
  own : p.header.messageId = id

namespace Assembler

/-- What can be asked of an assembler. -/
inductive Operation
  | push (s : Slice)
  | discard (id : String)

/-- The message that an operation is about. -/
def Operation.id : Operation → String
  | push s => s.header.messageId
  | discard id => id

/-- What an operation comes to. -/
inductive Answer
  | pushed (outcome : Except ProtocolError (Option Message))
  | discarded (found : Bool)

def perform (a : Assembler) : Operation → Answer × Assembler
  | .push s => (.pushed (a.push s).1, (a.push s).2)
  | .discard id => (.discarded (a.discard id).1, (a.discard id).2)

/-- Performs operations in order, and notes each with its answer. -/
def performAll (a : Assembler) : List Operation → List (Operation × Answer) × Assembler
  | [] => ([], a)
  | op :: ops =>
    let (answer, a) := a.perform op
    let (log, a) := a.performAll ops
    ((op, answer) :: log, a)

variable {a : Assembler} {s : Slice} {id : String} {p q : Partial}

theorem performAll_cons (a : Assembler) (op : Operation) (ops : List Operation) :
    a.performAll (op :: ops)
      = ((op, (a.perform op).1) :: ((a.perform op).2.performAll ops).1,
        ((a.perform op).2.performAll ops).2) :=
  rfl

theorem perform_limits (a : Assembler) (op : Operation) :
    (a.perform op).2.maxPayload = a.maxPayload ∧ (a.perform op).2.maxPending = a.maxPending := by
  cases op with
  | push s => exact push_limits a s
  | discard id => exact ⟨rfl, rfl⟩

theorem performAll_limits (a : Assembler) (ops : List Operation) :
    (a.performAll ops).2.maxPayload = a.maxPayload
      ∧ (a.performAll ops).2.maxPending = a.maxPending := by
  induction ops generalizing a with
  | nil => exact ⟨rfl, rfl⟩
  | cons op ops ih =>
      obtain ⟨hpayload, hpending⟩ := perform_limits a op
      rw [performAll_cons, ← hpayload, ← hpending]
      exact ih _

/-! ### What a slice leaves buffered -/

/-- Continuing a message leaves it with the slice added and something missing, or drops it. -/
theorem get?_extend {last : Bool} {offset : Int64} {size : Nat}
    (h : (a.extend s last offset size).2.pending.get? s.header.messageId = some q) :
    ∃ p, a.pending.get? s.header.messageId = some p
      ∧ q = { p with buffer := p.buffer ++ s.chunk } ∧ q.buffer.length < q.size := by
  have dropped : (a.drop s.header.messageId).pending.get? s.header.messageId ≠ some q := by
    rw [drop, Dict.get?_erase_self]
    exact Option.some_ne_none q |>.symm
  unfold extend at h
  dsimp only at h
  cases hp : a.pending.get? s.header.messageId with
  | none =>
      rw [hp] at h
      cases hp.symm.trans h
  | some p =>
      rw [hp] at h
      dsimp only at h
      split at h
      · exact absurd h dropped
      · split at h
        · exact absurd h dropped
        · split at h
          · exact absurd h dropped
          · rename_i hshort
            rw [Dict.get?_insert_self] at h
            obtain rfl := Option.some.inj h
            exact ⟨p, rfl, rfl, Nat.lt_of_not_le hshort⟩

/-- After a slice its message is as it was, or the slice was added to what was buffered or to a
beginning of an allowed size, and something is missing. -/
theorem get?_push (h : (a.push s).2.pending.get? s.header.messageId = some q) :
    a.pending.get? s.header.messageId = some q
      ∨ ∃ p, q = { p with buffer := p.buffer ++ s.chunk } ∧ q.buffer.length < q.size
        ∧ (a.pending.get? s.header.messageId = some p
          ∨ ∃ size, p = ⟨s.header, size, []⟩ ∧ size ≤ a.maxPayload) := by
  cases hs : s.header.fragmentation with
  | whole offset =>
      rw [push, hs] at h
      exact .inl h
  | slice first last offset size =>
      cases first with
      | false =>
          rw [push_next hs] at h
          obtain ⟨p, hp, hq, hshort⟩ := get?_extend h
          exact .inr ⟨p, hq, hshort, .inl hp⟩
      | true =>
          rcases start_cases a s.header (count size) with ⟨e, hstart⟩ | ⟨e, hstart⟩ | hstart
          · rw [push_of_start_error hs hstart] at h
            exact .inl h
          · rw [push_of_start_error hs hstart, drop, Dict.get?_erase_self] at h
            cases h
          · have hsize : ¬a.maxPayload < count size := by
              intro hlarge
              rw [start, if_pos hlarge] at hstart
              cases hstart
            rw [push_first hs hstart] at h
            obtain ⟨p, hp, hq, hshort⟩ := get?_extend h
            rw [begun, Dict.get?_insert_self] at hp
            exact .inr ⟨p, hq, hshort,
              .inr ⟨count size, (Option.some.inj hp).symm, Nat.le_of_not_lt hsize⟩⟩

/-! ### Bounds -/

/-- Every incomplete message is within its bounds, and there is a place for each. -/
structure Bounded (a : Assembler) : Prop where
  within : a.Within
  partials : ∀ id p, a.pending.get? id = some p → p.Bounded id a.maxPayload

theorem bounded_start (maxPayload maxPending : Nat) : Bounded { maxPayload, maxPending } :=
  ⟨Nat.zero_le _, fun _ _ hp => by cases hp⟩

theorem Bounded.push (h : a.Bounded) (s : Slice) : (a.push s).2.Bounded := by
  refine ⟨h.within.push s, fun id q hq => ?_⟩
  rw [(push_limits a s).1]
  by_cases hid : id = s.header.messageId
  · subst hid
    rcases get?_push hq with hq | ⟨p, rfl, hshort, hp | ⟨size, rfl, hsize⟩⟩
    · exact h.partials _ q hq
    · obtain ⟨_, hallowed, hown⟩ := h.partials _ p hp
      exact ⟨hshort, hallowed, hown⟩
    · exact ⟨hshort, hsize, rfl⟩
  · rw [get?_push_of_ne a hid] at hq
    exact h.partials id q hq

theorem Bounded.discard (h : a.Bounded) (id : String) : (a.discard id).2.Bounded := by
  refine ⟨h.within.drop id, fun other p hp => ?_⟩
  rw [Assembler.discard, drop, Dict.get?_erase] at hp
  split at hp
  · cases hp
  · exact h.partials other p hp

theorem Bounded.performAll (h : a.Bounded) (ops : List Operation) :
    (a.performAll ops).2.Bounded := by
  induction ops generalizing a with
  | nil => exact h
  | cons op ops ih =>
      rw [performAll_cons]
      cases op with
      | push s => exact ih (h.push s)
      | discard id => exact ih (h.discard id)

theorem buffered_eq_sum (a : Assembler) :
    a.buffered = (a.pending.entries.map fun e => e.2.buffer.length).sum := by
  rw [List.sum_eq_foldr, List.foldr_map]
  rfl

theorem Bounded.buffered_le (h : a.Bounded) : a.buffered ≤ a.maxPending * a.maxPayload := by
  have hentry : ∀ n ∈ a.pending.entries.map fun e => e.2.buffer.length, n ≤ a.maxPayload := by
    refine List.forall_mem_map.2 fun e he => ?_
    obtain ⟨hshort, hallowed, _⟩ := h.partials e.1 e.2 (Dict.mem_entries_iff.1 he)
    exact hshort.le.trans hallowed
  calc
    a.buffered = (a.pending.entries.map fun e => e.2.buffer.length).sum := buffered_eq_sum a
    _ ≤ (a.pending.entries.map fun e => e.2.buffer.length).length • a.maxPayload :=
      List.sum_le_card_nsmul _ _ hentry
    _ = a.pending.size * a.maxPayload := by rw [List.length_map]; rfl
    _ ≤ a.maxPending * a.maxPayload := Nat.mul_le_mul_right _ h.within

/-- The law of an assembler's memory, after any operations on an empty one. -/
theorem performAll_bounded {maxPayload maxPending : Nat} (ops : List Operation)
    (h : (performAll { maxPayload, maxPending } ops).2 = a) :
    a.pending.size ≤ maxPending
    ∧ (∀ id p, a.pending.get? id = some p →
      p.buffer.length < p.size ∧ p.size ≤ maxPayload ∧ p.header.messageId = id)
    ∧ a.buffered ≤ maxPending * maxPayload := by
  have hbounded := (bounded_start maxPayload maxPending).performAll ops
  obtain ⟨hpayload, hpending⟩ := performAll_limits { maxPayload, maxPending } ops
  rw [h] at hbounded hpayload hpending
  have hsize := hbounded.within
  have hbuffered := hbounded.buffered_le
  rw [Within, hpending] at hsize
  rw [hpayload, hpending] at hbuffered
  refine ⟨hsize, fun id p hp => ?_, hbuffered⟩
  obtain ⟨hshort, hallowed, hown⟩ := hbounded.partials id p hp
  rw [hpayload] at hallowed
  exact ⟨hshort, hallowed, hown⟩

/-- Pushes a slice of an attachment request. -/
def pushOf (id : String) (fragmentation : Fragmentation) (chunk : Bytes) : Operation :=
  .push ⟨⟨"user", id, 1, 2, fragmentation, .attachmentRequest⟩, chunk⟩

/-- Slices that no frame decodes to among two of one message: an offset and a size below zero, a
chunk that is too long, and one that is empty. -/
def malformed : List Operation :=
  [pushOf "m" (.slice true false 0 5) [1], pushOf "n" (.slice true false (-1) 5) [2],
    pushOf "n" (.slice true false 0 (-1)) [], pushOf "n" (.slice true false 0 1) [3, 4],
    pushOf "n" (.slice true false 0 0) [], .discard "o", pushOf "m" (.slice false false 1 5) [6]]

theorem performAll_bounded_malformed : ∃ a p,
    (performAll { maxPayload := 64, maxPending := 2 } malformed).2 = a
      ∧ a.pending.get? "m" = some p ∧ p.buffer = [1, 6] ∧ a.pending.size ≤ 2
      ∧ p.buffer.length < p.size ∧ p.size ≤ 64 ∧ p.header.messageId = "m"
      ∧ a.buffered ≤ 2 * 64 := by
  obtain ⟨p, hp, hbuffer⟩ :
      ∃ p, (performAll { maxPayload := 64, maxPending := 2 } malformed).2.pending.get? "m" = some p
        ∧ p.buffer = [1, 6] := by
    refine ⟨_, rfl, ?_⟩
    rfl
  have ha : (performAll { maxPayload := 64, maxPending := 2 } malformed).2 = _ := rfl
  obtain ⟨hsize, hpartials, hbuffered⟩ := performAll_bounded malformed ha
  obtain ⟨hshort, hallowed, hown⟩ := hpartials "m" p hp
  exact ⟨_, p, ha, hp, hbuffer, hsize, hshort, hallowed, hown, hbuffered⟩

end Assembler

end DataGateway

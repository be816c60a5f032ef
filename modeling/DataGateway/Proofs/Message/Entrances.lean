import DataGateway.Proofs.Message.RoundTrip

/-!
# Ways of decoding

There are five ways into the same bytes: the message or slice, the complete message alone, the
header alone, the payload alone, and the payload of a known type without a header. They make the
same checks, and not in the same order. All but the last begin with the header and go on from where
it ends (`readHeader`), so it is enough to say once what each makes of the rest; and a record on its
own is read as a payload is, except that bytes left over are noticed before its content is checked,
not after.
-/

namespace DataGateway

open MessagePack (Head)

namespace Reader

theorem outcome_of_bind {α β : Type} {read : Reader α} {next : α → Reader β} {s t : Bytes} {a : α}
    (h : read s = .ok a t) : outcome (read >>= next) s = outcome (next a) t := by
  unfold outcome EStateM.run
  rw [bind_of_ok h]

end Reader

/-- Which bytes are accepted as a record on its own. -/
theorem Record.decode_eq_ok_iff {α : Type} {r : Record α} {bytes : Bytes} {a : α} :
    r.decode bytes = .ok a ↔ ∃ head body, Head .array r.count head ∧ bytes = head ++ body
      ∧ r.unpack body = .ok a [] ∧ r.check a = .ok () := by
  simp only [decode, Reader.outcome_eq_ok, Reader.bind_eq_ok, Reader.sequence_eq_ok,
    Reader.finish_eq_ok, Reader.ofExcept_eq_ok, Reader.pure_eq_ok]
  constructor
  · rintro ⟨_, _, _, ⟨head, hhead, rfl⟩, b, _, hunpack, _, _, ⟨rfl, rfl⟩, _, _, ⟨hcheck, rfl⟩, rfl,
      rfl⟩
    exact ⟨head, _, hhead, rfl, hunpack, hcheck⟩
  · rintro ⟨head, body, hhead, rfl, hunpack, hcheck⟩
    exact ⟨[], (), body, ⟨head, hhead, rfl⟩, a, [], hunpack, (), [], ⟨rfl, rfl⟩, (), [],
      ⟨hcheck, rfl⟩, rfl, rfl⟩

/-- What a record in its place is read from. -/
theorem Record.read_eq_ok_iff {α : Type} {r : Record α} {slot : Slot} {s t : Bytes} {a : α} :
    r.layout.read slot s = .ok (some a) t ↔ ∃ head body, Head .array r.count head ∧ s = head ++ body
      ∧ r.unpack body = .ok a t ∧ r.check a = .ok () := by
  refine (Reader.typed_length_eq_ok (rfl : MessagePack.Family.array.widest = 4)).trans ?_
  constructor
  · rintro (⟨hnone, _⟩ | ⟨n, head, body, b, hhead, rfl, hfields, hb⟩)
    · cases hnone
    · obtain rfl := Option.some.inj hb
      split at hfields
      · obtain ⟨_, _, hthrow, _⟩ := Reader.bind_eq_ok.1 hfields
        exact (Reader.throw_eq_ok.1 hthrow).elim
      · rename_i hcount
        rw [not_not.1 hcount] at hhead
        simp only [Reader.bind_eq_ok, Reader.ofExcept_eq_ok, Reader.pure_eq_ok] at hfields
        obtain ⟨x, u, hrow, _, _, ⟨hx, rfl⟩, _, _, ⟨hcheck, rfl⟩, rfl, rfl⟩ := hfields
        refine ⟨head, body, hhead, rfl, ?_, hcheck⟩
        exact Reader.bind_eq_ok.2 ⟨x, _, hrow, Reader.ofExcept_eq_ok.2 ⟨hx, rfl⟩⟩
  · rintro ⟨head, body, hhead, rfl, hunpack, hcheck⟩
    obtain ⟨x, u, hrow, hx⟩ := Reader.bind_eq_ok.1 hunpack
    refine .inr ⟨r.row.count, head, body, a, hhead, rfl, ?_, rfl⟩
    rw [if_neg (not_not.2 rfl)]
    refine Reader.bind_eq_ok.2 ⟨x, u, hrow, Reader.bind_eq_ok.2 ⟨a, t, hx, ?_⟩⟩
    simp only [Reader.bind_eq_ok, Reader.ofExcept_eq_ok, Reader.pure_eq_ok]
    exact ⟨(), t, ⟨hcheck, rfl⟩, trivial, rfl⟩

/-- Which bytes are accepted as a payload on its own: those of its record. -/
theorem Payload.decode_eq_ok_iff {type : DataType} {bytes : Bytes} {p : Payload} :
    decode type bytes = .ok p ↔ ∃ a, p = ⟨type, a⟩ ∧ type.record.decode bytes = .ok a := by
  simp only [decode, Payload.read, Reader.outcome_eq_ok, Reader.bind_eq_ok, Reader.map_eq_ok,
    Reader.finish_eq_ok, Reader.pure_eq_ok, Reader.required_eq_ok, Record.read_eq_ok_iff,
    Record.decode_eq_ok_iff]
  constructor
  · rintro ⟨_, _, _, ⟨a, hread, rfl⟩, _, _, ⟨rfl, rfl⟩, rfl, rfl⟩
    exact ⟨a, rfl, hread⟩
  · rintro ⟨a, rfl, hread⟩
    exact ⟨[], _, [], ⟨a, hread, rfl⟩, (), [], ⟨rfl, rfl⟩, rfl, rfl⟩

namespace Inbound

variable {bytes rest : Bytes} {header : Header}

/-- What follows the header of a complete message is its payload on its own. -/
theorem decode_of_readHeader (hread : readHeader bytes = .ok header rest)
    (hwhole : header.isSlice = false) : decode bytes
      = (fun p => .message ⟨header, p, ⟨some bytes⟩⟩) <$> Payload.decode header.dataType rest := by
  rw [decode, Reader.outcome_of_bind hread, hwhole, if_neg Bool.false_ne_true, Payload.decode]
  unfold Reader.outcome EStateM.run
  cases hpayload : Payload.read header.dataType rest with
  | error e t =>
      rw [Reader.bind_of_error hpayload, Reader.bind_of_error hpayload]
      rfl
  | ok p t =>
      rw [Reader.bind_of_ok hpayload, Reader.bind_of_ok hpayload]
      cases t <;> rfl

theorem decodePayload_of_readHeader (hread : readHeader bytes = .ok header rest)
    (hwhole : header.isSlice = false) :
    decodePayload bytes = Payload.decode header.dataType rest := by
  rw [decodePayload, Reader.outcome_of_bind hread, hwhole]
  rfl

theorem decodePayload_of_isSlice (hread : readHeader bytes = .ok header rest)
    (hslice : header.isSlice = true) :
    decodePayload bytes = .error (.invalid Message.owner .partialPayload) := by
  rw [decodePayload, Reader.outcome_of_bind hread, hslice]
  rfl

theorem exists_readHeader_of_decode {m : Inbound} (h : decode bytes = .ok m) :
    ∃ rest, readHeader bytes = .ok m.header rest := by
  obtain ⟨t, h⟩ := Reader.outcome_eq_ok.1 h
  obtain ⟨header, rest, hread, h⟩ := Reader.bind_eq_ok.1 h
  refine ⟨rest, ?_⟩
  split at h
  · simp only [Reader.bind_eq_ok, Reader.map_eq_ok, Reader.ofExcept_eq_ok] at h
    obtain ⟨chunk, _, _, _, _, _, s, ⟨hnew, rfl⟩, rfl⟩ := h
    obtain ⟨rfl, _⟩ := Slice.new_eq_ok.1 hnew
    exact hread
  · simp only [Reader.bind_eq_ok, Reader.pure_eq_ok] at h
    obtain ⟨_, _, _, _, _, _, rfl, _⟩ := h
    exact hread

theorem isSlice_of_decode_slice {s : Slice} (h : decode bytes = .ok (.slice s)) :
    s.header.isSlice = true := by
  obtain ⟨_, _, _, hnew⟩ := matches_of_decode_slice h
  obtain ⟨_, _, _, _, _, hfragmentation, _⟩ := Slice.new_eq_ok.1 hnew
  rw [Header.isSlice, hfragmentation]
  rfl

/-- A complete message is what its header and its payload are on their own. -/
theorem decode_eq_message_iff_parts {m : Message} :
    decode bytes = .ok (.message m) ↔ m.kept = ⟨some bytes⟩
      ∧ decodeHeader bytes = .ok m.header ∧ m.header.isSlice = false
      ∧ decodePayload bytes = .ok m.payload := by
  constructor
  · intro h
    obtain ⟨rest, hread⟩ : ∃ rest, readHeader bytes = .ok m.header rest :=
      exists_readHeader_of_decode h
    obtain ⟨hkept, _, _, _, hmatch, _⟩ := matches_of_decode h
    rw [decode_of_readHeader hread hmatch.whole] at h
    refine ⟨hkept, Reader.outcome_eq_ok.2 ⟨rest, hread⟩, hmatch.whole, ?_⟩
    rw [decodePayload_of_readHeader hread hmatch.whole]
    cases hp : Payload.decode m.header.dataType rest with
    | error e =>
        rw [hp] at h
        cases h
    | ok p =>
        rw [hp] at h
        have hm := Inbound.message.inj (Except.ok.inj h)
        obtain rfl : p = m.payload := congrArg Message.payload hm
        rfl
  · rintro ⟨hkept, hheader, hwhole, hpayload⟩
    obtain ⟨rest, hread⟩ := Reader.outcome_eq_ok.1 hheader
    rw [decodePayload_of_readHeader hread hwhole] at hpayload
    rw [decode_of_readHeader hread hwhole, hpayload, ← hkept]
    rfl

theorem refused_of_decode_slice {s : Slice} (h : decode bytes = .ok (.slice s)) :
    (∃ e, decodePayload bytes = .error e ∧ e.kind = .validation)
      ∧ ∃ e, decodeMessage bytes = .error e ∧ e.kind = .validation := by
  obtain ⟨rest, hread⟩ := exists_readHeader_of_decode h
  refine ⟨⟨_, decodePayload_of_isSlice hread (isSlice_of_decode_slice h), rfl⟩,
    .invalid Message.owner .partialPayload, ?_, rfl⟩
  rw [decodeMessage, h]
  rfl

/-- The ways of decoding agree. A complete message is accepted alone exactly when it is accepted at
all, and that is when its header is accepted, is no slice's header, and the payload is accepted. A
slice has its header accepted and is refused, as invalid, where a payload or a complete message is
asked for. What comes after the header of a complete message decides its payload: accepted or
refused, the outcome is that of these bytes on their own. And a payload on its own is accepted
exactly when the record of its type is. -/
theorem entrances_agree (bytes : Bytes) :
    (∀ m, decodeMessage bytes = .ok m ↔ decode bytes = .ok (.message m))
    ∧ (∀ m, decode bytes = .ok (.message m) ↔ m.kept = ⟨some bytes⟩
      ∧ decodeHeader bytes = .ok m.header ∧ m.header.isSlice = false
      ∧ decodePayload bytes = .ok m.payload)
    ∧ (∀ s, decode bytes = .ok (.slice s) → decodeHeader bytes = .ok s.header
      ∧ (∃ e, decodePayload bytes = .error e ∧ e.kind = .validation)
      ∧ ∃ e, decodeMessage bytes = .error e ∧ e.kind = .validation)
    ∧ (∀ header, decodeHeader bytes = .ok header → ∃ front rest, bytes = front ++ rest
      ∧ readHeader bytes = .ok header rest
      ∧ (header.isSlice = false → decodePayload bytes = Payload.decode header.dataType rest))
    ∧ ∀ type p, Payload.decode type bytes = .ok p
      ↔ ∃ a, p = ⟨type, a⟩ ∧ type.record.decode bytes = .ok a := by
  refine ⟨fun m => decodeMessage_eq_ok, fun m => decode_eq_message_iff_parts, ?_, ?_,
    fun type p => Payload.decode_eq_ok_iff⟩
  · intro s h
    obtain ⟨rest, hread⟩ := exists_readHeader_of_decode h
    exact ⟨Reader.outcome_eq_ok.2 ⟨rest, hread⟩, refused_of_decode_slice h⟩
  · intro header h
    obtain ⟨rest, hread⟩ := Reader.outcome_eq_ok.1 h
    obtain ⟨head, front, _, _, rfl, _, _⟩ := placed_of_readHeader hread
    exact ⟨head ++ front, rest, (List.append_assoc ..).symm, hread,
      decodePayload_of_readHeader hread⟩

theorem entrances_agree_loose :
    (∃ m, decodeMessage loose = .ok m ∧ decodeHeader loose = .ok m.header
      ∧ decodePayload loose = .ok m.payload
      ∧ ∃ front rest, loose = front ++ rest
        ∧ Payload.decode m.header.dataType rest = .ok m.payload
        ∧ ∃ a, m.payload = ⟨m.header.dataType, a⟩
          ∧ m.header.dataType.record.decode rest = .ok a)
    ∧ ∃ bytes s, decode bytes = .ok (.slice s) ∧ decodeHeader bytes = .ok s.header
      ∧ ∃ e, decodeMessage bytes = .error e ∧ e.kind = .validation := by
  constructor
  · obtain ⟨hmessage, hparts, _, hrest, _⟩ := entrances_agree loose
    obtain ⟨m, hm⟩ := exists_decode_loose
    obtain ⟨_, hheader, hwhole, hpayload⟩ := (hparts m).1 hm
    obtain ⟨front, rest, hbytes, _, hagree⟩ := hrest m.header hheader
    have hdecode := (hagree hwhole).symm.trans hpayload
    obtain ⟨_, _, _, _, hrecord⟩ := entrances_agree rest
    exact ⟨m, (hmessage m).2 hm, hheader, hpayload, front, rest, hbytes, hdecode,
      (hrecord _ _).1 hdecode⟩
  · let s : Slice := ⟨{ Header.sample with fragmentation := .slice true false 0 2 }, [7]⟩
    obtain ⟨bytes, hencode⟩ : ∃ bytes, Slice.encode s.header s.chunk = .ok bytes := ⟨_, rfl⟩
    have hs : decode bytes = .ok (.slice s) := Slice.decode_of_encode rfl hencode
    obtain ⟨_, _, hslice, _, _⟩ := entrances_agree bytes
    obtain ⟨hheader, _, hrefused⟩ := hslice s hs
    exact ⟨bytes, s, hs, hheader, hrefused⟩

end Inbound

end DataGateway

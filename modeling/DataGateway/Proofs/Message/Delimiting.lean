import DataGateway.Proofs.Message.RoundTrip
import DataGateway.Proofs.Wire.Delimiting

/-!
# Where a message ends

A message is read in two stages. First its bytes are read from their start for as long as the
message goes (`content`); only then is it asked whether any are left, and whether a slice lies
inside its payload (`conclude`). The first stage is delimited, as all that is read of values is, and
every check on the way looks only at what has been read by then. So a message that was accepted can
neither be cut short nor go on: `decode_delimited` says which error stands for either.
-/

namespace DataGateway.Inbound

open Reader (Delimited)

/-- A header and what follows it: a payload, or the bytes of a slice under a slice's header. -/
def content : Reader (Header × (Bytes ⊕ Payload)) := do
  let header ← readHeader
  if header.isSlice then (header, .inl ·) <$> Reader.required Reader.binary Payload.slot
  else (header, .inr ·) <$> Payload.read header.dataType

/-- What the decoder makes of bytes that hold this and nothing after it. -/
def conclude (bytes : Bytes) : Header × (Bytes ⊕ Payload) → Except ProtocolError Inbound
  | (header, .inl chunk) => .slice <$> Slice.new header chunk
  | (header, .inr payload) => .ok (.message ⟨header, payload, ⟨some bytes⟩⟩)

variable {bytes : Bytes}

theorem decode_eq (bytes : Bytes) : decode bytes = Reader.outcome (do
    let read ← content
    Reader.finish
    Reader.ofExcept (conclude bytes read)) bytes := by
  unfold decode content
  rw [bind_assoc]
  congr 2
  funext header
  split
  · simp only [map_eq_pure_bind, bind_assoc, pure_bind, conclude]
    congr 2
    funext chunk
    congr 1
    funext _
    cases Slice.new header chunk <;> rfl
  · simp only [map_eq_pure_bind, bind_assoc, pure_bind, conclude]
    rfl

theorem decode_of_content_rest {c : Header × (Bytes ⊕ Payload)} {rest : Bytes}
    (h : content bytes = .ok c rest) (hrest : rest ≠ []) :
    decode bytes = .error (.trailingBytes rest.length) := by
  obtain ⟨b, r, rfl⟩ := List.exists_cons_of_ne_nil hrest
  rw [decode_eq, Reader.outcome, EStateM.run, Reader.bind_of_ok h]
  rfl

theorem decode_of_content_error {e : ProtocolError} {rest : Bytes}
    (h : content bytes = .error e rest) : decode bytes = .error e := by
  rw [decode_eq, Reader.outcome, EStateM.run, Reader.bind_of_error h]

/-- Of bytes that are accepted all are read. -/
theorem exists_content_of_decode {m : Inbound} (h : decode bytes = .ok m) :
    ∃ c, content bytes = .ok c [] := by
  cases hread : content bytes with
  | error e rest =>
      rw [decode_of_content_error hread] at h
      cases h
  | ok c rest =>
      cases rest with
      | nil => exact ⟨c, rfl⟩
      | cons b r =>
          rw [decode_of_content_rest hread (List.cons_ne_nil b r)] at h
          cases h

theorem delimited_readHeader : Delimited readHeader := by
  have hunpack : Delimited Header.record.unpack :=
    (Layout.delimited Header.record.row Header.record.name).bind fun _ => .ofExcept _
  exact (Delimited.sequence _ _).bind fun _ => hunpack.bind fun header =>
    (Delimited.ofExcept _).bind fun _ => .pure header

theorem delimited_content : Delimited content := by
  refine delimited_readHeader.bind fun header => ?_
  split
  · exact (Delimited.binary Payload.slot).required.map _
  · have hbody := Layout.delimited header.dataType.record.layout Payload.slot
    exact (hbody.required.map _).map _

/-- Accepted bytes cannot be cut short, which is always an error of decoding, nor followed by
others, which are then counted. -/
theorem decode_delimited {m : Inbound} (h : decode bytes = .ok m) :
    (∀ front back, bytes = front ++ back → back ≠ [] →
      ∃ e, decode front = .error e ∧ e.kind = .decode)
    ∧ ∀ x, x ≠ [] → decode (bytes ++ x) = .error (.trailingBytes x.length) := by
  obtain ⟨c, hread⟩ := exists_content_of_decode h
  constructor
  · rintro front back rfl hback
    rcases delimited_content.cut hread with ⟨u, _, hu⟩ | ⟨e, u, herror, hkind⟩
    · exact (hback (List.append_eq_nil_iff.1 hu.symm).2).elim
    · exact ⟨e, decode_of_content_error herror, hkind⟩
  · intro x hx
    exact decode_of_content_rest (delimited_content.extend hread x) hx

theorem decode_delimited_loose :
    (∀ n < loose.length, ∃ e, decode (loose.take n) = .error e ∧ e.kind = .decode)
    ∧ decode (loose ++ [0xc0, 0xc0]) = .error (.trailingBytes 2) := by
  obtain ⟨m, hm⟩ := exists_decode_loose
  obtain ⟨hcut, htrailing⟩ := decode_delimited hm
  refine ⟨fun n hn => ?_, htrailing _ (List.cons_ne_nil _ _)⟩
  refine hcut _ (loose.drop n) (List.take_append_drop n loose).symm fun hnil => ?_
  exact Nat.not_le.2 hn (List.drop_eq_nil_iff.1 hnil)

end DataGateway.Inbound

import DataGateway.Proofs.Message.RoundTrip

/-!
# The parts of a frame

A frame is put together from a header and what follows it, and it is read in the same two parts:
what follows is read from where the header ends. So what a frame decodes to is told by its parts,
whether its payload is well formed or not, and whether its header passes its check or not. For a
slice it is told by where the slice ends as well, which nobody asks when it is encoded.
-/

namespace DataGateway

open MessagePack (Value)

namespace Reader

variable {α β : Type} {s t : Bytes}

theorem outcome_map (f : α → β) (read : Reader α) (s : Bytes) :
    outcome (f <$> read) s = f <$> outcome read s := by
  unfold outcome EStateM.run
  cases h : read s <;> simp [Functor.map, EStateM.map, Except.map, h]

end Reader

theorem Header.sound_of_check {h : Header} (hcheck : h.check = .ok ()) :
    h.fragmentation.check = .ok () := by
  unfold Header.check at hcheck
  split at hcheck
  · cases hcheck
  · exact hcheck

theorem Fragmentation.offset_nonneg_of_check {first last : Bool} {offset size : Int64}
    (h : check (.slice first last offset size) = .ok ()) : 0 ≤ offset.toInt := by
  simp only [check] at h
  split at h
  · cases h
  split at h
  · cases h
  · rename_i hinside
    exact Int64.le_iff_toInt_le.1 (Int64.not_lt.1 fun hneg => hinside (.inl hneg))

theorem Header.unpack_of_pack {h : Header} (hsound : h.fragmentation.check = .ok ())
    {front : Bytes} (hpack : (record.pack h).result = .ok front) (t : Bytes) :
    record.unpack (front ++ t) = .ok h t := by
  have hfits : ∀ v ∈ record.row.dynamics (record.toRow h), v.Fits := by
    rw [Layout.dynamics_of_isStatic _ rfl]
    simp
  obtain ⟨fields, hspells, hshallow, hmatch⟩ :=
    Layout.faithful _ Header.unambiguous _ _ hpack hfits
  have hread := Layout.complete _ Header.unambiguous record.name _ _ _ t hmatch hshallow hspells
  simp only [Record.unpack, Reader.bind_eq_ok, Reader.ofExcept_eq_ok]
  exact ⟨_, _, hread, ofFields_toFields_of_sound hsound, rfl⟩

namespace Inbound

variable {h : Header} {rest : Draft} {frame : Bytes}

/-- The header of a frame is read up to where it ends, and then checked. -/
theorem readHeader_of_draft (hsound : h.fragmentation.check = .ok ())
    (hframe : (Message.draft h rest).result = .ok frame) : ∃ back, rest.result = .ok back
      ∧ readHeader frame = (do Reader.ofExcept h.check; return h : Reader Header) back := by
  obtain ⟨head, front, back, hpack, hback, rfl, rfl⟩ := Message.draft_result_eq_ok.1 hframe
  refine ⟨back, hback, ?_⟩
  have hsequence : Reader.sequence Message.owner Message.elements
      (MessagePack.arrayHead Message.elements ++ (front ++ back)) = .ok () (front ++ back) :=
    Reader.sequence_eq_ok.2 ⟨_, Message.elements_head, rfl⟩
  unfold readHeader
  rw [Reader.bind_of_ok hsequence, Reader.bind_of_ok (Header.unpack_of_pack hsound hpack back)]

/-- A complete message decodes to its header and what its payload decodes to. -/
theorem decode_of_draft {bytes : Bytes} (hcheck : h.check = .ok ()) (hwhole : h.isSlice = false)
    (hframe : (Message.draft h ⟨bytes, none⟩).result = .ok frame) :
    decode frame
      = (fun p => .message ⟨h, p, ⟨some frame⟩⟩) <$> Payload.decode h.dataType bytes := by
  obtain ⟨back, hback, hread⟩ := readHeader_of_draft (Header.sound_of_check hcheck) hframe
  obtain rfl : bytes = back := Except.ok.inj hback
  rw [hcheck] at hread
  rw [decode, Reader.outcome, EStateM.run, Reader.bind_of_ok hread,
    if_neg (by rw [hwhole]; exact Bool.false_ne_true), Payload.decode, ← Reader.outcome_map]
  simp [Reader.outcome, EStateM.run]

/-- An encoded message decodes to its header and what its payload decodes to. -/
theorem decode_of_encode {p : Payload} (hencode : Message.encode h p = .ok frame) :
    ∃ bytes, p.encode = .ok bytes ∧ decode frame
      = (fun q => .message ⟨h, q, ⟨some frame⟩⟩) <$> Payload.decode h.dataType bytes := by
  obtain ⟨hpair, hcheck, hdraft⟩ := Message.encode_eq_ok.1 hencode
  obtain ⟨head, front, bytes, hpack, hbytes, hhead, heq⟩ := Message.draft_result_eq_ok.1 hdraft
  refine ⟨bytes, hbytes, decode_of_draft hcheck (Message.checkPair_eq_ok.1 hpair).2 ?_⟩
  exact Message.draft_result_eq_ok.2 ⟨head, front, bytes, hpack, rfl, hhead, heq⟩

end Inbound

namespace Slice

variable {h : Header} {chunk frame : Bytes}

/-- A slice that was encoded comes back as it was if it ends inside its payload. Encoding does not
look at where it ends, and where it ends outside, its own bytes are refused. -/
theorem decode_encode_within (hencode : encode h chunk = .ok frame) :
    ∃ first last offset size, h.fragmentation = .slice first last offset size
      ∧ Inbound.decode frame
        = if offset.toInt + chunk.length ≤ size.toInt then .ok (.slice ⟨h, chunk⟩)
          else .error (.invalid owner .sliceBeyondFullSize) := by
  obtain ⟨fields, hspells, hmatch⟩ := matches_of_encode hencode
  obtain ⟨hslice, hcheck, _⟩ := encode_eq_ok.1 hencode
  cases hfragmentation : h.fragmentation with
  | whole offset =>
      rw [Header.isSlice, hfragmentation] at hslice
      cases hslice
  | slice first last offset size =>
      refine ⟨first, last, offset, size, rfl, ?_⟩
      have hsound := Header.sound_of_check hcheck
      rw [hfragmentation] at hsound
      have hoffset := Fragmentation.offset_nonneg_of_check hsound
      rw [Inbound.decode_eq_new_of_matches hspells hmatch hslice, new, hfragmentation]
      simp only [hoffset, true_and]
      split <;> rfl

/-- Two bytes of a payload of one byte. -/
def overlong : Slice := ⟨{ Header.sample with fragmentation := .slice true false 0 1 }, [7, 8]⟩

theorem decode_encode_within_samples :
    (∃ frame, encode overlong.header overlong.chunk = .ok frame
      ∧ Inbound.decode frame = .error (.invalid owner .sliceBeyondFullSize))
    ∧ ∃ frame, encode overlong.header [7] = .ok frame
      ∧ Inbound.decode frame = .ok (.slice ⟨overlong.header, [7]⟩) := by
  obtain ⟨long, hlong⟩ : ∃ frame, encode overlong.header overlong.chunk = .ok frame := ⟨_, rfl⟩
  obtain ⟨short, hshort⟩ : ∃ frame, encode overlong.header [7] = .ok frame := ⟨_, rfl⟩
  refine ⟨⟨long, hlong, ?_⟩, short, hshort, ?_⟩
  · obtain ⟨_, _, offset, size, hfragmentation, hdecode⟩ := decode_encode_within hlong
    cases hfragmentation
    exact hdecode
  · obtain ⟨_, _, offset, size, hfragmentation, hdecode⟩ := decode_encode_within hshort
    cases hfragmentation
    exact hdecode

/-- The slice `overlong` is encoded, and its own bytes do not bring it back. -/
theorem not_decode_encode_overlong : ∃ frame, encode overlong.header overlong.chunk = .ok frame
    ∧ Inbound.decode frame ≠ .ok (.slice overlong) := by
  obtain ⟨frame, hframe⟩ : ∃ frame, encode overlong.header overlong.chunk = .ok frame := ⟨_, rfl⟩
  obtain ⟨fields, hspells, hmatch⟩ := matches_of_encode hframe
  refine ⟨frame, hframe, ?_⟩
  rw [Inbound.decode_eq_new_of_matches hspells hmatch rfl]
  exact fun heq => nomatch heq

end Slice

end DataGateway

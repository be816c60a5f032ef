import DataGateway.Proofs.Assembler.History
import DataGateway.Proofs.Validity
import DataGateway.Proofs.Wire.Legible

/-!
# What was read

A message comes out of the bytes it was sent in, or its payload comes out of bytes that were pieced
together from slices under the header of the first one. Either way its payload was read from bytes
(`Payload.Legible`): so it is valid, and there is a value for it whose lengths can be announced,
which is all that it takes to write it again. `Message.Genuine` says this of a header and a payload
together, and every message that an assembler gives has it, as long as the assembler only takes
slices in that were decoded.
-/

namespace DataGateway

open MessagePack (Value)

/-- A value stands for the payload whose lengths can be announced and whose dynamic fields do not
nest too deep, as it does for every payload that was read. -/
def Payload.Legible (p : Payload) : Prop := p.type.record.layout.Legible p.body

/-- The header announces the payload as whole and can stand before it, and the payload was read. -/
structure Message.Genuine (header : Header) (payload : Payload) : Prop where
  whole : header.isSlice = false
  announced : header.dataType = payload.type
  sendable : header.Sendable
  legible : payload.Legible

theorem Header.sendable_of_matches {fields : List Value} {h : Header}
    (hmatch : Header.Matches fields h) (hsized : ∀ v ∈ fields, v.Sized) : h.Sendable := by
  obtain ⟨_, hpack⟩ := exists_pack_of_matches hmatch hsized
  obtain ⟨_, _, _, hcheck⟩ := hmatch
  exact sendable_of_pack hcheck hpack

namespace Payload

variable {p : Payload}

theorem legible_of_decode {type : DataType} {bytes : Bytes} (h : decode type bytes = .ok p) :
    p.Legible := by
  obtain ⟨t, h⟩ := Reader.outcome_eq_ok.1 h
  simp only [read, Reader.bind_eq_ok, Reader.map_eq_ok, Reader.pure_eq_ok] at h
  obtain ⟨_, _, ⟨body, hbody, rfl⟩, _, _, _, rfl, _⟩ := h
  obtain ⟨front, value, rfl, hspells, hshallow, hmatch⟩ :=
    (Layout.sound type.record.layout).required hbody
  exact ⟨value, hmatch, hshallow, hspells.sized⟩

theorem Legible.checked (h : p.Legible) : p.Checked := Layout.Legible.checked h

theorem Legible.exists_encode (h : p.Legible) : ∃ bytes, p.encode = .ok bytes :=
  Layout.Legible.exists_write h

theorem Legible.fits_normal (h : p.Legible) :
    ∀ v ∈ (p.mapDynamic Value.normal).dynamics, v.Fits := by
  rw [dynamics_mapDynamic]
  refine List.forall_mem_map.2 fun v hv => ?_
  obtain ⟨hdepth, hsized⟩ := Layout.Legible.dynamics h v hv
  exact Value.fits_normal hdepth hsized

end Payload

namespace Message

variable {header : Header} {payload : Payload}

/-- What can be announced is encoded: nothing is refused that was read. -/
theorem exists_encode (hsend : header.Sendable) (hpair : checkPair header payload = .ok ())
    (hpayload : payload.Legible) : ∃ bytes, encode header payload = .ok bytes :=
  exists_encode_iff.2 ⟨hpair, hsend, hpayload.exists_encode⟩

theorem Genuine.exists_encode (h : Genuine header payload) :
    ∃ bytes, encode header payload = .ok bytes :=
  Message.exists_encode h.sendable (checkPair_eq_ok.2 ⟨h.announced, h.whole⟩) h.legible

theorem genuine_of_decode {bytes : Bytes} {m : Message}
    (h : Inbound.decode bytes = .ok (.message m)) : Genuine m.header m.payload := by
  obtain ⟨_, fields, value, hspells, hmatch, hshallow⟩ := Inbound.matches_of_decode h
  have hself := hspells.sized _ (List.mem_singleton_self _)
  have hvalue : value ∈ fields ++ [value] :=
    List.mem_append_right fields (List.mem_singleton_self value)
  have hsend := Header.sendable_of_matches hmatch.header fun v hv =>
    hself.of_mem_children (List.mem_append_left _ hv)
  exact ⟨hmatch.whole, hmatch.announced.symm, hsend, value, hmatch.payload, hshallow,
    List.forall_mem_singleton.2 (hself.of_mem_children hvalue)⟩

end Message

theorem Slice.sendable_of_decode {bytes : Bytes} {s : Slice}
    (h : Inbound.decode bytes = .ok (.slice s)) : s.header.Sendable := by
  obtain ⟨fields, hspells, hmatch, _⟩ := Inbound.matches_of_decode_slice h
  have hself := hspells.sized _ (List.mem_singleton_self _)
  exact Header.sendable_of_matches hmatch fun v hv =>
    hself.of_mem_children (List.mem_append_left _ hv)

namespace Assembler

variable {a : Assembler} {s : Slice}

/-- The header of every incomplete message can stand before a message. -/
def Sendable (a : Assembler) : Prop := ∀ id p, a.pending.get? id = some p → p.header.Sendable

theorem Sendable.drop (h : a.Sendable) (id : String) : (a.drop id).Sendable := by
  intro other p hp
  rw [Assembler.drop, Dict.get?_erase] at hp
  split at hp
  · cases hp
  · exact h other p hp

/-- What a slice is added to has a header that can be sent, and so has the message it gives. -/
theorem Sendable.push (h : a.Sendable) (hs : s.header.Sendable) : (a.push s).2.Sendable
    ∧ ∀ m, (a.push s).1 = .ok (some m) → Message.Genuine m.header m.payload := by
  cases hpush : (a.push s).1 with
  | error e =>
      refine ⟨?_, fun _ hm => by cases hm⟩
      rcases push_of_error hpush with hsame | hdrop
      · rwa [hsame]
      · rw [hdrop]
        exact h.drop _
  | ok outcome =>
      obtain ⟨p, first, size, hadded, hsend⟩ : ∃ p first size,
          Added p s first size outcome (a.push s).2 ∧ p.header.Sendable := by
        obtain ⟨p, size, ⟨hadded, rfl, _⟩ | ⟨hadded, hp⟩⟩ := push_eq_ok hpush
        · exact ⟨_, true, size, hadded, hs⟩
        · exact ⟨p, false, size, hadded, h _ p hp⟩
      constructor
      · intro id q hq
        by_cases hid : id = s.header.messageId
        · rw [hid, hadded.pending] at hq
          split at hq
          · cases hq
          · cases hq
            exact hsend
        · rw [get?_push_of_ne a hid] at hq
          exact h id q hq
      · rintro m ⟨⟩
        obtain ⟨_, hdecode, hheader⟩ := complete_eq_ok (hadded.complete m rfl)
        rw [hheader]
        exact ⟨rfl, (Payload.type_of_decode hdecode).symm,
          ⟨hsend.messageId_ne, hsend.messageId_lt, hsend.userName_lt⟩,
          Payload.legible_of_decode hdecode⟩

/-- Frames keep it so, and every message that one comes to is genuine. -/
theorem Sendable.accept (h : a.Sendable) (frame : Bytes) : (a.accept frame).2.Sendable
    ∧ ∀ m, (a.accept frame).1 = .ok (some m) → Message.Genuine m.header m.payload := by
  cases hdecode : Inbound.decode frame with
  | error e =>
      rw [accept_of_error a hdecode]
      exact ⟨h, fun _ hm => by cases hm⟩
  | ok inbound =>
      cases inbound with
      | message m =>
          rw [accept_of_message a hdecode]
          refine ⟨h, ?_⟩
          rintro _ ⟨⟩
          exact Message.genuine_of_decode hdecode
      | slice s =>
          rw [accept_of_slice a hdecode]
          exact h.push (Slice.sendable_of_decode hdecode)

theorem Sendable.acceptAll (h : a.Sendable) (frames : List Bytes) :
    (a.acceptAll frames).2.Sendable := by
  induction frames generalizing a with
  | nil => exact h
  | cons frame frames ih => exact ih (h.accept frame).1

end Assembler

end DataGateway

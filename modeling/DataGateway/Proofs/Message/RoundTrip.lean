import DataGateway.Proofs.Message.Tree
import DataGateway.Proofs.MessagePack.Normal

/-!
# Decoding and encoding undo each other

A message that was encoded is decoded again as it was. Bytes that were decoded need not be the bytes
that encoding gives, since they may have taken another form of a number or a length, repeated a key
or held a string that is no text; but encoding succeeds, and from then on nothing changes any more.
-/

namespace DataGateway

open MessagePack (Value Spells)

/-- A value that was read, with its strings that are no texts turned into binaries, is read back. -/
theorem MessagePack.Value.fits_normal {v : Value} (hdepth : v.depth ≤ Value.depthBudget)
    (hsized : v.Sized) : v.normal.Fits :=
  ⟨(Value.depth_normal_le v).trans hdepth, Value.textual_normal v, Value.sized_normal hsized⟩

/-- Every message that is encoded is decoded to itself, and its bytes are kept. -/
theorem Message.decode_encode {h : Header} {p : Payload} {bytes : Bytes}
    (hencode : Message.encode h p = .ok bytes) (hfits : ∀ v ∈ p.dynamics, v.Fits) :
    Inbound.decode bytes = .ok (.message ⟨h, p, ⟨some bytes⟩⟩) := by
  obtain ⟨fields, value, hspells, hmatch, hshallow⟩ := matches_of_encode hencode hfits
  exact Inbound.decode_of_matches hspells hmatch hshallow

/-- A header of a document. -/
def Header.sample : Header where
  userName := "u"
  messageId := "m"
  createTime := 1
  requestTime := 2
  dataType := .eventDocument

/-- A document of one row, with a text, and a nil and a number in an array. -/
def Payload.sample : Payload where
  type := .eventDocument
  body :=
    { tableName := "t"
      descriptors := [⟨"a", .text, ""⟩, ⟨"b", .double, ""⟩]
      records := [[.string [0x78], .array [.nil, .float64 3]]] : EventDocument }

theorem Message.decode_encode_sample : ∃ bytes,
    Message.encode Header.sample Payload.sample = .ok bytes
      ∧ Inbound.decode bytes = .ok (.message ⟨Header.sample, Payload.sample, ⟨some bytes⟩⟩) := by
  have hfits : ∀ v ∈ Payload.sample.dynamics, v.Fits := by decide
  obtain ⟨bytes, hencode⟩ : ∃ bytes, Message.encode Header.sample Payload.sample = .ok bytes :=
    ⟨_, rfl⟩
  exact ⟨bytes, hencode, Message.decode_encode hencode hfits⟩

theorem Payload.type_of_decode {type : DataType} {bytes : Bytes} {p : Payload}
    (h : Payload.decode type bytes = .ok p) : p.type = type := by
  obtain ⟨t, h⟩ := Reader.outcome_eq_ok.1 h
  simp only [Payload.read, Reader.bind_eq_ok, Reader.map_eq_ok, Reader.pure_eq_ok] at h
  obtain ⟨_, _, ⟨_, _, rfl⟩, _, _, _, rfl, _⟩ := h
  rfl

/-- Every payload that is encoded on its own is decoded to itself. -/
theorem Payload.decode_of_encode {p : Payload} {bytes : Bytes} (hencode : p.encode = .ok bytes)
    (hfits : ∀ v ∈ p.dynamics, v.Fits) : Payload.decode p.type bytes = .ok p := by
  obtain ⟨value, hspells, hshallow, hmatch⟩ :=
    Layout.faithful _ (DataType.unambiguous p.type) p.body bytes hencode hfits
  have hread := Layout.complete _ (DataType.unambiguous p.type) Payload.slot value p.body bytes []
    hmatch hshallow hspells
  rw [List.append_nil] at hread
  refine Reader.outcome_eq_ok.2 ⟨[], ?_⟩
  simp only [Payload.read, Reader.bind_eq_ok, Reader.map_eq_ok, Reader.finish_eq_ok,
    Reader.pure_eq_ok, Reader.required_eq_ok]
  exact ⟨p, [], ⟨p.body, hread, rfl⟩, (), [], ⟨rfl, rfl⟩, rfl, rfl⟩

theorem Slice.decode_of_encode {s : Slice} {bytes : Bytes}
    (hnew : Slice.new s.header s.chunk = .ok s)
    (hencode : Slice.encode s.header s.chunk = .ok bytes) :
    Inbound.decode bytes = .ok (.slice s) := by
  obtain ⟨fields, hspells, hmatch⟩ := matches_of_encode hencode
  exact Inbound.decode_slice_of_matches hspells hmatch hnew

theorem Message.encode_mapDynamic {f : Value → Value} (hf : ∀ v, (f v).encode = v.encode)
    (h : Header) (p : Payload) : Message.encode h (p.mapDynamic f) = Message.encode h p := by
  rw [encode, encode, Payload.write_mapDynamic hf]
  rfl

namespace Inbound

theorem decodeMessage_eq_ok {bytes : Bytes} {m : Message} :
    decodeMessage bytes = .ok m ↔ decode bytes = .ok (.message m) := by
  unfold decodeMessage
  cases decode bytes with
  | error e => simp [bind, Except.bind]
  | ok inbound =>
      cases inbound <;>
        simp [bind, Except.bind, pure, Except.pure, throw, throwThe, MonadExceptOf.throw]

/-- The dynamic values of a message that was decoded. -/
theorem dynamics_of_decode {bytes : Bytes} {m : Message} (h : decode bytes = .ok (.message m)) :
    ∀ v ∈ m.payload.dynamics, v.depth ≤ Value.depthBudget ∧ v.Sized := by
  obtain ⟨_, fields, value, hspells, hmatch, hshallow⟩ := matches_of_decode h
  intro v hv
  have hfield := Layout.dynamics_subset m.payload.type.record.layout _ _ hmatch.payload hv
  obtain ⟨c, hc, hpart⟩ := Layout.mem_parts_of_mem_dynamicFields _ _ v hfield
  obtain rfl := List.mem_singleton.1 hc
  have hself := hspells.sized _ (List.mem_singleton_self _)
  have hchild : c ∈ (Value.array (fields ++ [c])).children :=
    List.mem_append_right _ (List.mem_singleton_self c)
  exact ⟨hshallow v hfield, (hself.of_mem_children hchild).of_mem_parts hpart⟩

/-- Bytes that decode are brought into normal form by one encoding: a message comes back with the
dynamic strings that are no texts turned into binaries, a slice comes back as it is. -/
theorem normal_of_decode (bytes : Bytes) :
    (∀ m, decode bytes = .ok (.message m) → ∃ bytes', Message.encode m.header m.payload = .ok bytes'
      ∧ decode bytes'
        = .ok (.message ⟨m.header, m.payload.mapDynamic Value.normal, ⟨some bytes'⟩⟩)
      ∧ Message.encode m.header (m.payload.mapDynamic Value.normal) = .ok bytes')
    ∧ ∀ s, decode bytes = .ok (.slice s) → ∃ bytes', Slice.encode s.header s.chunk = .ok bytes'
      ∧ decode bytes' = .ok (.slice s) := by
  constructor
  · intro m h
    obtain ⟨_, fields, value, hspells, hmatch, _⟩ := matches_of_decode h
    have hsized := hspells.sized _ (List.mem_singleton_self _)
    obtain ⟨bytes', hencode⟩ := Message.exists_encode_of_matches hmatch fun v hv =>
      hsized.of_mem_children hv
    have hagain : Message.encode m.header (m.payload.mapDynamic Value.normal) = .ok bytes' := by
      rw [Message.encode_mapDynamic Value.encode_normal, hencode]
    have hfits : ∀ v ∈ (m.payload.mapDynamic Value.normal).dynamics, v.Fits := by
      rw [Payload.dynamics_mapDynamic]
      refine List.forall_mem_map.2 fun v hv => ?_
      obtain ⟨hdepth, hsized⟩ := dynamics_of_decode h v hv
      exact Value.fits_normal hdepth hsized
    obtain ⟨_, _, hspells', hmatch', hshallow⟩ := Message.matches_of_encode hagain hfits
    exact ⟨bytes', hencode, decode_of_matches hspells' hmatch' hshallow, hagain⟩
  · intro s h
    obtain ⟨fields, hspells, hmatch, hnew⟩ := matches_of_decode_slice h
    have hsized := hspells.sized _ (List.mem_singleton_self _)
    obtain ⟨_, first, last, offset, size, hfragmentation, _⟩ := Slice.new_eq_ok.1 hnew
    have hslice : s.header.isSlice = true := by
      simp [Header.isSlice, hfragmentation, Fragmentation.isSlice]
    obtain ⟨bytes', hencode⟩ := Slice.exists_encode_of_matches hmatch hslice fun v hv =>
      hsized.of_mem_children hv
    exact ⟨bytes', hencode, Slice.decode_of_encode hnew hencode⟩

/-- A message in longer forms than needed, with a dynamic string that is no text. -/
def loose : Bytes :=
  [0xdc, 0x00, 0x0b, 0xd9, 0x01, 0x75, 0xa1, 0x6d, 0xcc, 0x01, 0xd1, 0x00, 0x02, 0xc2, 0xc0, 0xc0,
    0xc0, 0xc0, 0x08, 0x94, 0xa1, 0x74, 0x91, 0x93, 0xa1, 0x61, 0xa4, 0x54, 0x45, 0x58, 0x54, 0xa0,
    0x91, 0x91, 0xa1, 0xff, 0xc0]

theorem exists_decode_of_isOk {bytes : Bytes} (h : (decodeMessage bytes).isOk = true) :
    ∃ m, decode bytes = .ok (.message m) := by
  cases hm : decodeMessage bytes with
  | error e => simp [hm, Except.isOk, Except.toBool] at h
  | ok m => exact ⟨m, decodeMessage_eq_ok.1 hm⟩

theorem exists_decode_loose : ∃ m, decode loose = .ok (.message m) :=
  exists_decode_of_isOk (by decide +kernel)

theorem normal_of_decode_loose : (∃ m bytes', decode loose = .ok (.message m)
      ∧ Message.encode m.header m.payload = .ok bytes'
      ∧ Message.encode m.header (m.payload.mapDynamic Value.normal) = .ok bytes')
    ∧ ∃ bytes s bytes', decode bytes = .ok (.slice s) ∧ Slice.encode s.header s.chunk = .ok bytes'
      ∧ decode bytes' = .ok (.slice s) := by
  constructor
  · obtain ⟨m, hm⟩ := exists_decode_loose
    obtain ⟨bytes', hencode, _, hagain⟩ := (normal_of_decode loose).1 m hm
    exact ⟨m, bytes', hm, hencode, hagain⟩
  · let s : Slice := ⟨{ Header.sample with fragmentation := .slice true false 0 2 }, [7]⟩
    obtain ⟨bytes, hencode⟩ : ∃ bytes, Slice.encode s.header s.chunk = .ok bytes := ⟨_, rfl⟩
    have hs : decode bytes = .ok (.slice s) := Slice.decode_of_encode rfl hencode
    obtain ⟨bytes', hencode', hdecode⟩ := (normal_of_decode bytes).2 s hs
    exact ⟨bytes, s, bytes', hs, hencode', hdecode⟩

end Inbound

end DataGateway

import DataGateway.Message
import DataGateway.Proofs.Payload
import DataGateway.Proofs.Wire.Parsing
import DataGateway.Proofs.Wire.Writing

/-!
# Messages as values

A message is one value on the wire: an array of the values of its header's fields and of one value
more, the payload's, or under a slice's header a binary. This module says which values those are
(`Header.Matches`, `Payload.Matches`), and takes decoding and encoding apart into them, so that
later proofs need not look at a reader or a draft again.
-/

namespace DataGateway

open MessagePack (Value Spells Head Place Cut)

/-- The values stand for a header whose fields make sense together. -/
def Header.Matches (fields : List Value) (h : Header) : Prop :=
  ∃ r, Header.record.row.Matches fields r ∧ Header.ofFields r = .ok h ∧ h.check = .ok ()

/-- A header can stand before a message: it has an id, and its texts are short enough to be
announced. -/
structure Header.Sendable (h : Header) : Prop where
  messageId_ne : h.messageId ≠ ""
  messageId_lt : (Text.octets h.messageId).length < 2 ^ 32
  userName_lt : (Text.octets h.userName).length < 2 ^ 32

/-- The value stands for the payload. -/
def Payload.Matches (value : Value) (p : Payload) : Prop :=
  p.type.record.layout.Matches value p.body

/-- No dynamic field of a payload of this type nests too deep. -/
def DataType.Shallow (type : DataType) (value : Value) : Prop := type.record.layout.Shallow value

/-- The values stand for a complete message: the fields of its header and its payload. -/
structure Message.Matches (fields : List Value) (value : Value) (h : Header) (p : Payload) :
    Prop where
  count : fields.length + 1 = Message.elements
  header : Header.Matches fields h
  whole : h.isSlice = false
  announced : p.type = h.dataType
  payload : Payload.Matches value p

namespace Header

theorem length_of_matches {fields : List Value} {h : Header} (hmatch : Matches fields h) :
    fields.length + 1 = Message.elements := by
  obtain ⟨r, hrow, _⟩ := hmatch
  rw [Layout.length_of_matches _ hrow]
  rfl

/-- What writing a header that passes its check puts down. -/
theorem matches_of_pack {h : Header} (hcheck : h.check = .ok ()) {bytes : Bytes}
    (hpack : (Header.record.pack h).result = .ok bytes) :
    ∃ fields, Spells False fields bytes ∧ Matches fields h := by
  have hfits : ∀ v ∈ Header.record.row.dynamics (Header.record.toRow h), v.Fits := by
    rw [Layout.dynamics_of_isStatic _ rfl]
    simp
  obtain ⟨fields, hspells, _, hmatch⟩ := Layout.faithful _ Header.unambiguous _ _ hpack hfits
  exact ⟨fields, hspells, _, hmatch, Header.record.ofRow_toRow h hcheck, hcheck⟩

theorem exists_pack_of_matches {fields : List Value} {h : Header} (hmatch : Matches fields h)
    (hsized : ∀ v ∈ fields, v.Sized) : ∃ bytes, (Header.record.pack h).result = .ok bytes := by
  obtain ⟨r, hrow, hr, _⟩ := hmatch
  obtain rfl := Header.record.toRow_ofRow r h hr
  exact Layout.exists_write_of_matches _ fields _ hrow hsized

theorem sendable_of_pack {h : Header} (hcheck : h.check = .ok ()) {bytes : Bytes}
    (hpack : (Header.record.pack h).result = .ok bytes) : h.Sendable := by
  obtain ⟨_, _, huser, hrest, _⟩ := Draft.append_result_eq_ok.1 hpack
  obtain ⟨_, _, hid, _, _⟩ := Draft.append_result_eq_ok.1 hrest
  refine ⟨?_, (Draft.measured_result_eq_ok.1 hid).1, (Draft.measured_result_eq_ok.1 huser).1⟩
  intro hempty
  simp [check, hempty] at hcheck

theorem Sendable.exists_pack {h : Header} (hsend : h.Sendable) :
    ∃ bytes, (Header.record.pack h).result = .ok bytes := by
  refine Draft.exists_append (Draft.exists_measured hsend.userName_lt _)
    (Draft.exists_append (Draft.exists_measured hsend.messageId_lt _) ?_)
  obtain ⟨userName, messageId, createTime, requestTime, fragmentation, dataType⟩ := h
  cases fragmentation with
  | whole offset => cases offset <;> exact ⟨_, rfl⟩
  | slice first last offset size => exact ⟨_, rfl⟩

end Header

namespace Slice

theorem new_eq_ok {h : Header} {chunk : Bytes} {s : Slice} : new h chunk = .ok s ↔
    s = ⟨h, chunk⟩ ∧ ∃ first last offset size, h.fragmentation = .slice first last offset size
      ∧ 0 ≤ offset.toInt ∧ offset.toInt + chunk.length ≤ size.toInt := by
  unfold new
  cases h.fragmentation with
  | whole offset => simp
  | slice first last offset size =>
      simp only
      split <;> simp_all [eq_comm]

end Slice

/-! ### Reading -/

namespace Reader

theorem sequence_eq_ok {owner : String} {count : Nat} {s t : Bytes} {u : Unit} :
    sequence owner count s = .ok u t ↔ ∃ head, Head .array count head ∧ s = head ++ t := by
  simp only [sequence, bind_eq_ok, peek_eq_ok]
  constructor
  · rintro ⟨marker, _, ⟨rfl, b, r, rfl, hb⟩, h⟩
    split at h
    · obtain ⟨_, _, hthrow, _⟩ := bind_eq_ok.1 h
      exact (throw_eq_ok.1 hthrow).elim
    · rename_i hfamily
      simp only [bind_eq_ok, skip_eq_ok, length, map_eq_ok, number, numberOr_eq_ok] at h
      obtain ⟨_, _, rfl, n, _, ⟨_, ⟨operand, hwidth, hr, rfl⟩, hn⟩, h⟩ := h
      split at h
      · exact (throw_eq_ok.1 h).elim
      · rename_i hcount
        obtain ⟨-, rfl⟩ := pure_eq_ok.1 h
        have hhead : Head .array (marker.operand.value operand) (b :: operand) :=
          ⟨b, marker, operand, hb, not_not.1 hfamily, hwidth, rfl, rfl⟩
        have hlength := (not_not.1 hcount).symm.trans hn.symm
        exact ⟨b :: operand, hhead.of_toNat rfl hlength, congrArg (b :: ·) hr⟩
  · rintro ⟨_, ⟨b, marker, operand, hb, hfamily, hwidth, hn, rfl⟩, rfl⟩
    refine ⟨marker, _, ⟨rfl, b, operand ++ t, rfl, hb⟩, ?_⟩
    rw [if_neg (not_not.2 hfamily)]
    simp only [bind_eq_ok, skip_eq_ok, length, map_eq_ok, number, numberOr_eq_ok]
    refine ⟨(), _, rfl, count, t, ⟨_, ⟨operand, hwidth, rfl, hn⟩, Int.toNat_natCast count⟩, ?_⟩
    rw [if_neg (not_not.2 rfl)]
    exact pure_eq_ok.2 ⟨rfl, rfl⟩

end Reader

namespace Inbound

/-- Where the values of a message stand: the array, the fields of the header in it, and the value
after them, held against its layout. -/
def framePlaces {α : Type} (l : Layout .value α) (fields : List Value) (value : Value) :
    List Place :=
  ⟨.array (fields ++ [value]), false⟩ :: (Header.record.row.places fields ++ l.places value)

theorem map_value_framePlaces {α : Type} {l : Layout .value α} {fields : List Value}
    {value : Value} {h : Header} {a : α} (hheader : Header.Matches fields h)
    (hmatch : l.Matches value a) : (framePlaces l fields value).map Place.value
      = Value.partsItems [.array (fields ++ [value])] := by
  obtain ⟨r, hrow, _⟩ := hheader
  have hfields : (Header.record.row.places fields).map Place.value = Value.partsItems fields :=
    Header.record.row.map_value_places fields r hrow
  have hvalue : (l.places value).map Place.value = Value.partsItems [value] :=
    l.map_value_places value a hmatch
  simp [framePlaces, hfields, hvalue, Value.partsItems, Value.parts, Value.partsItems_append]

theorem cut_frame {α : Type} {l : Layout .value α} {fields : List Value} {value : Value}
    {head front back : Bytes} (hcount : fields.length + 1 = Message.elements)
    (hhead : Head .array Message.elements head)
    (hfront : Cut (Header.record.row.places fields) front) (hback : Cut (l.places value) back) :
    Cut (framePlaces l fields value) (head ++ (front ++ back)) := by
  refine .cons (.array ?_) (hfront.append hback)
  rwa [List.length_append, List.length_singleton, hcount]

theorem placed_of_readHeader {s t : Bytes} {h : Header} (hread : readHeader s = .ok h t) :
    ∃ head front fields, Head .array Message.elements head ∧ s = head ++ (front ++ t)
      ∧ Cut (Header.record.row.places fields) front ∧ Header.Matches fields h := by
  simp only [readHeader, Record.unpack, Reader.bind_eq_ok, Reader.sequence_eq_ok,
    Reader.ofExcept_eq_ok, Reader.pure_eq_ok] at hread
  obtain ⟨_, _, ⟨head, hhead, rfl⟩, _, _, ⟨r, _, hrow, hr, rfl⟩, _, _, ⟨hcheck, rfl⟩, rfl, rfl⟩ :=
    hread
  have hplaced : Header.record.row.Placed := Layout.placed _
  obtain ⟨front, fields, rfl, hcut, _, hmatch⟩ := hplaced _ _ _ _ hrow
  exact ⟨head, front, fields, hhead, rfl, hcut, r, hmatch, hr, hcheck⟩

theorem readHeader_of_matches {head front t : Bytes} {fields : List Value} {h : Header}
    (hhead : Head .array Message.elements head) (hspells : Spells False fields front)
    (hmatch : Header.Matches fields h) : readHeader (head ++ (front ++ t)) = .ok h t := by
  obtain ⟨r, hrow, hr, hcheck⟩ := hmatch
  have hshallow := Header.record.row.shallow_of_isStatic rfl fields
  have hread :=
    Layout.complete _ Header.unambiguous Header.record.name _ _ _ t hrow hshallow hspells
  simp only [readHeader, Record.unpack, Reader.bind_eq_ok, Reader.sequence_eq_ok,
    Reader.ofExcept_eq_ok, Reader.pure_eq_ok]
  exact ⟨(), _, ⟨head, hhead, rfl⟩, h, t, ⟨r, t, hread, hr, rfl⟩, (), t, ⟨hcheck, rfl⟩, rfl, rfl⟩

/-- The value that follows a header, and what it stands for. -/
theorem spells_frame_iff {reserved : Prop} {fields : List Value} {value : Value}
    (hcount : fields.length + 1 = Message.elements) {bytes : Bytes} :
    Spells reserved [.array (fields ++ [value])] bytes ↔
      ∃ head front back, Head .array Message.elements head ∧ Spells reserved fields front
        ∧ Spells reserved [value] back ∧ bytes = head ++ (front ++ back) := by
  rw [Spells.array_iff, List.length_append, List.length_singleton, hcount]
  constructor
  · rintro ⟨head, _, hhead, hbody, rfl⟩
    obtain ⟨front, back, rfl, hfront, hback⟩ := Spells.append_iff.1 hbody
    exact ⟨head, front, back, hhead, hfront, hback, rfl⟩
  · rintro ⟨head, front, back, hhead, hfront, hback, rfl⟩
    exact ⟨head, front ++ back, hhead, hfront.append hback, rfl⟩

/-- Bytes that decode to a complete message are cut at its places, and are kept with it. -/
theorem placed_of_decode {bytes : Bytes} {m : Message} (h : decode bytes = .ok (.message m)) :
    m.kept = ⟨some bytes⟩ ∧ ∃ fields value,
      Cut (framePlaces m.payload.type.record.layout fields value) bytes
        ∧ Message.Matches fields value m.header m.payload ∧ m.payload.type.Shallow value := by
  obtain ⟨t, h⟩ := Reader.outcome_eq_ok.1 h
  obtain ⟨header, r, hheader, h⟩ := Reader.bind_eq_ok.1 h
  obtain ⟨head, front, fields, hhead, rfl, hfront, hmatch⟩ := placed_of_readHeader hheader
  have hcount := Header.length_of_matches hmatch
  split at h
  · simp only [Reader.bind_eq_ok, Reader.map_eq_ok] at h
    obtain ⟨_, _, _, _, _, _, _, _, hslice⟩ := h
    cases hslice
  · rename_i hwhole
    simp only [Payload.read, Reader.bind_eq_ok, Reader.map_eq_ok, Reader.finish_eq_ok,
      Reader.pure_eq_ok] at h
    obtain ⟨_, _, ⟨body, hbody, rfl⟩, _, _, ⟨rfl, rfl⟩, hm, rfl⟩ := h
    obtain rfl := Inbound.message.inj hm
    obtain ⟨back, value, rfl, hback, hshallow, hpayload⟩ :=
      (Layout.placed header.dataType.record.layout).required hbody
    rw [List.append_nil]
    refine ⟨rfl, fields, value, cut_frame hcount hhead hfront hback,
      ⟨hcount, hmatch, ?_, rfl, hpayload⟩, hshallow⟩
    simpa using hwhole

/-- What follows for the values: bytes that decode to a complete message spell it. -/
theorem matches_of_decode {bytes : Bytes} {m : Message} (h : decode bytes = .ok (.message m)) :
    m.kept = ⟨some bytes⟩ ∧ ∃ fields value, Spells True [.array (fields ++ [value])] bytes
      ∧ Message.Matches fields value m.header m.payload ∧ m.payload.type.Shallow value := by
  obtain ⟨hkept, fields, value, hcut, hmatch, hshallow⟩ := placed_of_decode h
  exact ⟨hkept, fields, value, hcut.spells (map_value_framePlaces hmatch.header hmatch.payload),
    hmatch, hshallow⟩

/-- Whatever spells a complete message decodes to it. -/
theorem decode_of_matches {bytes : Bytes} {fields : List Value} {value : Value} {h : Header}
    {p : Payload} (hspells : Spells False [.array (fields ++ [value])] bytes)
    (hmatch : Message.Matches fields value h p) (hshallow : p.type.Shallow value) :
    decode bytes = .ok (.message ⟨h, p, ⟨some bytes⟩⟩) := by
  obtain ⟨hcount, hheader, hwhole, hannounced, hpayload⟩ := hmatch
  obtain ⟨head, front, back, hhead, hfront, hback, rfl⟩ := (spells_frame_iff hcount).1 hspells
  obtain ⟨type, body⟩ := p
  obtain rfl : type = h.dataType := hannounced
  have hread := Layout.complete _ (DataType.unambiguous h.dataType) Payload.slot _ _ back []
    hpayload hshallow hback
  refine Reader.outcome_eq_ok.2 ⟨[], Reader.bind_eq_ok.2
    ⟨h, back, readHeader_of_matches hhead hfront hheader, ?_⟩⟩
  rw [if_neg (by simp [hwhole])]
  simp only [Payload.read, Reader.bind_eq_ok, Reader.map_eq_ok, Reader.finish_eq_ok,
    Reader.pure_eq_ok, Reader.required_eq_ok]
  rw [List.append_nil] at hread
  exact ⟨_, _, ⟨body, hread, rfl⟩, (), [], ⟨rfl, rfl⟩, rfl, rfl⟩

/-- Bytes that decode to a slice are cut at its places. -/
theorem placed_of_decode_slice {bytes : Bytes} {s : Slice} (h : decode bytes = .ok (.slice s)) :
    ∃ fields, Cut (framePlaces .binary fields (.binary s.chunk)) bytes
      ∧ Header.Matches fields s.header ∧ Slice.new s.header s.chunk = .ok s := by
  obtain ⟨t, h⟩ := Reader.outcome_eq_ok.1 h
  obtain ⟨header, r, hheader, h⟩ := Reader.bind_eq_ok.1 h
  obtain ⟨head, front, fields, hhead, rfl, hfront, hmatch⟩ := placed_of_readHeader hheader
  have hcount := Header.length_of_matches hmatch
  split at h
  · simp only [Reader.bind_eq_ok, Reader.map_eq_ok, Reader.finish_eq_ok, Reader.ofExcept_eq_ok] at h
    obtain ⟨chunk, _, hchunk, _, _, ⟨rfl, rfl⟩, _, ⟨hnew, rfl⟩, hs⟩ := h
    obtain rfl := Inbound.slice.inj hs
    obtain ⟨back, value, rfl, hback, _, rfl⟩ := (Layout.placed Layout.binary).required hchunk
    obtain rfl := (Slice.new_eq_ok.1 hnew).1
    refine ⟨fields, ?_, hmatch, hnew⟩
    rw [List.append_nil]
    exact cut_frame hcount hhead hfront hback
  · simp only [Payload.read, Reader.bind_eq_ok, Reader.pure_eq_ok] at h
    obtain ⟨_, _, _, _, _, _, hmessage, _⟩ := h
    cases hmessage

theorem matches_of_decode_slice {bytes : Bytes} {s : Slice} (h : decode bytes = .ok (.slice s)) :
    ∃ fields, Spells True [.array (fields ++ [.binary s.chunk])] bytes
      ∧ Header.Matches fields s.header ∧ Slice.new s.header s.chunk = .ok s := by
  obtain ⟨fields, hcut, hmatch, hnew⟩ := placed_of_decode_slice h
  exact ⟨fields, hcut.spells (map_value_framePlaces (l := .binary) hmatch rfl), hmatch, hnew⟩

/-- Whatever spells a slice decodes to it, if it lies inside its payload. -/
theorem decode_eq_new_of_matches {bytes : Bytes} {fields : List Value} {h : Header} {chunk : Bytes}
    (hspells : Spells False [.array (fields ++ [.binary chunk])] bytes)
    (hmatch : Header.Matches fields h) (hslice : h.isSlice = true) :
    decode bytes = .slice <$> Slice.new h chunk := by
  have hcount := Header.length_of_matches hmatch
  obtain ⟨head, front, back, hhead, hfront, hback, rfl⟩ := (spells_frame_iff hcount).1 hspells
  have hread := Layout.complete Layout.binary rfl Payload.slot (.binary chunk) chunk back [] rfl
    (Layout.binary.shallow_of_isStatic rfl _) hback
  rw [List.append_nil] at hread
  have hchunk : Reader.required Reader.binary Payload.slot back = .ok chunk [] :=
    Reader.required_eq_ok.2 hread
  have hend : Reader.finish [] = .ok () [] := rfl
  rw [decode, Reader.outcome, EStateM.run,
    Reader.bind_of_ok (readHeader_of_matches hhead hfront hmatch), if_pos hslice,
    Reader.bind_of_ok hchunk, Reader.bind_of_ok hend]
  cases Slice.new h chunk <;> rfl

theorem decode_slice_of_matches {bytes : Bytes} {fields : List Value} {h : Header} {chunk : Bytes}
    (hspells : Spells False [.array (fields ++ [.binary chunk])] bytes)
    (hmatch : Header.Matches fields h) (hnew : Slice.new h chunk = .ok ⟨h, chunk⟩) :
    decode bytes = .ok (.slice ⟨h, chunk⟩) := by
  obtain ⟨_, first, last, offset, size, hfragmentation, _⟩ := Slice.new_eq_ok.1 hnew
  have hslice : h.isSlice = true := by
    simp [Header.isSlice, hfragmentation, Fragmentation.isSlice]
  rw [decode_eq_new_of_matches hspells hmatch hslice, hnew]
  rfl

end Inbound

/-! ### Writing -/

namespace Message

theorem checkPair_eq_ok {h : Header} {p : Payload} :
    checkPair h p = .ok () ↔ h.dataType = p.type ∧ h.isSlice = false := by
  unfold checkPair
  split
  · rename_i hne
    simp [hne]
  · rename_i heq
    split <;> simp_all

theorem draft_result_eq_ok {h : Header} {rest : Draft} {bytes : Bytes} :
    (draft h rest).result = .ok bytes ↔ ∃ head front back, (Header.record.pack h).result = .ok front
      ∧ rest.result = .ok back ∧ head = MessagePack.arrayHead elements
      ∧ bytes = head ++ (front ++ back) := by
  simp only [draft, Draft.append_result_eq_ok, Draft.arrayHead, Draft.measured_result_eq_ok]
  constructor
  · rintro ⟨_, _, ⟨_, rfl⟩, ⟨front, back, hfront, hback, rfl⟩, rfl⟩
    exact ⟨_, front, back, hfront, hback, rfl, rfl⟩
  · rintro ⟨_, front, back, hfront, hback, rfl, rfl⟩
    exact ⟨_, _, ⟨by decide, rfl⟩, ⟨front, back, hfront, hback, rfl⟩, rfl⟩

theorem encode_eq_ok {h : Header} {p : Payload} {bytes : Bytes} : encode h p = .ok bytes ↔
    checkPair h p = .ok () ∧ h.check = .ok () ∧ (draft h p.write).result = .ok bytes := by
  unfold encode
  cases checkPair h p with
  | error e => simp [bind, Except.bind]
  | ok u => cases h.check <;> simp [bind, Except.bind]

theorem sendable_of_encode {h : Header} {p : Payload} {bytes : Bytes}
    (hencode : encode h p = .ok bytes) : h.Sendable := by
  obtain ⟨_, hcheck, hdraft⟩ := encode_eq_ok.1 hencode
  obtain ⟨_, _, _, hpack, _⟩ := draft_result_eq_ok.1 hdraft
  exact Header.sendable_of_pack hcheck hpack

/-- What is encoded is a header that can be sent, announces the payload and is no slice's, and a
payload that is encoded on its own. -/
theorem exists_encode_iff {h : Header} {p : Payload} : (∃ bytes, encode h p = .ok bytes)
    ↔ checkPair h p = .ok () ∧ h.Sendable ∧ ∃ bytes, p.encode = .ok bytes := by
  constructor
  · rintro ⟨bytes, hencode⟩
    obtain ⟨hpair, _, hdraft⟩ := encode_eq_ok.1 hencode
    obtain ⟨_, _, back, _, hback, _⟩ := draft_result_eq_ok.1 hdraft
    exact ⟨hpair, sendable_of_encode hencode, back, hback⟩
  · rintro ⟨hpair, hsend, back, hback⟩
    have hcheck : h.check = .ok () := by
      have hwhole := (checkPair_eq_ok.1 hpair).2
      rw [Header.check, if_neg hsend.messageId_ne]
      cases hfragmentation : h.fragmentation with
      | whole offset => rfl
      | slice => simp [Header.isSlice, hfragmentation, Fragmentation.isSlice] at hwhole
    obtain ⟨front, hfront⟩ := hsend.exists_pack
    exact ⟨_, encode_eq_ok.2
      ⟨hpair, hcheck, draft_result_eq_ok.2 ⟨_, front, back, hfront, hback, rfl, rfl⟩⟩⟩

theorem elements_head :
    Head .array Message.elements (MessagePack.arrayHead Message.elements) :=
  MessagePack.arrayHead_head (by decide)

/-- Bytes that a message is encoded to spell it. -/
theorem matches_of_encode {h : Header} {p : Payload} {bytes : Bytes}
    (hencode : encode h p = .ok bytes) (hfits : ∀ v ∈ p.dynamics, v.Fits) :
    ∃ fields value, Spells False [.array (fields ++ [value])] bytes
      ∧ Matches fields value h p ∧ p.type.Shallow value := by
  obtain ⟨hpair, hcheck, hdraft⟩ := encode_eq_ok.1 hencode
  obtain ⟨htype, hwhole⟩ := checkPair_eq_ok.1 hpair
  obtain ⟨_, front, back, hpack, hwrite, rfl, rfl⟩ := draft_result_eq_ok.1 hdraft
  obtain ⟨fields, hfront, hmatch⟩ := Header.matches_of_pack hcheck hpack
  obtain ⟨value, hback, hshallow, hpayload⟩ :=
    Layout.faithful _ (DataType.unambiguous p.type) p.body back hwrite hfits
  have hcount := Header.length_of_matches hmatch
  refine ⟨fields, value, ?_, ⟨hcount, hmatch, hwhole, htype.symm, hpayload⟩, hshallow⟩
  exact (Inbound.spells_frame_iff hcount).2 ⟨_, front, back, elements_head, hfront, hback, rfl⟩

/-- Whatever is matched by values whose lengths can be announced is encoded. -/
theorem exists_encode_of_matches {fields : List Value} {value : Value} {h : Header} {p : Payload}
    (hmatch : Matches fields value h p) (hsized : ∀ v ∈ fields ++ [value], v.Sized) :
    ∃ bytes, encode h p = .ok bytes := by
  obtain ⟨hfields, hvalue⟩ := List.forall_mem_append.1 hsized
  obtain ⟨front, hfront⟩ := Header.exists_pack_of_matches hmatch.header hfields
  obtain ⟨back, hback⟩ :=
    Layout.exists_write_of_matches p.type.record.layout value p.body hmatch.payload hvalue
  obtain ⟨_, _, _, hcheck⟩ := hmatch.header
  have hpair : checkPair h p = .ok () := checkPair_eq_ok.2 ⟨hmatch.announced.symm, hmatch.whole⟩
  exact ⟨_, encode_eq_ok.2
    ⟨hpair, hcheck, draft_result_eq_ok.2 ⟨_, front, back, hfront, hback, rfl, rfl⟩⟩⟩

end Message

namespace Slice

theorem encode_eq_ok {h : Header} {chunk bytes : Bytes} : encode h chunk = .ok bytes ↔
    h.isSlice = true ∧ h.check = .ok ()
      ∧ (Message.draft h (Draft.binary chunk)).result = .ok bytes := by
  unfold encode
  cases h.isSlice with
  | false => simp [bind, Except.bind, throw, throwThe, MonadExceptOf.throw]
  | true => cases h.check <;> simp [bind, Except.bind]

theorem sendable_of_encode {h : Header} {chunk bytes : Bytes}
    (hencode : encode h chunk = .ok bytes) : h.Sendable := by
  obtain ⟨_, hcheck, hdraft⟩ := encode_eq_ok.1 hencode
  obtain ⟨_, _, _, hpack, _⟩ := Message.draft_result_eq_ok.1 hdraft
  exact Header.sendable_of_pack hcheck hpack

/-- A slice is encoded if its header passes its check and the lengths can be announced. -/
theorem exists_encode {h : Header} {chunk : Bytes} (hslice : h.isSlice = true)
    (hcheck : h.check = .ok ()) (hsend : h.Sendable) (hchunk : chunk.length < 2 ^ 32) :
    ∃ bytes, encode h chunk = .ok bytes := by
  obtain ⟨front, hfront⟩ := hsend.exists_pack
  obtain ⟨back, hback⟩ :=
    Draft.exists_measured hchunk (MessagePack.binaryHead chunk.length ++ chunk)
  exact ⟨_, encode_eq_ok.2
    ⟨hslice, hcheck, Message.draft_result_eq_ok.2 ⟨_, front, back, hfront, hback, rfl, rfl⟩⟩⟩

/-- Bytes that a slice is encoded to spell it. -/
theorem matches_of_encode {h : Header} {chunk bytes : Bytes}
    (hencode : encode h chunk = .ok bytes) : ∃ fields,
      Spells False [.array (fields ++ [.binary chunk])] bytes ∧ Header.Matches fields h := by
  obtain ⟨_, hcheck, hdraft⟩ := encode_eq_ok.1 hencode
  obtain ⟨_, front, back, hpack, hwrite, rfl, rfl⟩ := Message.draft_result_eq_ok.1 hdraft
  obtain ⟨fields, hfront, hmatch⟩ := Header.matches_of_pack hcheck hpack
  obtain ⟨_, hback, _, rfl⟩ :=
    Layout.faithful Layout.binary rfl chunk back hwrite (by simp [Layout.dynamics])
  have hcount := Header.length_of_matches hmatch
  exact ⟨fields, (Inbound.spells_frame_iff hcount).2
    ⟨_, front, back, Message.elements_head, hfront, hback, rfl⟩, hmatch⟩

theorem exists_encode_of_matches {fields : List Value} {h : Header} {chunk : Bytes}
    (hmatch : Header.Matches fields h) (hslice : h.isSlice = true)
    (hsized : ∀ v ∈ fields ++ [Value.binary chunk], v.Sized) :
    ∃ bytes, encode h chunk = .ok bytes := by
  obtain ⟨hfields, hvalue⟩ := List.forall_mem_append.1 hsized
  obtain ⟨front, hfront⟩ := Header.exists_pack_of_matches hmatch hfields
  obtain ⟨back, hback⟩ := Layout.exists_write_of_matches .binary _ chunk rfl hvalue
  obtain ⟨_, _, _, hcheck⟩ := hmatch
  exact ⟨_, encode_eq_ok.2
    ⟨hslice, hcheck, Message.draft_result_eq_ok.2 ⟨_, front, back, hfront, hback, rfl, rfl⟩⟩⟩

end Slice

end DataGateway

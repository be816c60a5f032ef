import DataGateway.Proofs.Message.RoundTrip
import DataGateway.Proofs.Wire.Failing

/-!
# Frames with a byte or a type exchanged

Two places of a frame say what the rest of it is: the first byte, which says that an array of eleven
elements follows, and the data type, which says what the last of them is. Neither can be exchanged
without the decoder noticing it as an error of decoding. Another first byte may make the bytes after
it a number of elements, but those are the beginning of the user's name and no such number begins
like that; and an unknown data type is refused where it is read, before anything is asked of the
header as a whole (`corrupted_refused`).
-/

namespace DataGateway

open MessagePack (Value Spells Head Marker)

/-! ### Data types out of range -/

namespace DataType

theorem tag_bounds (type : DataType) : 0 ≤ type.tag.toInt ∧ type.tag.toInt ≤ 12 := by
  cases type <;> decide

theorem ofTag_of_outside (tag : Int64) (h : ¬(0 ≤ tag.toInt ∧ tag.toInt ≤ 12)) : ofTag tag
    = .error (if tag.toInt = 13 ∨ tag.toInt = 14 then .unsupportedDataType tag
        else .unknownDataType tag) := by
  have hnone : ofTag? tag = none := by
    cases hfound : ofTag? tag with
    | none => rfl
    | some type => exact (h (tag_of_ofTag? hfound ▸ type.tag_bounds)).elim
  have haside : isSetAside tag = true ↔ tag.toInt = 13 ∨ tag.toInt = 14 := by
    simp only [isSetAside, Bool.or_eq_true, beq_iff_eq, ← Int64.toInt_inj]
    rfl
  rw [ofTag, hnone]
  simp only [haside]
  split <;> rfl

/-- An integer that is no known tag is refused as a data type. -/
theorem read_of_outside {n : Int} {encoding : Bytes} (hhead : Head .integer n encoding)
    (hn : ¬(0 ≤ n ∧ n ≤ 12)) (hlong : n < 2 ^ 63) (slot : Slot) (t : Bytes) :
    layout.read slot (encoding ++ t) = .error (if n = 13 ∨ n = 14
      then .unsupportedDataType (Int64.ofInt n) else .unknownDataType (Int64.ofInt n)) t := by
  have hback : (Int64.ofInt n).toInt = n :=
    Int64.toInt_ofInt_of_le hhead.integer_bounds.1 hlong
  have hstands : Head .integer (Int64.ofInt n).toInt encoding := by rwa [hback]
  have hread : Reader.long slot (encoding ++ t) = .ok (some (Int64.ofInt n)) t :=
    (Reader.long_takes slot _ _ t).2 (.inr ⟨_, encoding, rfl, hstands, rfl⟩)
  have houtside := ofTag_of_outside (Int64.ofInt n) (by rwa [hback])
  rw [hback] at houtside
  refine (Reader.bind_of_ok hread _).trans (Reader.map_of_error ?_ some)
  rw [houtside]
  rfl

theorem read_of_large {n : Int} {encoding : Bytes} (hhead : Head .integer n encoding)
    (hlarge : 2 ^ 63 ≤ n) (slot : Slot) (t : Bytes) :
    layout.read slot (encoding ++ t) = .error (.malformed .beyondLong) t :=
  Reader.bind_of_error (Reader.long_of_large hhead hlarge slot t) _

end DataType

namespace Header

variable {fields : List Value} {h : Header}

/-- The first value of a header is a string, and the last is the tag of its data type. -/
theorem ends_of_matches (hmatch : Matches fields h) :
    (∃ octets rest, fields = .string octets :: rest)
    ∧ ∃ front i, fields = front ++ [.integer i] ∧ front.length = 9
      ∧ i.val = h.dataType.tag.toInt := by
  obtain ⟨r, hrow, hr, _⟩ := hmatch
  obtain rfl := record.toRow_ofRow r h hr
  obtain ⟨a, _, rfl, rfl, b, _, rfl, _, c, _, rfl, _, d, _, rfl, _, e, _, rfl, _, hrow⟩ := hrow
  obtain ⟨f, _, rfl, _, g, _, rfl, _, i, _, rfl, _, j, _, rfl, _, k, _, rfl, hk, rfl⟩ := hrow
  obtain ⟨tag, ⟨n, rfl, hn⟩, htag⟩ := hk
  refine ⟨⟨_, _, rfl⟩, [_, b, c, d, e, f, g, i, j], n, rfl, rfl, ?_⟩
  rw [hn, ← DataType.tag_of_ofTag tag _ htag]

end Header

namespace Inbound

/-- The bytes of a message or of a slice under the header. -/
def IsFrame (h : Header) (frame : Bytes) : Prop :=
  (∃ p, Message.encode h p = .ok frame) ∨ ∃ chunk, Slice.encode h chunk = .ok frame

/-- Every way of decoding the bytes fails with this error. -/
structure Refuses (bytes : Bytes) (e : ProtocolError) : Prop where
  decode : Inbound.decode bytes = .error e
  header : decodeHeader bytes = .error e
  payload : decodePayload bytes = .error e
  message : decodeMessage bytes = .error e

/-- In the frame the data type stands there: behind the head of an array of eleven elements and the
first nine of them. -/
structure TypeAt (frame front field back : Bytes) : Prop where
  parts : frame = front ++ (field ++ back)
  before : ∃ head body values, front = head ++ body ∧ Head .array 11 head
    ∧ Spells False values body ∧ values.length = 9
  single : ∃ value, Spells False [value] field

variable {h : Header} {bytes frame : Bytes}

theorem Refuses.of_readHeader {e : ProtocolError} {t : Bytes} (h : readHeader bytes = .error e t) :
    Refuses bytes e := by
  have hdecode : Inbound.decode bytes = .error e := by
    rw [Inbound.decode, Reader.outcome, EStateM.run, Reader.bind_of_error h]
  refine ⟨hdecode, ?_, ?_, ?_⟩
  · rw [decodeHeader, Reader.outcome, EStateM.run, h]
  · rw [decodePayload, Reader.outcome, EStateM.run, Reader.bind_of_error h]
  · rw [decodeMessage, hdecode]
    rfl

theorem IsFrame.parts (hframe : IsFrame h frame) : ∃ fields front back,
    frame = 0x9b :: (front ++ back) ∧ Spells False fields front ∧ Header.Matches fields h := by
  obtain ⟨rest, hcheck, hdraft⟩ : ∃ rest, h.check = .ok ()
      ∧ (Message.draft h rest).result = .ok frame := by
    rcases hframe with ⟨p, hencode⟩ | ⟨chunk, hencode⟩
    · exact ⟨_, (Message.encode_eq_ok.1 hencode).2⟩
    · exact ⟨_, (Slice.encode_eq_ok.1 hencode).2⟩
  obtain ⟨_, front, back, hpack, _, rfl, rfl⟩ := Message.draft_result_eq_ok.1 hdraft
  obtain ⟨fields, hspells, hmatch⟩ := Header.matches_of_pack hcheck hpack
  exact ⟨fields, front, back, rfl, hspells, hmatch⟩

/-- Another byte in front of a string begins no array of eleven elements. -/
theorem refused_of_first {c : UInt8} (hc : c ≠ 0x9b) {octets front : Bytes}
    (hspells : Spells False [.string octets] front) (back : Bytes) :
    ∃ e, e.kind = .decode ∧ Refuses (c :: (front ++ back)) e := by
  have hnot : ∀ u t, Reader.sequence Message.owner Message.elements (c :: (front ++ back))
      ≠ .ok u t := by
    intro u t hread
    obtain ⟨head, hhead, heq⟩ := Reader.sequence_eq_ok.1 hread
    obtain ⟨b, operand, rfl, hcases⟩ := hhead.array_cases (by decide)
    obtain ⟨rfl, hrest⟩ := List.cons.inj heq
    rcases hcases with hfirst | ⟨rest, rfl⟩
    · exact hc (UInt8.toNat_inj.1 (Int.ofNat.inj hfirst))
    -- The number would begin with a zero, and a string does not.
    · obtain ⟨m, stringMarker, r, rfl, hm, hstring⟩ := hspells.begins
      obtain ⟨rfl, _⟩ := List.cons.inj hrest
      cases hm
      cases hstring
  obtain ⟨e, t, herror, hkind⟩ := Reader.sequence_error hnot
  exact ⟨e, hkind, .of_readHeader (Reader.bind_of_error herror _)⟩

/-- The data type of a frame stands in one place. -/
theorem IsFrame.exists_typeAt (hframe : IsFrame h frame) :
    ∃ front field back, TypeAt frame front field back := by
  obtain ⟨fields, front, back, rfl, hspells, hmatch⟩ := hframe.parts
  obtain ⟨_, values, i, rfl, hlength, _⟩ := Header.ends_of_matches hmatch
  obtain ⟨body, field, rfl, hbody, hfield⟩ := Spells.append_iff.1 hspells
  exact ⟨0x9b :: body, field, back, by simp, ⟨[0x9b], body, values, rfl, Message.elements_head,
    hbody, hlength⟩, _, hfield⟩

theorem IsFrame.typeAt (hframe : IsFrame h frame) {front field back : Bytes}
    (htype : TypeAt frame front field back) : Head .integer h.dataType.tag.toInt field
      ∧ ∃ head body fields, front = head ++ body ∧ Head .array Message.elements head
        ∧ Header.Matches fields h ∧ Spells False (fields.take 9) body := by
  obtain ⟨fields, begin, rest, hparts, hspells, hmatch⟩ := hframe.parts
  obtain ⟨_, values, i, rfl, hlength, hi⟩ := Header.ends_of_matches hmatch
  obtain ⟨body', field', rfl, hbody', hfield'⟩ := Spells.append_iff.1 hspells
  obtain ⟨hframe, ⟨head, body, values', rfl, hhead, hbody, hlength'⟩, value, hfield⟩ := htype
  rw [hparts] at hframe
  -- The head is read off both, and so are the values after it.
  have hread : Reader.sequence "" 11 (0x9b :: (body' ++ field' ++ rest))
      = .ok () (body' ++ (field' ++ rest)) :=
    Reader.sequence_eq_ok.2 ⟨[0x9b], Message.elements_head, by simp⟩
  have hread' : Reader.sequence "" 11 (head ++ (body ++ (field ++ back)))
      = .ok () (body ++ (field ++ back)) :=
    Reader.sequence_eq_ok.2 ⟨head, hhead, rfl⟩
  rw [hframe, List.append_assoc, hread'] at hread
  obtain ⟨rfl, hrest⟩ := Spells.cancel_list (hlength'.trans hlength.symm) hbody hbody'
    (EStateM.Result.ok.inj hread).2
  obtain ⟨rfl, rfl⟩ := Spells.cancel hfield hfield' hrest
  refine ⟨?_, head, body, _, rfl, hhead, hmatch, ?_⟩
  · rcases hfield with _ | ⟨opening, inside, hend⟩
    cases opening with
    | integer hinteger =>
        rw [Spells.nil_iff.1 inside, Spells.nil_iff.1 hend, List.append_nil, List.append_nil, ← hi]
        exact hinteger
  · rwa [List.take_left' hlength']

/-- What cannot be read as a data type is refused in its place, whatever the rest of the header
says. -/
theorem refused_of_type {head body : Bytes} {fields : List Value}
    (hhead : Head .array Message.elements head) (hmatch : Header.Matches fields h)
    (hbody : Spells False (fields.take 9) body) {s t : Bytes} {e : ProtocolError}
    (hread : DataType.layout.read ⟨"dataType", Header.name⟩ s = .error e t) :
    Refuses (head ++ body ++ s) e := by
  obtain ⟨r, hrow, _⟩ := hmatch
  have hfails : Header.record.row.FailsAt Header.record.name s e t 9 := hread
  have hunpack : Header.record.unpack (body ++ s) = .error e t :=
    Reader.bind_of_error (Layout.read_of_failsAt _ Header.unambiguous hrow
      (Layout.shallow_of_isStatic _ rfl _) hfails hbody) _
  have hsequence : Reader.sequence Message.owner Message.elements (head ++ body ++ s)
      = .ok () (body ++ s) :=
    Reader.sequence_eq_ok.2 ⟨head, hhead, List.append_assoc ..⟩
  exact .of_readHeader ((Reader.bind_of_ok hsequence _).trans (Reader.bind_of_error hunpack _))

/-- A frame with another first byte, or with an integer for its data type that is none, is refused
in every way of decoding it, and as an error of decoding. -/
theorem corrupted_refused (hframe : IsFrame h frame) :
    (∃ b rest, frame = b :: rest
      ∧ ∀ c, c ≠ b → ∃ e, e.kind = .decode ∧ Refuses (c :: rest) e)
    ∧ (∃ front field back, TypeAt frame front field back)
    ∧ ∀ front field back, TypeAt frame front field back →
      Head .integer h.dataType.tag.toInt field
      ∧ ∀ (n : Int) (encoding : Bytes), Head .integer n encoding → ¬(0 ≤ n ∧ n ≤ 12) →
        (n < 2 ^ 63 → Refuses (front ++ (encoding ++ back)) (if n = 13 ∨ n = 14
          then .unsupportedDataType (Int64.ofInt n) else .unknownDataType (Int64.ofInt n)))
        ∧ (2 ^ 63 ≤ n → ∃ e, e.kind = .decode ∧ Refuses (front ++ (encoding ++ back)) e) := by
  refine ⟨?_, hframe.exists_typeAt, ?_⟩
  · obtain ⟨fields, front, back, rfl, hspells, hmatch⟩ := hframe.parts
    obtain ⟨⟨octets, rest, rfl⟩, _⟩ := Header.ends_of_matches hmatch
    obtain ⟨name, others, rfl, hname, _⟩ := Spells.cons_iff.1 hspells
    refine ⟨0x9b, _, rfl, fun c hc => ?_⟩
    rw [List.append_assoc]
    exact refused_of_first hc hname _
  · intro front field back htype
    obtain ⟨hfield, head, body, fields, rfl, hhead, hmatch, hbody⟩ := hframe.typeAt htype
    refine ⟨hfield, fun n encoding hencoding hn => ⟨fun hlong => ?_, fun hlarge => ?_⟩⟩
    · exact refused_of_type hhead hmatch hbody (DataType.read_of_outside hencoding hn hlong _ back)
    · exact ⟨_, rfl, refused_of_type hhead hmatch hbody
        (DataType.read_of_large hencoding hlarge _ back)⟩

theorem corrupted_refused_sample : ∃ frame, Message.encode .sample .sample = .ok frame
    ∧ (∃ e, e.kind = .decode ∧ Refuses (0xdc :: frame.tail) e)
    ∧ ∃ front field back, TypeAt frame front field back
      ∧ Refuses (front ++ (MessagePack.integer 13 ++ back)) (.unsupportedDataType 13)
      ∧ Refuses (front ++ (MessagePack.integer (-1) ++ back)) (.unknownDataType (-1))
      ∧ ∃ e, e.kind = .decode
        ∧ Refuses (front ++ (MessagePack.integer (2 ^ 64 - 1) ++ back)) e := by
  obtain ⟨frame, hframe⟩ : ∃ frame, Message.encode .sample .sample = .ok frame := ⟨_, rfl⟩
  obtain ⟨⟨b, rest, rfl, hfirst⟩, ⟨front, field, back, htype⟩, hcorrupt⟩ :=
    corrupted_refused (.inl ⟨_, hframe⟩)
  have hb : b = 0x9b := by
    cases hframe
    rfl
  obtain ⟨_, hrefused⟩ := hcorrupt front field back htype
  refine ⟨_, hframe, hfirst 0xdc (by rw [hb]; decide), front, field, back, htype, ?_, ?_, ?_⟩
  · exact (hrefused 13 _ (MessagePack.integer_head (by decide) (by decide)) (by decide)).1
      (by decide)
  · exact (hrefused (-1) _ (MessagePack.integer_head (by decide) (by decide)) (by decide)).1
      (by decide)
  · exact (hrefused (2 ^ 64 - 1) _ (MessagePack.integer_head (by decide) (by decide))
      (by decide)).2 (by decide)

end Inbound

end DataGateway

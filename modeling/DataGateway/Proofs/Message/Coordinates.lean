import DataGateway.Assembler
import DataGateway.Proofs.Message.Delimiting
import DataGateway.Proofs.Message.Parts

/-!
# Where a slice lies

Five of a header's ten fields are its coordinates: whether the message is a slice, whether it is the
first or the last one, where it begins, and how large the payload is. On the wire any of them may be
nil and the numbers may be any of 64 bits. Main statement: a header is accepted exactly if they are
consistent, with offset and size taken as exact integers; everything else about them is invalid, and
what was accepted is written as it was.

Later arithmetic relies on these bounds without a look at them. The end of a slice may be computed
in the wire's numbers (`Slice.stop?`), since for whatever a decoder has read that sum is exact; and
an assembler takes offset and size for unsigned numbers, which for a decoded slice they are.
-/

namespace DataGateway

open MessagePack (Value Spells Head)

/-! ### Coordinates on the wire -/

/-- The fields of a header that say where its payload lies. -/
structure Coordinates where
  isSlice : Option Bool
  first : Option Bool
  last : Option Bool
  offset : Option Int64
  size : Option Int64

/-- The value of a signed 64-bit number. -/
def MessagePack.Value.ofLong (n : Int64) : Value := .integer (.ofInt n.toInt)

namespace Coordinates

/-- A whole message has no coordinates but an offset; a slice has all of them, lies inside its
payload, and is the first exactly if nothing lies before it. -/
inductive Consistent : Coordinates → Prop
  | whole (offset : Option Int64) : Consistent ⟨some false, none, none, offset, none⟩
  | slice {first last : Bool} {offset size : Int64} (offset_nonneg : 0 ≤ offset.toInt)
    (offset_lt : offset.toInt < size.toInt) (size_le : size.toInt ≤ 2 ^ 32 - 1)
    (first_iff : first = true ↔ offset.toInt = 0) :
    Consistent ⟨some true, some first, some last, some offset, some size⟩

/-- The values of the five fields in order. -/
def values (c : Coordinates) : List Value :=
  [c.isSlice.elim .nil .boolean, c.first.elim .nil .boolean, c.last.elim .nil .boolean,
    c.offset.elim .nil .ofLong, c.size.elim .nil .ofLong]

/-- What the five fields say, if they make sense together. -/
def read (c : Coordinates) : Except ProtocolError Fragmentation := do
  let isSlice ← Header.present "isFragmented" c.isSlice
  Fragmentation.ofFields (isSlice, c.first, c.last, c.offset, c.size)

end Coordinates

namespace Fragmentation

def coordinates : Fragmentation → Coordinates
  | whole offset => ⟨some false, none, none, offset, none⟩
  | slice first last offset size => ⟨some true, some first, some last, some offset, some size⟩

/-- The check in exact integers. -/
theorem check_slice_eq_ok_iff {first last : Bool} {offset size : Int64} :
    check (slice first last offset size) = .ok () ↔ 0 ≤ offset.toInt ∧ offset.toInt < size.toInt
      ∧ size.toInt ≤ 2 ^ 32 - 1 ∧ (first = true ↔ offset.toInt = 0) := by
  have hmax : maxSize.toInt = 2 ^ 32 - 1 := by decide
  have hzero : (0 : Int64).toInt = 0 := by decide
  have hfirst : first ≠ decide (offset = 0) ↔ ¬(first = true ↔ offset.toInt = 0) := by
    rw [← hzero, Int64.toInt_inj, ne_eq, Bool.eq_iff_iff, decide_eq_true_iff]
  simp only [check, Int64.lt_iff_toInt_lt, Int64.le_iff_toInt_le, hmax, hzero, hfirst]
  split
  · simp only [reduceCtorEq, false_iff]
    omega
  split
  · simp only [reduceCtorEq, false_iff]
    omega
  split
  · rename_i hne
    simp only [reduceCtorEq, false_iff]
    exact fun h => hne h.2.2.2
  · rename_i hlarge houtside heq
    simp only [true_iff]
    exact ⟨by omega, by omega, by omega, not_not.1 heq⟩

theorem kind_of_check_error {f : Fragmentation} {e : ProtocolError} (h : f.check = .error e) :
    e.kind = .validation := by
  cases f with
  | whole offset => cases h
  | slice first last offset size =>
      simp only [check] at h
      split at h
      · cases h; rfl
      split at h
      · cases h; rfl
      split at h
      · cases h; rfl
      · cases h

end Fragmentation

namespace Coordinates

variable {c : Coordinates} {f : Fragmentation} {e : ProtocolError}

theorem read_eq_ok_iff : c.read = .ok f ↔ f.coordinates = c ∧ f.check = .ok () := by
  obtain ⟨isSlice, first, last, offset, size⟩ := c
  constructor
  · intro h
    cases isSlice with
    | none => cases h
    | some isSlice =>
        have hfields := Fragmentation.toFields_of_ofFields h
        cases f with
        | whole => cases hfields; exact ⟨rfl, rfl⟩
        | slice =>
            cases hfields
            refine ⟨rfl, ?_⟩
            simp only [read, Header.present, Fragmentation.ofFields, bind, Except.bind] at h
            split at h
            · assumption
            · cases h
  · rintro ⟨hcoordinates, hcheck⟩
    have hback := Fragmentation.ofFields_toFields hcheck
    cases f with
    | whole => cases hcoordinates; exact hback
    | slice => cases hcoordinates; exact hback

/-- Nothing is said but what is consistent. -/
theorem consistent_iff : c.Consistent ↔ ∃ f, c.read = .ok f := by
  simp only [read_eq_ok_iff]
  constructor
  · rintro (offset | ⟨hoffset, hinside, hsize, hfirst⟩)
    · exact ⟨.whole offset, rfl, rfl⟩
    · exact ⟨.slice _ _ _ _, rfl,
        Fragmentation.check_slice_eq_ok_iff.2 ⟨hoffset, hinside, hsize, hfirst⟩⟩
  · rintro ⟨f, rfl, hcheck⟩
    cases f with
    | whole offset => exact .whole offset
    | slice first last offset size =>
        obtain ⟨hoffset, hinside, hsize, hfirst⟩ := Fragmentation.check_slice_eq_ok_iff.1 hcheck
        exact .slice hoffset hinside hsize hfirst

theorem kind_of_read_error (h : c.read = .error e) : e.kind = .validation := by
  obtain ⟨isSlice, first, last, offset, size⟩ := c
  cases isSlice with
  | none => cases h; rfl
  | some isSlice =>
      change Fragmentation.ofFields _ = _ at h
      unfold Fragmentation.ofFields at h
      split at h
      · cases h
      · cases h; rfl
      · split at h
        · cases h
        · rename_i hcheck
          cases h
          exact Fragmentation.kind_of_check_error hcheck
      · cases h; rfl

end Coordinates

/-! ### The fields of a header -/

theorem Reader.ofExcept_eq_error {α : Type} {x : Except ProtocolError α} {s t : Bytes}
    {e : ProtocolError} : ofExcept x s = .error e t ↔ x = .error e ∧ s = t := by
  cases x with
  | ok a => exact ⟨(nomatch ·), (nomatch ·.1)⟩
  | error e' =>
      constructor
      · intro h
        cases h
        exact ⟨rfl, rfl⟩
      · rintro ⟨h, rfl⟩
        cases h
        rfl

namespace Layout

variable {v : Value}

theorem boolean_matches_iff {b : Bool} : boolean.Matches v b ↔ v = .boolean b := Iff.rfl

theorem text_matches_iff {s : String} : text.Matches v s ↔ v = .ofString s := Iff.rfl

theorem long_matches_iff {n : Int64} : long.Matches v n ↔ v = .ofLong n := by
  constructor
  · rintro ⟨i, rfl, hval⟩
    rw [Value.ofLong, ← hval, MessagePack.Integer.ofInt_val]
  · rintro rfl
    have hlow := n.le_toInt
    have hhigh := n.toInt_lt
    exact ⟨_, rfl, MessagePack.Integer.val_ofInt (by omega) (by omega)⟩

theorem dataType_matches_iff {type : DataType} :
    DataType.layout.Matches v type ↔ v = .ofLong type.tag := by
  constructor
  · rintro ⟨tag, hmatch, htype⟩
    rw [DataType.tag_of_ofTag tag type htype]
    exact long_matches_iff.1 hmatch
  · rintro rfl
    exact ⟨type.tag, long_matches_iff.2 rfl, DataType.ofTag_tag type⟩

/-- A field that may be nil matches in one way if its value does. -/
theorem optional_matches_iff {α ρ : Type} {name : String} {value : Layout .value α}
    {rest : Layout .row ρ} {spelled : α → Value}
    (hvalue : ∀ {v a}, value.Matches v a ↔ v = spelled a) {vs : List Value} {o : Option α} {r : ρ} :
    (optional name value rest).Matches vs (o, r)
      ↔ ∃ ws, vs = o.elim .nil spelled :: ws ∧ rest.Matches ws r := by
  constructor
  · rintro ⟨v, ws, rfl, hmatch, hrest⟩
    refine ⟨ws, ?_, hrest⟩
    cases o with
    | none => exact congrArg (· :: ws) hmatch
    | some a => exact congrArg (· :: ws) (hvalue.1 hmatch)
  · rintro ⟨ws, rfl, hrest⟩
    refine ⟨_, ws, rfl, ?_, hrest⟩
    cases o with
    | none => exact rfl
    | some a => exact hvalue.2 rfl

end Layout

namespace Header

/-- The fields of a header with these coordinates in place of its own. -/
def fieldsAt (h : Header) (c : Coordinates) : Fields :=
  (some h.userName, some h.messageId, some h.createTime, some h.requestTime, c.isSlice, c.first,
    c.last, c.offset, c.size, some h.dataType, ())

/-- The values of those fields in order. -/
def values (h : Header) (c : Coordinates) : List Value :=
  [.ofString h.userName, .ofString h.messageId, .ofLong h.createTime, .ofLong h.requestTime]
    ++ c.values ++ [.ofLong h.dataType.tag]

variable {h : Header} {c : Coordinates}

theorem matches_fieldsAt_iff {vs : List Value} :
    record.row.Matches vs (h.fieldsAt c) ↔ vs = h.values c := by
  have hdone {ws : List Value} : Layout.done.Matches ws () ↔ ws = [] := Iff.rfl
  simp only [record, fieldsAt, Layout.optional_matches_iff Layout.text_matches_iff,
    Layout.optional_matches_iff Layout.long_matches_iff,
    Layout.optional_matches_iff Layout.boolean_matches_iff,
    Layout.optional_matches_iff Layout.dataType_matches_iff, hdone, exists_eq_right,
    Option.elim_some]
  rfl

theorem ofFields_fieldsAt :
    ofFields (h.fieldsAt c) = (fun f => { h with fragmentation := f }) <$> c.read := by
  obtain ⟨isSlice, first, last, offset, size⟩ := c
  cases isSlice with
  | none => rfl
  | some isSlice =>
      simp only [fieldsAt, ofFields, present, Coordinates.read, bind, Except.bind]
      cases Fragmentation.ofFields (isSlice, first, last, offset, size) <;> rfl

theorem toRow_eq (h : Header) : record.toRow h = h.fieldsAt h.fragmentation.coordinates := by
  obtain ⟨_, _, _, _, fragmentation, _⟩ := h
  cases fragmentation <;> rfl

/-- However the values are spelled, a header comes to what its coordinates say. -/
theorem unpack_values {front : Bytes} (hspells : Spells False (h.values c) front) (rest : Bytes) :
    record.unpack (front ++ rest)
      = Reader.ofExcept ((fun f => { h with fragmentation := f }) <$> c.read) rest := by
  have hshallow := record.row.shallow_of_isStatic rfl (h.values c)
  have hread := Layout.complete _ Header.unambiguous record.name _ _ _ rest
    (matches_fieldsAt_iff.2 rfl) hshallow hspells
  rw [Record.unpack, Reader.bind_of_ok hread, ← ofFields_fieldsAt]
  rfl

theorem unpack_eq_ok_iff {h' : Header} {front rest rest' : Bytes}
    (hspells : Spells False (h.values c) front) : record.unpack (front ++ rest) = .ok h' rest'
      ↔ rest' = rest ∧ ∃ f, c.read = .ok f ∧ h' = { h with fragmentation := f } := by
  rw [unpack_values hspells, Reader.ofExcept_eq_ok]
  cases c.read <;> simp [Functor.map, Except.map, eq_comm, and_comm]

theorem unpack_eq_error_iff {e : ProtocolError} {front rest rest' : Bytes}
    (hspells : Spells False (h.values c) front) : record.unpack (front ++ rest) = .error e rest'
      ↔ rest' = rest ∧ c.read = .error e := by
  rw [unpack_values hspells, Reader.ofExcept_eq_error]
  cases c.read <;> simp [Functor.map, Except.map, eq_comm, and_comm]

/-- A header is written as its values, if these can be spelled. -/
theorem exists_pack_values {front : Bytes}
    (hspells : Spells False (h.values h.fragmentation.coordinates) front) :
    ∃ packed, (record.pack h).result = .ok packed
      ∧ Spells False (h.values h.fragmentation.coordinates) packed := by
  have hmatches {vs : List Value} : record.row.Matches vs (record.toRow h)
      ↔ vs = h.values h.fragmentation.coordinates := by
    rw [toRow_eq]
    exact matches_fieldsAt_iff
  have hfits : ∀ v ∈ record.row.dynamics (record.toRow h), v.Fits := by
    rw [Layout.dynamics_of_isStatic _ rfl]
    simp
  obtain ⟨packed, hpack⟩ :=
    Layout.exists_write_of_matches record.row _ _ (hmatches.2 rfl) hspells.sized
  obtain ⟨vs, hvs, _, hmatch⟩ := Layout.faithful _ Header.unambiguous _ _ hpack hfits
  obtain rfl := hmatches.1 hmatch
  exact ⟨packed, hpack, hvs⟩

theorem accepted_iff {front rest : Bytes} (hspells : Spells False (h.values c) front) :
    (∃ h' rest', record.unpack (front ++ rest) = .ok h' rest') ↔ c.Consistent := by
  rw [Coordinates.consistent_iff]
  constructor
  · rintro ⟨_, _, hunpack⟩
    obtain ⟨_, f, hread, _⟩ := (unpack_eq_ok_iff hspells).1 hunpack
    exact ⟨f, hread⟩
  · rintro ⟨f, hread⟩
    exact ⟨_, rest, (unpack_eq_ok_iff hspells).2 ⟨rfl, f, hread, rfl⟩⟩

/-- What a header says of its coordinates is what stood there, and stands there again when it is
written. -/
theorem pack_of_unpack {h' : Header} {front rest rest' : Bytes}
    (hspells : Spells False (h.values c) front)
    (hunpack : record.unpack (front ++ rest) = .ok h' rest') :
    rest' = rest ∧ (∃ f, h' = { h with fragmentation := f } ∧ f.coordinates = c)
      ∧ ∃ packed, (record.pack h').result = .ok packed ∧ Spells False (h.values c) packed := by
  obtain ⟨hrest, f, hread, rfl⟩ := (unpack_eq_ok_iff hspells).1 hunpack
  obtain ⟨rfl, _⟩ := Coordinates.read_eq_ok_iff.1 hread
  exact ⟨hrest, ⟨f, rfl, rfl⟩, exists_pack_values hspells⟩

theorem kind_of_unpack_error {e : ProtocolError} {front rest rest' : Bytes}
    (hspells : Spells False (h.values c) front)
    (hunpack : record.unpack (front ++ rest) = .error e rest') : e.kind = .validation :=
  Coordinates.kind_of_read_error ((unpack_eq_error_iff hspells).1 hunpack).2

end Header

/-! ### The end of a slice -/

/-- The sum of two signed 64-bit numbers, unless it overflows. -/
def checkedAdd (a b : Int64) : Option Int64 :=
  if -2 ^ 63 ≤ a.toInt + b.toInt ∧ a.toInt + b.toInt < 2 ^ 63 then some (a + b) else none

theorem checkedAdd_eq_some_iff {a b c : Int64} :
    checkedAdd a b = some c ↔ c.toInt = a.toInt + b.toInt := by
  have hlow := c.le_toInt
  have hhigh := c.toInt_lt
  unfold checkedAdd
  split
  · rename_i hrange
    have hsum : (a + b).toInt = a.toInt + b.toInt := by
      rw [Int64.toInt_add]
      exact Int.bmod_eq_of_le (by omega) (by omega)
    rw [Option.some.injEq, ← Int64.toInt_inj, hsum, eq_comm]
  · simp only [reduceCtorEq, false_iff]
    omega

namespace Slice

/-- Where a slice ends in the wire's numbers: nowhere if its length is none of them, or if the
addition overflows. -/
def stop? (offset : Int64) (length : Nat) : Option Int64 :=
  if length < 2 ^ 63 then checkedAdd offset (Int64.ofNat length) else none

theorem stop?_eq_some_iff {offset stop : Int64} {length : Nat} : stop? offset length = some stop
    ↔ length < 2 ^ 63 ∧ stop.toInt = offset.toInt + length := by
  unfold stop?
  split
  · rename_i hlength
    rw [checkedAdd_eq_some_iff, Int64.toInt_ofNat_of_lt hlength]
    exact (and_iff_right hlength).symm
  · rename_i hlength
    simp only [reduceCtorEq, hlength, false_and]

/-- The end is there if it is a signed 64-bit number. -/
theorem exists_stop {offset : Int64} {length : Nat} (hoffset : 0 ≤ offset.toInt)
    (hend : offset.toInt + length < 2 ^ 63) :
    ∃ stop, stop? offset length = some stop ∧ stop.toInt = offset.toInt + length := by
  have hback : (Int64.ofInt (offset.toInt + length)).toInt = offset.toInt + length :=
    Int64.toInt_ofInt_of_le (by omega) hend
  exact ⟨_, stop?_eq_some_iff.2 ⟨by omega, hback⟩, hback⟩

/-- A slice that ends inside its payload, the end computed in the wire's numbers. -/
def newChecked (header : Header) (chunk : Bytes) : Except ProtocolError Slice :=
  match header.fragmentation with
  | .whole _ => .error (.invalid owner .notFragmentHeader)
  | .slice _ _ offset size =>
    match stop? offset chunk.length with
    | some stop =>
      if 0 ≤ offset ∧ stop ≤ size then .ok ⟨header, chunk⟩
      else .error (.invalid owner .sliceBeyondFullSize)
    | none => .error (.invalid owner .sliceBeyondFullSize)

/-- It is the same slice, since an end that cannot be computed lies in no payload. -/
theorem newChecked_eq (header : Header) (chunk : Bytes) :
    newChecked header chunk = new header chunk := by
  unfold newChecked new
  cases header.fragmentation with
  | whole offset => rfl
  | slice first last offset size =>
      dsimp only
      cases hstop : stop? offset chunk.length with
      | some stop =>
          obtain ⟨_, hvalue⟩ := stop?_eq_some_iff.1 hstop
          simp only [Int64.le_iff_toInt_le, hvalue, Int64.toInt_zero]
      | none =>
          -- an end inside the payload is at most its size, which is a number of the wire
          rw [if_neg]
          rintro ⟨hoffset, hinside⟩
          have hsize := size.toInt_lt
          obtain ⟨stop, hsome, _⟩ := exists_stop hoffset (Int.lt_of_le_of_lt hinside hsize)
          cases hstop.symm.trans hsome

end Slice

/-- A number of the wire that is not negative is the same as an unsigned one. -/
theorem Assembler.count_of_nonneg {n : Int64} (h : 0 ≤ n.toInt) : (count n : Int) = n.toInt := by
  have hn : 0 ≤ n := Int64.le_iff_toInt_le.2 h
  rw [count, Int64.toNat_toUInt64_of_le hn, Int64.cast_toNatClampNeg n hn]

namespace Inbound

variable {bytes : Bytes}

/-- A decoder asks of a slice where it ends only after its header has passed its check, and the
bytes that stand in it have been announced. -/
theorem slice_of_content {header : Header} {chunk rest : Bytes}
    (h : content bytes = .ok (header, .inl chunk) rest) :
    header.isSlice = true ∧ header.fragmentation.check = .ok () ∧ chunk.length < 2 ^ 32 := by
  obtain ⟨header', t, hheader, h⟩ := Reader.bind_eq_ok.1 h
  split at h
  · rename_i hslice
    obtain ⟨chunk', hchunk, heq⟩ := Reader.map_eq_ok.1 h
    cases heq
    obtain ⟨_, _, _, _, _, _, _, _, _, hcheck⟩ := placed_of_readHeader hheader
    refine ⟨hslice, Header.sound_of_check hcheck, ?_⟩
    rcases (Reader.binary_takes _ _ _ _).1 (Reader.required_eq_ok.1 hchunk) with
      ⟨hnone, _⟩ | ⟨_, _, hsome, ⟨head, hhead, _⟩, _⟩
    · cases hnone
    · cases hsome
      have hlength := (hhead.length_lt rfl).2
      omega
  · obtain ⟨_, _, heq⟩ := Reader.map_eq_ok.1 h
    cases heq

/-- What was read of a slice that is accepted. -/
theorem content_of_decode_slice {s : Slice} (h : decode bytes = .ok (.slice s)) :
    content bytes = .ok (s.header, .inl s.chunk) [] ∧ Slice.new s.header s.chunk = .ok s := by
  rw [decode_eq] at h
  simp only [Reader.outcome_eq_ok, Reader.bind_eq_ok, Reader.finish_eq_ok,
    Reader.ofExcept_eq_ok] at h
  obtain ⟨_, ⟨header, body⟩, _, hcontent, _, _, ⟨rfl, rfl⟩, hconclude, rfl⟩ := h
  cases body with
  | inr payload => cases hconclude
  | inl chunk =>
      cases hnew : Slice.new header chunk with
      | error e => rw [conclude, hnew] at hconclude; cases hconclude
      | ok s' =>
          rw [conclude, hnew] at hconclude
          cases hconclude
          obtain ⟨rfl, _⟩ := Slice.new_eq_ok.1 hnew
          exact ⟨hcontent, hnew⟩

/-- Where a slice ends can be computed for whatever a decoder has read of it, before it is asked
whether that lies inside the payload. -/
theorem exists_stop_of_content {header : Header} {chunk rest : Bytes}
    (h : content bytes = .ok (header, .inl chunk) rest) : ∃ first last offset size stop,
      header.fragmentation = .slice first last offset size
        ∧ Slice.stop? offset chunk.length = some stop
        ∧ stop.toInt = offset.toInt + chunk.length := by
  obtain ⟨hslice, hcheck, hlength⟩ := slice_of_content h
  rw [Header.isSlice] at hslice
  cases hfragmentation : header.fragmentation with
  | whole offset =>
      rw [hfragmentation] at hslice
      cases hslice
  | slice first last offset size =>
      rw [hfragmentation] at hcheck
      obtain ⟨hoffset, hinside, hsize, _⟩ := Fragmentation.check_slice_eq_ok_iff.1 hcheck
      -- both are below `2 ^ 32`, the offset by the check and the length by its head
      have hend : offset.toInt + chunk.length < 2 ^ 63 := by omega
      obtain ⟨stop, hstop, hvalue⟩ := Slice.exists_stop hoffset hend
      exact ⟨first, last, offset, size, stop, rfl, hstop, hvalue⟩

/-- A slice that is accepted lies inside its payload, and as unsigned numbers its offset and size
are what they were. -/
theorem inside_of_decode_slice {s : Slice} (h : decode bytes = .ok (.slice s)) :
    ∃ first last offset size stop, s.header.fragmentation = .slice first last offset size
      ∧ offset.toInt + s.chunk.length ≤ size.toInt
      ∧ Slice.stop? offset s.chunk.length = some stop
      ∧ stop.toInt = offset.toInt + s.chunk.length
      ∧ (Assembler.count offset : Int) = offset.toInt
      ∧ (Assembler.count size : Int) = size.toInt := by
  obtain ⟨hcontent, hnew⟩ := content_of_decode_slice h
  obtain ⟨first, last, offset, size, stop, hfragmentation, hstop, hvalue⟩ :=
    exists_stop_of_content hcontent
  obtain ⟨_, _, _, _, _, hfragmentation', hoffset, hinside⟩ := Slice.new_eq_ok.1 hnew
  cases hfragmentation.symm.trans hfragmentation'
  exact ⟨first, last, offset, size, stop, hfragmentation, hinside, hstop, hvalue,
    Assembler.count_of_nonneg hoffset, Assembler.count_of_nonneg (by omega)⟩

/-- The coordinates of slices are exact. Whatever the five fields hold and however the ten are
spelled, the header is accepted exactly if they are consistent, it says what they say and is written
as they were, and otherwise it is invalid. The end of a slice may be computed in the wire's numbers,
since it is never out of their range where a decoder asks for it. And a decoded slice lies inside
its payload as an exact integer, and its offset and size are the same as unsigned numbers. -/
theorem coordinates_exact :
    (∀ (h : Header) (c : Coordinates) (front rest : Bytes), Spells False (h.values c) front →
      ((∃ h' rest', Header.record.unpack (front ++ rest) = .ok h' rest') ↔ c.Consistent)
      ∧ (∀ h' rest', Header.record.unpack (front ++ rest) = .ok h' rest' → rest' = rest
        ∧ (∃ f, h' = { h with fragmentation := f } ∧ f.coordinates = c)
        ∧ ∃ packed, (Header.record.pack h').result = .ok packed
          ∧ Spells False (h.values c) packed)
      ∧ ∀ e rest', Header.record.unpack (front ++ rest) = .error e rest' → e.kind = .validation)
    ∧ (∀ header chunk, Slice.newChecked header chunk = Slice.new header chunk)
    ∧ (∀ (bytes : Bytes) (header : Header) (chunk rest : Bytes),
      content bytes = .ok (header, .inl chunk) rest → ∃ first last offset size stop,
        header.fragmentation = .slice first last offset size
          ∧ Slice.stop? offset chunk.length = some stop
          ∧ stop.toInt = offset.toInt + chunk.length)
    ∧ ∀ (bytes : Bytes) (s : Slice), decode bytes = .ok (.slice s) →
      ∃ first last offset size stop, s.header.fragmentation = .slice first last offset size
        ∧ offset.toInt + s.chunk.length ≤ size.toInt
        ∧ Slice.stop? offset s.chunk.length = some stop
        ∧ stop.toInt = offset.toInt + s.chunk.length
        ∧ (Assembler.count offset : Int) = offset.toInt
        ∧ (Assembler.count size : Int) = size.toInt := by
  refine ⟨fun h c front rest hspells => ⟨Header.accepted_iff hspells, ?_, ?_⟩, Slice.newChecked_eq,
    fun bytes header chunk rest => exists_stop_of_content, fun bytes s => inside_of_decode_slice⟩
  · exact fun h' rest' => Header.pack_of_unpack hspells
  · exact fun e rest' => Header.kind_of_unpack_error hspells

/-- The header over the last byte of the largest payload that slices can announce. -/
def farthest : Header :=
  { Header.sample with fragmentation := .slice false true 4294967294 4294967295 }

/-- The numbers at both ends of their range. -/
def extremes : Coordinates :=
  ⟨some true, some true, some true, some Int64.minValue, some Int64.maxValue⟩

theorem coordinates_exact_extremes :
    (∃ front h', Spells False (Header.sample.values farthest.fragmentation.coordinates) front
      ∧ Header.record.unpack (front ++ [0xc0]) = .ok h' [0xc0]
      ∧ h'.fragmentation.coordinates = farthest.fragmentation.coordinates
      ∧ ∃ packed, (Header.record.pack h').result = .ok packed
        ∧ Spells False (Header.sample.values farthest.fragmentation.coordinates) packed)
    ∧ (∃ front e rest, Spells False (Header.sample.values extremes) front
      ∧ Header.record.unpack (front ++ [0xc0]) = .error e rest ∧ e.kind = .validation)
    ∧ (∃ frame, content frame = .ok (farthest, .inl [7, 8]) []
      ∧ Slice.stop? 4294967294 2 = some 4294967296
      ∧ Slice.newChecked farthest [7, 8] = .error (.invalid Slice.owner .sliceBeyondFullSize))
    ∧ ∃ frame, decode frame = .ok (.slice ⟨farthest, [7]⟩)
      ∧ Slice.stop? 4294967294 1 = some 4294967295
      ∧ Assembler.count 4294967294 = 4294967294 ∧ Assembler.count 4294967295 = 4294967295 := by
  obtain ⟨hfields, hnew, hread, hslice⟩ := coordinates_exact
  refine ⟨?accepted, ?refused, ?beyond, ?inside⟩
  case accepted =>
    have hspells : Spells False (Header.sample.values farthest.fragmentation.coordinates) _ :=
      MessagePack.spells_encodeItems _ (by decide) (by decide)
    obtain ⟨haccepted, hok, _⟩ := hfields Header.sample _ _ [0xc0] hspells
    have hconsistent : farthest.fragmentation.coordinates.Consistent :=
      .slice (by decide) (by decide) (by decide) (by decide)
    obtain ⟨h', rest, hunpack⟩ := haccepted.2 hconsistent
    obtain ⟨rfl, ⟨f, rfl, hcoordinates⟩, hpack⟩ := hok h' rest hunpack
    exact ⟨_, _, hspells, hunpack, hcoordinates, hpack⟩
  case refused =>
    have hspells : Spells False (Header.sample.values extremes) _ :=
      MessagePack.spells_encodeItems _ (by decide) (by decide)
    obtain ⟨haccepted, _, herror⟩ := hfields Header.sample _ _ [0xc0] hspells
    have hinconsistent : ¬extremes.Consistent := by
      rintro (_ | ⟨hoffset, _, _, _⟩)
      exact absurd hoffset (by decide)
    cases hunpack : Header.record.unpack (_ ++ [0xc0]) with
    | ok h' rest => exact absurd (haccepted.1 ⟨h', rest, hunpack⟩) hinconsistent
    | error e rest => exact ⟨_, e, rest, hspells, hunpack, herror e rest hunpack⟩
  case beyond =>
    obtain ⟨frame, _, hcontent⟩ : ∃ frame, Slice.encode farthest [7, 8] = .ok frame
        ∧ content frame = .ok (farthest, .inl [7, 8]) [] := ⟨_, rfl, rfl⟩
    obtain ⟨_, _, offset, size, stop, hfragmentation, hstop, hvalue⟩ := hread frame _ _ _ hcontent
    cases hfragmentation
    obtain rfl : stop = 4294967296 := Int64.toInt_inj.1 hvalue
    exact ⟨frame, hcontent, hstop, hnew farthest [7, 8]⟩
  case inside =>
    obtain ⟨frame, hencode⟩ : ∃ frame, Slice.encode farthest [7] = .ok frame := ⟨_, rfl⟩
    have hdecode : decode frame = .ok (.slice ⟨farthest, [7]⟩) :=
      Slice.decode_of_encode rfl hencode
    obtain ⟨_, _, offset, size, stop, hfragmentation, _, hstop, hvalue, hoffset, hsize⟩ :=
      hslice frame _ hdecode
    cases hfragmentation
    obtain rfl : stop = 4294967295 := Int64.toInt_inj.1 hvalue
    exact ⟨frame, hdecode, hstop, Int.ofNat_inj.1 hoffset, Int.ofNat_inj.1 hsize⟩

end Inbound

end DataGateway

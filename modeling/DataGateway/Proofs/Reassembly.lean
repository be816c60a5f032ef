import DataGateway.Proofs.Assembler
import DataGateway.Proofs.Message.RoundTrip
import DataGateway.Splitting

/-!
# Splitting and reassembly

A message whose payload was cut into consecutive chunks arrives again: each frame is decoded to its
slice, every slice but the last is taken in silently, and the last completes the message and frees
its place. The invariant of the run is that what is buffered is the payload up to the slice that is
due. Where the cuts lie does not matter, and neither does what was buffered of the message before,
since its first slice begins it anew.
-/

namespace DataGateway

namespace Fragmentation

theorem toInt_long {n : Nat} (h : n < 0x8000000000000000) : (long n).toInt = n := by
  rw [long, if_pos h]
  exact Int64.toInt_ofNat_of_lt h

theorem check_long {total offset : Nat} (last : Bool) (htotal : total < 2 ^ 32)
    (hoffset : offset < total) :
    (slice (offset = 0) last (long offset) (long total)).check = .ok () := by
  have ht : (long total).toInt = total := toInt_long (by omega)
  have ho : (long offset).toInt = offset := toInt_long (by omega)
  have hmax : maxSize.toInt = 4294967295 := by decide
  have hzero : (0 : Int64).toInt = 0 := by decide
  have hfits : ¬maxSize < long total := by
    rw [Int64.lt_iff_toInt_lt]
    omega
  have hinside : ¬(long offset < 0 ∨ long total ≤ 0 ∨ long total ≤ long offset) := by
    simp only [Int64.lt_iff_toInt_lt, Int64.le_iff_toInt_le, ht, ho, hzero]
    omega
  have hfirst : decide (offset = 0) = decide (long offset = 0) := by
    rw [decide_eq_decide, ← Int64.toInt_inj, ho, hzero]
    omega
  rw [check, if_neg hfits, if_neg hinside, if_neg (not_not.2 hfirst)]

theorem lt_of_long_le_maxSize {n : Nat} (h : long n ≤ maxSize) : n < 2 ^ 32 := by
  by_contra hlarge
  have hle : (long n).toInt ≤ maxSize.toInt := Int64.le_iff_toInt_le.1 h
  have hmax : maxSize.toInt = 4294967295 := by decide
  unfold long at hle
  split at hle
  · rename_i hsmall
    rw [Int64.toInt_ofNat_of_lt hsmall] at hle
    omega
  · have : Int64.maxValue.toInt = 2 ^ 63 - 1 := by decide
    omega

end Fragmentation

namespace Assembler

theorem count_long {n : Nat} (h : n < 0x8000000000000000) : count (Fragmentation.long n) = n := by
  rw [count, Fragmentation.long, if_pos h, Int64.toUInt64_ofNat', UInt64.toNat_ofNat']
  exact Nat.mod_eq_of_lt (by omega)

/-- The slices complete the message: each but the last is taken in silently, the last gives the
message, and nothing of it is buffered any more. -/
def Completes (a : Assembler) (slices : List Slice) (m : Message) : Prop :=
  (a.pushAll slices).1 = List.replicate (slices.length - 1) (.ok none) ++ [.ok (some m)]
    ∧ (a.pushAll slices).2.pending.get? m.header.messageId = none

/-- The frames reassemble to the message: each decodes to a slice, and the slices complete it. -/
def Reassembles (a : Assembler) (frames : List Bytes) (m : Message) : Prop :=
  ∃ slices, List.Forall₂ (fun frame s => Inbound.decode frame = .ok (.slice s)) frames slices
    ∧ a.Completes slices m

/-- The slices conclude a message, whether or not its payload is well formed: each but the last is
taken in silently, the last comes to the outcome, and nothing is buffered any more. -/
def Concludes (a : Assembler) (slices : List Slice) (id : String)
    (outcome : Except ProtocolError (Option Message)) : Prop :=
  (a.pushAll slices).1 = List.replicate (slices.length - 1) (.ok none) ++ [outcome]
    ∧ (a.pushAll slices).2.pending.get? id = none

theorem concludes_one {a b : Assembler} {s : Slice} {id : String}
    {outcome : Except ProtocolError (Option Message)} (h : a.push s = (outcome, b))
    (hfree : b.pending.get? id = none) : a.Concludes [s] id outcome := by
  simp only [Concludes, pushAll, h]
  exact ⟨rfl, hfree⟩

theorem concludes_cons {a b : Assembler} {s : Slice} {rest : List Slice} {id : String}
    {outcome : Except ProtocolError (Option Message)} (h : a.push s = (.ok none, b))
    (hne : rest ≠ []) (hrest : b.Concludes rest id outcome) :
    a.Concludes (s :: rest) id outcome := by
  obtain ⟨houtcomes, hfree⟩ := hrest
  have hpos := List.length_pos_iff.2 hne
  simp only [Concludes, pushAll, h]
  refine ⟨?_, hfree⟩
  rw [houtcomes, List.length_cons, Nat.add_sub_cancel, ← List.cons_append, ← List.replicate_succ,
    Nat.sub_add_cancel hpos]

end Assembler

/-! ### The slices of a cut -/

namespace Slice

/-- The slices of consecutive chunks of a payload of `total` bytes from `offset` on. -/
def cut (header : Header) (total : Nat) : Nat → List Bytes → List Slice
  | _, [] => []
  | offset, chunk :: rest =>
    ⟨headerAt header total offset chunk, chunk⟩ :: cut header total (offset + chunk.length) rest

theorem length_cut (h : Header) (total offset : Nat) (chunks : List Bytes) :
    (cut h total offset chunks).length = chunks.length := by
  induction chunks generalizing offset with
  | nil => rfl
  | cons chunk rest ih => rw [cut, List.length_cons, List.length_cons, ih]

/-- A slice's header that passes its check announces a payload that slices can carry. -/
theorem total_lt_of_check {header : Header} {total offset : Nat} {chunk : Bytes}
    (h : (headerAt header total offset chunk).check = .ok ()) : total < 2 ^ 32 := by
  unfold Header.check at h
  split at h
  · cases h
  · simp only [headerAt, Fragmentation.check] at h
    split at h
    · cases h
    · rename_i hsize
      exact Fragmentation.lt_of_long_le_maxSize (Int64.not_lt.1 hsize)

theorem new_headerAt {header : Header} {total offset : Nat} {chunk : Bytes}
    (htotal : total < 2 ^ 32) (hend : offset + chunk.length ≤ total) :
    new (headerAt header total offset chunk) chunk
      = .ok ⟨headerAt header total offset chunk, chunk⟩ := by
  refine new_eq_ok.2 ⟨rfl, _, _, _, _, rfl, ?_⟩
  rw [Fragmentation.toInt_long (by omega), Fragmentation.toInt_long (by omega)]
  omega

theorem encodeFrom_cons_eq_ok {header : Header} {total offset : Nat} {chunk : Bytes}
    {rest frames : List Bytes} : encodeFrom header total offset (chunk :: rest) = .ok frames ↔
      ∃ frame frames', encode (headerAt header total offset chunk) chunk = .ok frame
        ∧ encodeFrom header total (offset + chunk.length) rest = .ok frames'
        ∧ frames = frame :: frames' := by
  rw [encodeFrom]
  cases encode (headerAt header total offset chunk) chunk with
  | error e => simp [bind, Except.bind]
  | ok frame =>
      cases encodeFrom header total (offset + chunk.length) rest <;>
        simp [bind, Except.bind, pure, Except.pure, eq_comm]

/-- Whatever the cut of a payload that slices can carry, its slices are encoded. -/
theorem exists_encodeFrom {header : Header} (hsend : header.Sendable) {total : Nat}
    (htotal : total < 2 ^ 32) {chunks : List Bytes} (hchunks : ∀ chunk ∈ chunks, chunk ≠ [])
    {offset : Nat} (hend : offset + chunks.flatten.length = total) :
    ∃ frames, encodeFrom header total offset chunks = .ok frames := by
  induction chunks generalizing offset with
  | nil => exact ⟨[], rfl⟩
  | cons chunk rest ih =>
      obtain ⟨hchunk, hrest⟩ := List.forall_mem_cons.1 hchunks
      have hpos := List.length_pos_iff.2 hchunk
      rw [List.flatten_cons, List.length_append] at hend
      have hsend' : (headerAt header total offset chunk).Sendable :=
        ⟨hsend.messageId_ne, hsend.messageId_lt, hsend.userName_lt⟩
      have hcheck : (headerAt header total offset chunk).check = .ok () := by
        rw [Header.check, if_neg hsend'.messageId_ne]
        exact Fragmentation.check_long _ htotal (by omega)
      have hlength : chunk.length < 2 ^ 32 := by omega
      obtain ⟨frame, hframe⟩ := exists_encode rfl hcheck hsend' hlength
      obtain ⟨frames, hframes⟩ :=
        ih hrest (show offset + chunk.length + rest.flatten.length = total by omega)
      exact ⟨frame :: frames, encodeFrom_cons_eq_ok.2 ⟨frame, frames, hframe, hframes, rfl⟩⟩

theorem sendable_of_encodeFrom {header : Header} {total offset : Nat} {chunks frames : List Bytes}
    (hsome : chunks ≠ []) (h : encodeFrom header total offset chunks = .ok frames) :
    header.Sendable := by
  obtain ⟨chunk, rest, rfl⟩ := List.exists_cons_of_ne_nil hsome
  obtain ⟨_, _, hframe, _⟩ := encodeFrom_cons_eq_ok.1 h
  obtain ⟨hne, hid, huser⟩ := sendable_of_encode hframe
  exact ⟨hne, hid, huser⟩

theorem total_lt_of_encodeFrom {header : Header} {total offset : Nat} {chunks frames : List Bytes}
    (hsome : chunks ≠ []) (h : encodeFrom header total offset chunks = .ok frames) :
    total < 2 ^ 32 := by
  obtain ⟨chunk, rest, rfl⟩ := List.exists_cons_of_ne_nil hsome
  obtain ⟨_, _, hframe, _⟩ := encodeFrom_cons_eq_ok.1 h
  exact total_lt_of_check (encode_eq_ok.1 hframe).2.1

/-- Each frame of a cut is decoded to its slice. -/
theorem decode_of_encodeFrom {header : Header} {total : Nat} {chunks frames : List Bytes}
    {offset : Nat} (h : encodeFrom header total offset chunks = .ok frames)
    (htotal : offset + chunks.flatten.length = total) :
    List.Forall₂ (fun frame s => Inbound.decode frame = .ok (.slice s)) frames
      (cut header total offset chunks) := by
  induction chunks generalizing offset frames with
  | nil =>
      obtain rfl := Except.ok.inj h
      exact .nil
  | cons chunk rest ih =>
      obtain ⟨frame, frames, hframe, hframes, rfl⟩ := encodeFrom_cons_eq_ok.1 h
      rw [List.flatten_cons, List.length_append] at htotal
      have hsmall := total_lt_of_check (encode_eq_ok.1 hframe).2.1
      refine .cons ?_ (ih hframes (by omega))
      exact decode_of_encode (new_headerAt hsmall (by omega)) hframe

end Slice

/-! ### The run -/

namespace Assembler

/-- What is buffered of a message: these bytes of a payload of `total` bytes. -/
def Holds (a : Assembler) (h : Header) (total : Nat) (buffer : Bytes) : Prop :=
  ∃ p, a.pending.get? h.messageId = some p ∧ p.buffer = buffer ∧ p.size = total
    ∧ { p.header with fragmentation := .whole none } = h

private theorem checkNext_eq_ok {p : Partial} {h : Header} {chunk : Bytes}
    (hsize : p.size < 2 ^ 32) (hoffset : p.buffer.length ≤ p.size)
    (hheader : { p.header with fragmentation := .whole none } = h) :
    p.checkNext (Slice.headerAt h p.size p.buffer.length chunk)
      (count (Fragmentation.long p.buffer.length)) p.size = .ok () := by
  have htype : h.dataType = p.header.dataType := by rw [← hheader]
  have hcount : count (Fragmentation.long p.buffer.length) = p.buffer.length :=
    count_long (by omega)
  rw [hcount]
  simp [Partial.checkNext, Slice.headerAt, htype]

private theorem complete_eq {p : Partial} {h : Header} (hlength : p.buffer.length = p.size)
    (hheader : { p.header with fragmentation := .whole none } = h) :
    p.complete = (fun payload => ⟨h, payload, {}⟩) <$> Payload.decode h.dataType p.buffer := by
  subst hheader
  unfold Partial.complete
  rw [if_neg (not_not.2 hlength)]
  cases hdecode : Payload.decode p.header.dataType p.buffer with
  | error e => rfl
  | ok payload =>
      have hpair : Message.checkPair { p.header with fragmentation := .whole none } payload
          = .ok () :=
        Message.checkPair_eq_ok.2 ⟨(Payload.type_of_decode hdecode).symm, rfl⟩
      change Message.new _ _ = _
      rw [Message.new, hpair]
      rfl

/-- A slice that leaves bytes to come is buffered. -/
theorem Holds.extend {a : Assembler} {h : Header} {total : Nat} {buffer chunk : Bytes}
    (ha : a.Holds h total buffer) (htotal : total < 2 ^ 32)
    (hmore : buffer.length + chunk.length < total) :
    ∃ b, a.extend ⟨Slice.headerAt h total buffer.length chunk, chunk⟩
        (decide (buffer.length + chunk.length = total)) (Fragmentation.long buffer.length) total
        = (.ok none, b)
      ∧ b.Holds h total (buffer ++ chunk) := by
  obtain ⟨p, hp, rfl, rfl, hheader⟩ := ha
  rw [decide_eq_false (by omega)]
  refine ⟨_, extend_eq_none hp (checkNext_eq_ok htotal (by omega) hheader) hmore, ?_⟩
  exact ⟨_, Dict.get?_insert_self .., rfl, rfl, hheader⟩

/-- The slice that brings the last bytes gives the message, if they decode. -/
theorem Holds.extend_last {a : Assembler} {h : Header} {total : Nat} {buffer chunk : Bytes}
    (ha : a.Holds h total buffer) (htotal : total < 2 ^ 32)
    (hend : buffer.length + chunk.length = total) :
    a.extend ⟨Slice.headerAt h total buffer.length chunk, chunk⟩
        (decide (buffer.length + chunk.length = total)) (Fragmentation.long buffer.length) total
      = ((fun p => some ⟨h, p, {}⟩) <$> Payload.decode h.dataType (buffer ++ chunk),
        a.drop h.messageId) := by
  obtain ⟨p, hp, rfl, rfl, hheader⟩ := ha
  have hcomplete : Partial.complete { p with buffer := p.buffer ++ chunk }
      = (fun payload => ⟨h, payload, {}⟩) <$> Payload.decode h.dataType (p.buffer ++ chunk) :=
    complete_eq (by rw [List.length_append, hend]) hheader
  have hextend : a.extend ⟨Slice.headerAt h p.size p.buffer.length chunk, chunk⟩ true
      (Fragmentation.long p.buffer.length) p.size
      = (some <$> Partial.complete { p with buffer := p.buffer ++ chunk }, a.drop h.messageId) :=
    extend_eq_last hp (checkNext_eq_ok htotal (by omega) hheader)
  rw [decide_eq_true hend, hextend, hcomplete, Functor.map_map]

/-- A later slice of a cut continues its message. -/
theorem push_cut_next (a : Assembler) (h : Header) (chunk : Bytes) {total offset : Nat}
    (htotal : total < 2 ^ 32) (hoffset : offset ≠ 0) :
    a.push ⟨Slice.headerAt h total offset chunk, chunk⟩
      = a.extend ⟨Slice.headerAt h total offset chunk, chunk⟩
        (decide (offset + chunk.length = total)) (Fragmentation.long offset) total := by
  have hpush := push_next (a := a) (s := ⟨Slice.headerAt h total offset chunk, chunk⟩)
    (congrArg (Fragmentation.slice · _ _ _) (decide_eq_false hoffset))
  rwa [count_long (by omega)] at hpush

/-- The first slice of a cut begins its message, whatever was buffered of it. -/
theorem push_cut_first {a : Assembler} (ha : a.Within) (chunk : Bytes) {h : Header} {total : Nat}
    (hwhole : h.fragmentation = .whole none) (htotal : total < 2 ^ 32)
    (hsize : total ≤ a.maxPayload) (hroom : a.HasRoom h.messageId) :
    ∃ b : Assembler, b.Holds h total [] ∧ a.push ⟨Slice.headerAt h total 0 chunk, chunk⟩
      = b.extend ⟨Slice.headerAt h total 0 chunk, chunk⟩
        (decide (0 + chunk.length = total)) (Fragmentation.long 0) total := by
  have hcount := count_long (show total < 0x8000000000000000 by omega)
  have hheader : { Slice.headerAt h total 0 chunk with fragmentation := .whole none } = h := by
    rw [← hwhole]
    rfl
  have hstart : a.start (Slice.headerAt h total 0 chunk) (count (Fragmentation.long total))
      = (.ok (), a.begun (Slice.headerAt h total 0 chunk) total) := by
    rw [hcount]
    exact start_eq_ok ha hsize hroom
  refine ⟨a.begun (Slice.headerAt h total 0 chunk) total,
    ⟨_, Dict.get?_insert_self .., rfl, rfl, hheader⟩, ?_⟩
  have hpush := push_first (s := ⟨Slice.headerAt h total 0 chunk, chunk⟩)
    (congrArg (Fragmentation.slice · _ _ _) (decide_eq_true rfl)) hstart
  rwa [hcount] at hpush

/-- The slices of what is still missing of a payload conclude its message. -/
theorem Holds.concludes_rest {h : Header} {bytes : Bytes} (htotal : bytes.length < 2 ^ 32)
    {rest : List Bytes} (hrest : rest ≠ []) (hchunks : ∀ chunk ∈ rest, chunk ≠ []) {a : Assembler}
    {buffer : Bytes} (ha : a.Holds h bytes.length buffer) (hbuffer : buffer ≠ [])
    (hbytes : buffer ++ rest.flatten = bytes) :
    a.Concludes (Slice.cut h bytes.length buffer.length rest) h.messageId
      ((fun p => some ⟨h, p, {}⟩) <$> Payload.decode h.dataType bytes) := by
  -- The chunks still to come and what is buffered are the payload together, at every step.
  induction rest generalizing a buffer with
  | nil => exact absurd rfl hrest
  | cons chunk rest ih =>
      obtain ⟨hchunk, hchunks⟩ := List.forall_mem_cons.1 hchunks
      have hoffset : buffer.length ≠ 0 := fun hzero => hbuffer (List.length_eq_zero_iff.1 hzero)
      have hpush := push_cut_next a h chunk htotal hoffset
      rw [List.flatten_cons, ← List.append_assoc] at hbytes
      have hlength : buffer.length + chunk.length + rest.flatten.length = bytes.length := by
        rw [← hbytes, List.length_append, List.length_append]
      by_cases hlast : rest = []
      · subst hlast
        rw [List.flatten_nil, List.append_nil] at hbytes
        rw [ha.extend_last htotal hlength, hbytes] at hpush
        exact concludes_one hpush (Dict.get?_erase_self ..)
      · have hmore : 0 < rest.flatten.length := by
          obtain ⟨next, more, rfl⟩ := List.exists_cons_of_ne_nil hlast
          have := List.length_pos_iff.2 (hchunks next List.mem_cons_self)
          rw [List.flatten_cons, List.length_append]
          omega
        obtain ⟨b, hextend, hb⟩ :=
          ha.extend htotal (show buffer.length + chunk.length < bytes.length by omega)
        have hconcludes := ih hlast hchunks hb (by simp [hbuffer]) hbytes
        rw [List.length_append] at hconcludes
        refine concludes_cons (hpush.trans hextend) ?_ hconcludes
        obtain ⟨next, more, rfl⟩ := List.exists_cons_of_ne_nil hlast
        exact List.cons_ne_nil _ _

/-- The slices of a whole payload conclude its message, whatever is buffered of it. -/
theorem concludes_cut {h : Header} {bytes : Bytes} {a : Assembler} (ha : a.Within)
    (hwhole : h.fragmentation = .whole none) (htotal : bytes.length < 2 ^ 32)
    (hsize : bytes.length ≤ a.maxPayload) (hroom : a.HasRoom h.messageId) {chunks : List Bytes}
    (hchunks : ∀ chunk ∈ chunks, chunk ≠ []) (hseveral : 2 ≤ chunks.length)
    (hbytes : chunks.flatten = bytes) :
    a.Concludes (Slice.cut h bytes.length 0 chunks) h.messageId
      ((fun p => some ⟨h, p, {}⟩) <$> Payload.decode h.dataType bytes) := by
  obtain ⟨chunk, next, rest, rfl⟩ : ∃ chunk next rest, chunks = chunk :: next :: rest := by
    match chunks, hseveral with
    | chunk :: next :: rest, _ => exact ⟨chunk, next, rest, rfl⟩
  obtain ⟨hchunk, hrest⟩ := List.forall_mem_cons.1 hchunks
  have hnext := List.length_pos_iff.2 (hrest next List.mem_cons_self)
  rw [List.flatten_cons] at hbytes
  have hmore : ([] : Bytes).length + chunk.length < bytes.length := by
    rw [← hbytes, List.flatten_cons, List.length_append, List.length_append, List.length_nil]
    omega
  obtain ⟨b, hb, hpush⟩ := push_cut_first ha chunk hwhole htotal hsize hroom
  obtain ⟨c, hextend, hc⟩ := hb.extend htotal hmore
  have hconcludes := hc.concludes_rest htotal (List.cons_ne_nil next rest) hrest hchunk hbytes
  refine concludes_cons (hpush.trans hextend) (List.cons_ne_nil _ _) ?_
  simpa using hconcludes

end Assembler

/-! ### Splitting -/

theorem ne_nil_of_mem_chunks {unit : Nat} (hunit : 0 < unit) (bytes : Bytes) :
    ∀ chunk ∈ chunks unit bytes, chunk ≠ [] := by
  fun_induction chunks unit bytes with
  | case1 => simp
  | case2 bytes h ih =>
      refine List.forall_mem_cons.2 ⟨fun hnil => h (.inr ?_), ih⟩
      rcases List.take_eq_nil_iff.1 hnil with hzero | hnil
      · omega
      · exact hnil

theorem two_le_length_chunks {unit : Nat} (hunit : 0 < unit) {bytes : Bytes}
    (hlarge : unit < bytes.length) : 2 ≤ (chunks unit bytes).length := by
  have hbytes : ¬(unit = 0 ∨ bytes = []) := by
    rintro (rfl | rfl)
    · omega
    · simp at hlarge
  have hrest : ¬(unit = 0 ∨ bytes.drop unit = []) := by
    rintro (rfl | hnil)
    · omega
    · have := List.drop_eq_nil_iff.1 hnil
      omega
  rw [chunks, dif_neg hbytes, chunks, dif_neg hrest]
  simp

namespace Message

/-- Splitting gives the one frame of a message that fits the unit, and else the slices of chunks of
as many bytes. -/
theorem split_eq_ok {h : Header} {p : Payload} {unit : Nat} {frames : List Bytes} :
    split h p unit = .ok frames ↔ 0 < unit ∧ checkPair h p = .ok () ∧
      ∃ bytes, p.encode = .ok bytes ∧
        if bytes.length ≤ unit then ∃ frame, encode h p = .ok frame ∧ frames = [frame]
        else Slice.encodeFrom h bytes.length 0 (chunks unit bytes) = .ok frames := by
  unfold split
  by_cases hunit : unit = 0
  · simp [hunit, bind, Except.bind, throw, throwThe, MonadExceptOf.throw]
  · rw [if_neg hunit]
    have hpos := Nat.pos_of_ne_zero hunit
    cases checkPair h p with
    | error e => simp [bind, Except.bind]
    | ok u =>
        cases hbytes : p.encode with
        | error e => simp [bind, Except.bind]
        | ok bytes =>
            by_cases hfit : bytes.length ≤ unit
            · cases encode h p <;> simp [bind, Except.bind, pure, Except.pure, hpos, hfit, eq_comm]
            · simp [bind, Except.bind, hpos, hfit]

theorem sendable_of_split {h : Header} {p : Payload} {unit : Nat} {frames : List Bytes}
    (hsplit : split h p unit = .ok frames) : h.Sendable := by
  obtain ⟨hunit, _, bytes, _, hframes⟩ := split_eq_ok.1 hsplit
  split at hframes
  · obtain ⟨frame, hframe, _⟩ := hframes
    exact sendable_of_encode hframe
  · rename_i hlarge
    have hseveral := two_le_length_chunks hunit (Nat.lt_of_not_le hlarge)
    exact Slice.sendable_of_encodeFrom (List.ne_nil_of_length_pos (by omega)) hframes

/-- The slices of any cut of a payload reassemble to its message. -/
theorem reassembles_of_encodeFrom {h : Header} {p : Payload} {bytes : Bytes} {a : Assembler}
    (ha : a.Reachable) (hwhole : h.fragmentation = .whole none) (hpair : checkPair h p = .ok ())
    (hencode : p.encode = .ok bytes) (hfits : ∀ v ∈ p.dynamics, v.Fits)
    (hsize : bytes.length ≤ a.maxPayload) (hroom : a.HasRoom h.messageId) {chunks : List Bytes}
    (hbytes : chunks.flatten = bytes) (hchunks : ∀ chunk ∈ chunks, chunk ≠ [])
    (hseveral : 2 ≤ chunks.length) {frames : List Bytes}
    (hframes : Slice.encodeFrom h bytes.length 0 chunks = .ok frames) :
    a.Reassembles frames ⟨h, p, {}⟩ := by
  have hdecode := Payload.decode_of_encode hencode hfits
  rw [← (checkPair_eq_ok.1 hpair).1] at hdecode
  have htotal :=
    Slice.total_lt_of_encodeFrom (List.ne_nil_of_length_pos (by omega)) hframes
  refine ⟨_, Slice.decode_of_encodeFrom hframes (by rw [hbytes, Nat.zero_add]), ?_⟩
  have hconcludes :=
    Assembler.concludes_cut ha.within hwhole htotal hsize hroom hchunks hseveral hbytes
  rw [hdecode] at hconcludes
  exact hconcludes

/-- A message that was split arrives again, and so does one whose payload is cut in any other
way. -/
theorem reassembles {h : Header} {p : Payload} {bytes : Bytes} {a : Assembler} (ha : a.Reachable)
    (hwhole : h.fragmentation = .whole none) (hencode : p.encode = .ok bytes)
    (hfits : ∀ v ∈ p.dynamics, v.Fits) (hsize : bytes.length ≤ a.maxPayload)
    (hroom : a.HasRoom h.messageId) {unit : Nat} {frames : List Bytes}
    (hsplit : split h p unit = .ok frames) :
    (if bytes.length ≤ unit then
        ∃ frame, frames = [frame] ∧ Inbound.decode frame = .ok (.message ⟨h, p, ⟨some frame⟩⟩)
      else a.Reassembles frames ⟨h, p, {}⟩)
    ∧ ∀ chunks, chunks.flatten = bytes → (∀ chunk ∈ chunks, chunk ≠ []) → 2 ≤ chunks.length →
      bytes.length < 2 ^ 32 → ∃ slices, Slice.encodeFrom h bytes.length 0 chunks = .ok slices
        ∧ a.Reassembles slices ⟨h, p, {}⟩ := by
  have hsend := sendable_of_split hsplit
  obtain ⟨hunit, hpair, payload, hpayload, hframes⟩ := split_eq_ok.1 hsplit
  obtain rfl := Except.ok.inj (hencode.symm.trans hpayload)
  constructor
  · split at hframes
    · rename_i hfit
      obtain ⟨frame, hframe, rfl⟩ := hframes
      obtain ⟨_, _, hspells, hmatch, hshallow⟩ := matches_of_encode hframe hfits
      rw [if_pos hfit]
      exact ⟨frame, rfl, Inbound.decode_of_matches hspells hmatch hshallow⟩
    · rename_i hlarge
      rw [if_neg hlarge]
      exact reassembles_of_encodeFrom ha hwhole hpair hencode hfits hsize hroom
        (flatten_chunks hunit bytes) (ne_nil_of_mem_chunks hunit bytes)
        (two_le_length_chunks hunit (Nat.lt_of_not_le hlarge)) hframes
  · intro chunks hbytes hchunks hseveral htotal
    obtain ⟨slices, hslices⟩ := Slice.exists_encodeFrom hsend htotal hchunks
      (show 0 + chunks.flatten.length = bytes.length by rw [hbytes, Nat.zero_add])
    exact ⟨slices, hslices, reassembles_of_encodeFrom ha hwhole hpair hencode hfits hsize hroom
      hbytes hchunks hseveral hslices⟩

theorem reassembles_sample : ∃ frames, split Header.sample Payload.sample 10 = .ok frames
    ∧ Assembler.Reassembles {} frames ⟨Header.sample, Payload.sample, {}⟩ := by
  have hfits : ∀ v ∈ Payload.sample.dynamics, v.Fits := by decide
  obtain ⟨bytes, hencode, hlength⟩ :
      ∃ bytes, Payload.sample.encode = .ok bytes ∧ bytes.length = 40 := ⟨_, rfl, by decide⟩
  have hsend : Header.sample.Sendable := ⟨by decide, by decide, by decide⟩
  have hflatten : (chunks 10 bytes).flatten = bytes := flatten_chunks (by decide) bytes
  obtain ⟨frames, hframes⟩ := Slice.exists_encodeFrom hsend (show bytes.length < 2 ^ 32 by omega)
    (ne_nil_of_mem_chunks (show 0 < 10 by decide) bytes) (by rw [hflatten, Nat.zero_add])
  have hsplit : split Header.sample Payload.sample 10 = .ok frames := by
    refine split_eq_ok.2 ⟨by decide, rfl, bytes, hencode, ?_⟩
    rwa [if_neg (by omega)]
  have hsize : bytes.length ≤ ({} : Assembler).maxPayload := by
    rw [hlength]
    decide
  have hroom : ({} : Assembler).HasRoom Header.sample.messageId := .inl (by decide)
  have hreassembles := (reassembles (.start _ _) rfl hencode hfits hsize hroom hsplit).1
  rw [if_neg (by omega)] at hreassembles
  exact ⟨frames, hsplit, hreassembles⟩

end Message

end DataGateway

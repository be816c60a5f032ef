import DataGateway.Proofs.Reassembly
import Mathlib.Algebra.Order.Floor.Div

/-!
# Splitting tiles a payload

A message can be split exactly if it can be sent whole and its payload fits the unit or can be
announced by a slice. The frames then lie side by side over the payload: the `k`-th is a slice at
`k` units, and each but the last is a unit long. The chunks are described by their places first,
then the slices that carry them, then the frames.
-/

namespace DataGateway

/-! ### Chunks by their places -/

section

variable {unit k : Nat} {bytes : Bytes}

theorem getElem?_chunks (hunit : 0 < unit) (bytes : Bytes) (k : Nat) : (chunks unit bytes)[k]?
    = if k * unit < bytes.length then some ((bytes.drop (k * unit)).take unit) else none := by
  fun_induction chunks unit bytes generalizing k with
  | case1 bytes h =>
      obtain rfl := h.resolve_left hunit.ne'
      simp
  | case2 bytes h ih =>
      have hpos : 0 < bytes.length := List.length_pos_iff.2 fun hnil => h (.inr hnil)
      cases k with
      | zero => simp [hpos]
      | succ k =>
          have hplace : k * unit < (bytes.drop unit).length ↔ (k + 1) * unit < bytes.length := by
            rw [List.length_drop, Nat.succ_mul]
            omega
          rw [List.getElem?_cons_succ, ih, List.drop_drop, Nat.succ_mul, Nat.add_comm unit]
          simp only [hplace, Nat.succ_mul]

/-- There are as many chunks as units it takes to cover the bytes. -/
theorem length_chunks (hunit : 0 < unit) (bytes : Bytes) :
    (chunks unit bytes).length = bytes.length ⌈/⌉ unit := by
  apply eq_of_forall_ge_iff
  intro k
  rw [ceilDiv_le_iff_le_mul hunit, ← List.getElem?_eq_none_iff, getElem?_chunks hunit,
    Nat.mul_comm unit]
  simp

/-- The chunks before a place are all full. -/
theorem flatten_take_chunks (hunit : 0 < unit) (bytes : Bytes) (k : Nat) :
    ((chunks unit bytes).take k).flatten = bytes.take (k * unit) := by
  fun_induction chunks unit bytes generalizing k with
  | case1 bytes h =>
      obtain rfl := h.resolve_left hunit.ne'
      simp
  | case2 bytes h ih =>
      cases k with
      | zero => simp
      | succ k =>
          rw [List.take_succ_cons, List.flatten_cons, ih, Nat.succ_mul, Nat.add_comm,
            List.take_add]

end

/-! ### Slices by their places -/

namespace Slice

theorem getElem?_cut (h : Header) (total offset : Nat) (chunks : List Bytes) (k : Nat) :
    (cut h total offset chunks)[k]? = chunks[k]?.map fun chunk =>
      ⟨headerAt h total (offset + (chunks.take k).flatten.length) chunk, chunk⟩ := by
  induction chunks generalizing offset k with
  | nil => rfl
  | cons chunk rest ih =>
      cases k with
      | zero => rfl
      | succ k =>
          rw [cut, List.getElem?_cons_succ, List.getElem?_cons_succ, ih, List.take_succ_cons,
            List.flatten_cons, List.length_append, Nat.add_assoc]

theorem flatMap_chunk_cut (h : Header) (total offset : Nat) (chunks : List Bytes) :
    (cut h total offset chunks).flatMap Slice.chunk = chunks.flatten := by
  induction chunks generalizing offset with
  | nil => rfl
  | cons chunk rest ih => rw [cut, List.flatMap_cons, ih, List.flatten_cons]

/-- The `k`-th of `count` slices of a payload of `total` bytes, which are `unit` bytes long but for
the last, under copies of a header. -/
structure Tile (s : Slice) (header : Header) (total unit count k : Nat) : Prop where
  header_eq : ∃ offset size : Int64, s.header = { header with
      fragmentation := .slice (decide (k = 0)) (decide (k + 1 = count)) offset size }
    ∧ offset.toInt = k * unit ∧ size.toInt = total
  full : k + 1 < count → s.chunk.length = unit
  last : k + 1 = count → 1 ≤ s.chunk.length ∧ s.chunk.length ≤ unit

theorem tile_of_cut {h : Header} {bytes : Bytes} {unit k : Nat} {s : Slice} (hunit : 0 < unit)
    (htotal : bytes.length < 2 ^ 32)
    (hs : (cut h bytes.length 0 (chunks unit bytes))[k]? = some s) :
    s.Tile h bytes.length unit (bytes.length ⌈/⌉ unit) k := by
  rw [getElem?_cut, getElem?_chunks hunit, flatten_take_chunks hunit] at hs
  split at hs
  · rename_i hinside
    obtain rfl := Option.some.inj hs
    have hoffset : 0 + (bytes.take (k * unit)).length = k * unit := by
      rw [Nat.zero_add, List.length_take, Nat.min_eq_left hinside.le]
    have hlength : ((bytes.drop (k * unit)).take unit).length
        = min unit (bytes.length - k * unit) := by
      rw [List.length_take, List.length_drop]
    have hfirst : k * unit = 0 ↔ k = 0 := by
      rw [Nat.mul_eq_zero, or_iff_left hunit.ne']
    have hcount : bytes.length ⌈/⌉ unit ≤ k + 1 ↔ bytes.length ≤ k * unit + unit := by
      rw [ceilDiv_le_iff_le_mul hunit, Nat.mul_comm, Nat.succ_mul]
    have hmore : k < bytes.length ⌈/⌉ unit := by
      rw [lt_iff_not_ge, ceilDiv_le_iff_le_mul hunit, Nat.mul_comm]
      exact hinside.not_ge
    have hlast : k * unit + min unit (bytes.length - k * unit) = bytes.length
        ↔ k + 1 = bytes.length ⌈/⌉ unit := by
      omega
    refine ⟨⟨Fragmentation.long (k * unit), Fragmentation.long bytes.length, ?_, ?_, ?_⟩, ?_, ?_⟩
    · simp only [headerAt, hoffset, hlength, hfirst, hlast]
    · rw [Fragmentation.toInt_long (by omega), Int.natCast_mul]
    · exact Fragmentation.toInt_long (by omega)
    · intro hbefore
      rw [hlength]
      omega
    · intro hfinal
      rw [hlength]
      omega
  · cases hs

/-- Frames that lie side by side over a payload: as many as units it takes to cover it, each decoded
to the slice of its place, and the slices together are the payload. -/
def Tiles (frames : List Bytes) (header : Header) (bytes : Bytes) (unit : Nat) : Prop :=
  frames.length = bytes.length ⌈/⌉ unit ∧
    ∃ slices, List.Forall₂ (fun frame s => Inbound.decode frame = .ok (.slice s)) frames slices
      ∧ (∀ k (s : Slice), slices[k]? = some s → s.Tile header bytes.length unit frames.length k)
      ∧ slices.flatMap Slice.chunk = bytes

theorem Tile.length_le {s : Slice} {h : Header} {total unit count k : Nat}
    (ht : s.Tile h total unit count k) (hk : k < count) : s.chunk.length ≤ unit := by
  rcases Nat.eq_or_lt_of_le (Nat.succ_le_of_lt hk) with hlast | hmore
  · exact (ht.last hlast).2
  · exact (ht.full hmore).le

theorem tiles_of_encodeFrom {h : Header} {bytes : Bytes} {unit : Nat} {frames : List Bytes}
    (hunit : 0 < unit) (hlarge : unit < bytes.length)
    (hframes : encodeFrom h bytes.length 0 (chunks unit bytes) = .ok frames) :
    Tiles frames h bytes unit := by
  have hseveral := two_le_length_chunks hunit hlarge
  have htotal := total_lt_of_encodeFrom (List.ne_nil_of_length_pos (by omega)) hframes
  have hflatten := flatten_chunks hunit bytes
  have hslices := decode_of_encodeFrom hframes (by rw [hflatten, Nat.zero_add])
  have hcount : frames.length = bytes.length ⌈/⌉ unit := by
    rw [hslices.length_eq, length_cut, length_chunks hunit]
  refine ⟨hcount, _, hslices, fun k s hs => ?_, ?_⟩
  · rw [hcount]
    exact tile_of_cut hunit htotal hs
  · rw [flatMap_chunk_cut, hflatten]

end Slice

namespace Message

variable {h : Header} {p : Payload} {unit : Nat}

/-- What is split is what can be sent whole, if its payload fits the unit or can be announced. -/
theorem exists_split_iff (hunit : 0 < unit) : (∃ frames, split h p unit = .ok frames)
    ↔ (∃ frame, encode h p = .ok frame)
      ∧ ∃ bytes, p.encode = .ok bytes ∧ (bytes.length ≤ unit ∨ bytes.length ≤ 2 ^ 32 - 1) := by
  constructor
  · rintro ⟨frames, hsplit⟩
    have hsend := sendable_of_split hsplit
    obtain ⟨_, hpair, bytes, hencode, hframes⟩ := split_eq_ok.1 hsplit
    refine ⟨exists_encode_iff.2 ⟨hpair, hsend, bytes, hencode⟩, bytes, hencode, ?_⟩
    split at hframes
    · rename_i hfit
      exact .inl hfit
    · rename_i hlarge
      have hseveral := two_le_length_chunks hunit (Nat.lt_of_not_le hlarge)
      have htotal := Slice.total_lt_of_encodeFrom (List.ne_nil_of_length_pos (by omega)) hframes
      exact .inr (by omega)
  · rintro ⟨⟨frame, hframe⟩, bytes, hencode, hsize⟩
    obtain ⟨hpair, hsend, _⟩ := exists_encode_iff.1 ⟨frame, hframe⟩
    by_cases hfit : bytes.length ≤ unit
    · refine ⟨[frame], split_eq_ok.2 ⟨hunit, hpair, bytes, hencode, ?_⟩⟩
      rw [if_pos hfit]
      exact ⟨frame, hframe, rfl⟩
    · obtain ⟨frames, hframes⟩ := Slice.exists_encodeFrom hsend
        (show bytes.length < 2 ^ 32 by omega) (ne_nil_of_mem_chunks hunit bytes)
        (show 0 + (chunks unit bytes).flatten.length = bytes.length by
          rw [flatten_chunks hunit, Nat.zero_add])
      refine ⟨frames, split_eq_ok.2 ⟨hunit, hpair, bytes, hencode, ?_⟩⟩
      rwa [if_neg hfit]

/-- A message is split exactly if it can be sent whole and its payload fits the unit or can be
announced by slices. It then travels as its one frame, or as slices that tile its payload. -/
theorem split_tiles (hunit : 0 < unit) :
    ((∃ frames, split h p unit = .ok frames)
      ↔ (∃ frame, encode h p = .ok frame)
        ∧ ∃ bytes, p.encode = .ok bytes ∧ (bytes.length ≤ unit ∨ bytes.length ≤ 2 ^ 32 - 1))
    ∧ ∀ frames, split h p unit = .ok frames → ∃ bytes, p.encode = .ok bytes ∧
      if bytes.length ≤ unit then ∃ frame, encode h p = .ok frame ∧ frames = [frame]
      else Slice.Tiles frames h bytes unit := by
  refine ⟨exists_split_iff hunit, fun frames hsplit => ?_⟩
  obtain ⟨_, _, bytes, hencode, hframes⟩ := split_eq_ok.1 hsplit
  refine ⟨bytes, hencode, ?_⟩
  split at hframes
  · rename_i hfit
    rwa [if_pos hfit]
  · rename_i hlarge
    rw [if_neg hlarge]
    exact Slice.tiles_of_encodeFrom hunit (Nat.lt_of_not_le hlarge) hframes

/-- The sample can be sent, and its payload is forty bytes long. -/
theorem encode_sample : (∃ frame, encode Header.sample Payload.sample = .ok frame)
    ∧ ∃ bytes, Payload.sample.encode = .ok bytes ∧ bytes.length = 40 := by
  obtain ⟨bytes, hencode, hlength⟩ :
      ∃ bytes, Payload.sample.encode = .ok bytes ∧ bytes.length = 40 := ⟨_, rfl, by decide⟩
  have hsend : Header.sample.Sendable := ⟨by decide, by decide, by decide⟩
  exact ⟨exists_encode_iff.2 ⟨rfl, hsend, bytes, hencode⟩, bytes, hencode, hlength⟩

/-- It takes four slices of twelve bytes, the last of which carries four. -/
theorem split_tiles_sample : 0 < 12
    ∧ ∃ frames bytes, split Header.sample Payload.sample 12 = .ok frames
      ∧ Payload.sample.encode = .ok bytes ∧ bytes.length = 40 ∧ frames.length = 4
      ∧ Slice.Tiles frames Header.sample bytes 12 := by
  obtain ⟨hwhole, bytes, hencode, hlength⟩ := encode_sample
  have htiles := split_tiles (h := Header.sample) (p := Payload.sample) (show 0 < 12 by decide)
  obtain ⟨frames, hsplit⟩ := htiles.1.2 ⟨hwhole, bytes, hencode, .inr (by omega)⟩
  obtain ⟨bytes', hencode', hframes⟩ := htiles.2 frames hsplit
  obtain rfl := Except.ok.inj (hencode.symm.trans hencode')
  rw [if_neg (by omega)] at hframes
  have hcount : frames.length = 4 := by
    rw [hframes.1, hlength]
    rfl
  exact ⟨by decide, frames, bytes, hsplit, hencode, hlength, hcount, hframes⟩

end Message

end DataGateway

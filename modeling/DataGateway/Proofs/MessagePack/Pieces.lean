import DataGateway.Proofs.MessagePack.Spelling
import Mathlib.Data.List.Forall2

/-!
# Pieces

The bytes of a value are the openings of its parts, one piece for each part and in the same order.
So the positions where a value begins are the starts of the pieces, and what is said of every
position is said of every piece. `Spells.pieces` and `Spells.of_pieces` go from the grammar to the
pieces and back, and `Opening.cancel` says that the bytes settle where a piece ends.

`Cut` is the same for values of which some may begin with the reserved byte and others not: a
`Place` carries which.
-/

namespace DataGateway.MessagePack

open Value

/-- A value somewhere in the bytes, and whether it is inside a dynamic value. -/
structure Place where
  value : Value
  inside : Bool

/-- The piece with which a value begins. Only inside a dynamic value may it be the reserved byte. -/
def Place.Opens (place : Place) (piece : Bytes) : Prop :=
  Opening (place.inside = true) place.value piece

/-- Bytes in pieces, one for each place. -/
def Cut (places : List Place) (bytes : Bytes) : Prop :=
  ∃ pieces : List Bytes, bytes = pieces.flatten ∧ List.Forall₂ Place.Opens places pieces

variable {reserved : Prop}

/-! ### Where a piece ends -/

/-- A number and where its head ends are settled by the bytes. -/
theorem Head.cancel {f g : Family} {m n : Int} {a b r s : Bytes} (ha : Head f m a)
    (hb : Head g n b) (h : a ++ r = b ++ s) : f = g ∧ m = n ∧ a = b ∧ r = s := by
  obtain ⟨x, marker, operand, hx, rfl, hlength, rfl, rfl⟩ := ha
  obtain ⟨y, marker', operand', hy, rfl, hlength', rfl, rfl⟩ := hb
  obtain ⟨rfl, hrest⟩ := List.cons.inj h
  obtain rfl : marker = marker' := Option.some.inj (hx.symm.trans hy)
  obtain ⟨rfl, rfl⟩ := List.append_inj hrest (hlength.trans hlength'.symm)
  exact ⟨rfl, rfl, rfl, rfl⟩

/-- How many bytes follow the head that announces a number. -/
def Family.trailing (n : Int) : Family → Nat
  | .string | .binary => n.toNat
  | .extension => n.toNat + 1
  | _ => 0

/-- How many values follow the head that announces a number. -/
def Family.following (n : Int) : Family → Nat
  | .array => n.toNat
  | .map => 2 * n.toNat
  | _ => 0

/-- The head of an opening says how many bytes and how many values follow it. -/
theorem Opening.head {v : Value} {front : Bytes} (h : Opening False v front) :
    ∃ n head body, Head v.family n head ∧ front = head ++ body
      ∧ body.length = v.family.trailing n ∧ v.children.length = v.family.following n := by
  cases h with
  | nil => exact ⟨0, _, [], nil_head, rfl, rfl, rfl⟩
  | reserved h => exact h.elim
  | boolean h | integer h => exact ⟨_, _, [], h, (List.append_nil _).symm, rfl, rfl⟩
  | float32 h =>
      exact ⟨_, _, [], ⟨0xca, _, _, rfl, rfl, h, rfl, rfl⟩, (List.append_nil _).symm, rfl, rfl⟩
  | float64 h =>
      exact ⟨_, _, [], ⟨0xcb, _, _, rfl, rfl, h, rfl, rfl⟩, (List.append_nil _).symm, rfl, rfl⟩
  | string h | binary h | extension h => exact ⟨_, _, _, h, rfl, rfl, rfl⟩
  | array h => exact ⟨_, _, [], h, (List.append_nil _).symm, rfl, rfl⟩
  | map h => exact ⟨_, _, [], h, (List.append_nil _).symm, rfl, length_flat _⟩

/-- A piece ends where the bytes say, and they say how many values are inside. -/
theorem Opening.cancel {v w : Value} {a b r s : Bytes} (hv : Opening False v a)
    (hw : Opening False w b) (h : a ++ r = b ++ s) :
    a = b ∧ r = s ∧ v.children.length = w.children.length := by
  obtain ⟨n, head, body, hhead, rfl, hbody, hchildren⟩ := hv.head
  obtain ⟨m, head', body', hhead', rfl, hbody', hchildren'⟩ := hw.head
  rw [List.append_assoc, List.append_assoc] at h
  obtain ⟨hfamily, rfl, rfl, hrest⟩ := hhead.cancel hhead' h
  rw [← hfamily] at hbody' hchildren'
  obtain ⟨rfl, rfl⟩ := List.append_inj hrest (hbody.trans hbody'.symm)
  exact ⟨rfl, rfl, hchildren.trans hchildren'.symm⟩

theorem Opening.mono {allowed : Prop} (himp : reserved → allowed) {v : Value} {piece : Bytes}
    (h : Opening reserved v piece) : Opening allowed v piece := by
  cases h with
  | reserved h => exact .reserved (himp h)
  | nil => exact .nil
  | boolean h => exact .boolean h
  | integer h => exact .integer h
  | float32 h => exact .float32 h
  | float64 h => exact .float64 h
  | string h => exact .string h
  | binary h => exact .binary h
  | array h => exact .array h
  | map h => exact .map h
  | extension h => exact .extension h

theorem Opening.head?_ne {v : Value} {piece : Bytes} (h : Opening False v piece) (back : Bytes) :
    (piece ++ back).head? ≠ some 0xc1 := by
  obtain ⟨b, marker, r, hpiece, hb, _⟩ := h.begins back
  rw [hpiece]
  rintro hhead
  obtain rfl := Option.some.inj hhead
  rw [(Marker.ofByte_eq_none_iff _).2 rfl] at hb
  cases hb

/-! ### One piece for each part -/

namespace Spells

theorem pieces {vs : List Value} {bytes : Bytes} (h : Spells reserved vs bytes) :
    ∃ pieces : List Bytes, bytes = pieces.flatten
      ∧ List.Forall₂ (Opening reserved) (partsItems vs) pieces := by
  induction h with
  | nil => exact ⟨[], rfl, by simp [partsItems]⟩
  | @cons v vs front body back opening _ _ inside rest =>
      obtain ⟨ps, rfl, hps⟩ := inside
      obtain ⟨qs, rfl, hqs⟩ := rest
      refine ⟨front :: (ps ++ qs), by simp, ?_⟩
      rw [partsItems, parts_eq, List.cons_append]
      exact .cons opening (List.rel_append hps hqs)

theorem of_pieces {vs : List Value} {pieces : List Bytes}
    (h : List.Forall₂ (Opening reserved) (partsItems vs) pieces) :
    Spells reserved vs pieces.flatten := by
  induction vs using forest_induction generalizing pieces with
  | nil =>
      rw [partsItems, List.forall₂_nil_left_iff] at h
      rw [h]
      exact .nil
  | cons v vs inside rest =>
      rw [partsItems, parts_eq, List.cons_append] at h
      obtain ⟨front, ps, opening, hall, rfl⟩ := List.forall₂_cons_left_iff.1 h
      have hinside := inside (List.forall₂_take_append _ _ _ hall.flip).flip
      have hrest := rest (List.forall₂_drop_append _ _ _ hall.flip).flip
      have hspells := Spells.cons opening hinside hrest
      rwa [← List.flatten_append, List.take_append_drop] at hspells

/-- What is well-formed is cut in one way only, even if some piece might be the reserved byte. -/
theorem pieces_unique {vs : List Value} {ps qs : List Bytes}
    (hps : List.Forall₂ (Opening reserved) vs ps) (hqs : List.Forall₂ (Opening False) vs qs)
    (h : ps.flatten = qs.flatten) : ps = qs := by
  induction hps generalizing qs with
  | nil => rw [List.forall₂_nil_left_iff.1 hqs]
  | @cons v piece vs ps opening _ ih =>
      obtain ⟨piece', qs, opening', hrest, rfl⟩ := List.forall₂_cons_left_iff.1 hqs
      rw [List.flatten_cons, List.flatten_cons] at h
      rcases opening.wellFormed_or with opening | ⟨_, rfl, rfl⟩
      · obtain ⟨rfl, hflat, _⟩ := opening.cancel opening' h
        rw [ih hrest hflat]
      · cases opening' with
        | nil => exact absurd (List.cons.inj h).1 (by decide)
        | reserved hfalse => exact hfalse.elim

end Spells

namespace Cut

theorem nil : Cut [] [] := ⟨[], rfl, .nil⟩

theorem cons {place : Place} {places : List Place} {piece bytes : Bytes} (h : place.Opens piece)
    (hrest : Cut places bytes) : Cut (place :: places) (piece ++ bytes) := by
  obtain ⟨pieces, rfl, hall⟩ := hrest
  exact ⟨piece :: pieces, rfl, .cons h hall⟩

/-- A value without values inside it is one piece. -/
theorem one {v : Value} {front : Bytes} (h : Opening False v front) : Cut [⟨v, false⟩] front := by
  have hcut : Cut [⟨v, false⟩] (front ++ []) := .cons (h.mono False.elim) .nil
  rwa [List.append_nil] at hcut

theorem append {ps qs : List Place} {a b : Bytes} (ha : Cut ps a) (hb : Cut qs b) :
    Cut (ps ++ qs) (a ++ b) := by
  obtain ⟨pieces, rfl, hps⟩ := ha
  obtain ⟨pieces', rfl, hqs⟩ := hb
  exact ⟨pieces ++ pieces', List.flatten_append.symm, List.rel_append hps hqs⟩

/-- Inside a dynamic value every nil may be the reserved byte. -/
theorem inside {vs : List Value} {bytes : Bytes} (h : Spells True vs bytes) :
    Cut ((partsItems vs).map (⟨·, true⟩)) bytes := by
  obtain ⟨pieces, rfl, hall⟩ := h.pieces
  refine ⟨pieces, rfl, List.forall₂_map_left_iff.2 (hall.imp fun v piece opening => ?_)⟩
  simpa [Place.Opens] using opening

/-- What is cut is spelled, wherever the reserved byte may stand. -/
theorem spells {places : List Place} {bytes : Bytes} (h : Cut places bytes) {vs : List Value}
    (hvalues : places.map Place.value = partsItems vs) : Spells True vs bytes := by
  obtain ⟨pieces, rfl, hall⟩ := h
  refine Spells.of_pieces ?_
  rw [← hvalues]
  exact List.forall₂_map_left_iff.2 (hall.imp fun place piece opening =>
    opening.mono fun _ => trivial)

end Cut

end DataGateway.MessagePack

import DataGateway.Proofs.Message.Grammar

/-!
# The reserved byte

No value begins with `0xc1`. Typed reads refuse the byte, and so does the read of a dynamic value;
but inside a dynamic value it is taken for a nil, so bytes are accepted that are no well-formed
value. Main statement: nothing else than a nil inside a dynamic value can have been that byte, and
if none was, no position at which a value begins holds it.

Accepted bytes come in one piece for each value that was read, so a position at which a value begins
is the start of a piece. `ReservedFree` has the positions counted off from the front instead,
without a look at what was read; `reservedFree_flatten_iff` says that it comes to the same.
-/

namespace DataGateway

open MessagePack (Value Spells Opening Place Cut ReservedFree Due Head)

namespace MessagePack

/-- After the first pieces of a well-formed value, the rest of the bytes spells as many values as
are due. -/
theorem Due.spells_rest {v : Value} {bytes : Bytes} (h : Spells False [v] bytes) {front : Bytes}
    {n : Nat} (hdue : Due front n) {rest : Bytes} (hbytes : bytes = front ++ rest) :
    ∃ vs : List Value, vs.length = n ∧ Spells False vs rest := by
  induction hdue generalizing rest with
  | start =>
      obtain rfl : bytes = rest := hbytes
      exact ⟨[v], rfl, h⟩
  | @opening front piece w n _ hpiece ih =>
      obtain ⟨vs, hlength, hspells⟩ := ih (hbytes.trans (List.append_assoc ..))
      generalize hrest : piece ++ rest = back at hspells
      cases hspells with
      | nil => cases hlength
      | @cons u us front' body back' opening inside others =>
          obtain ⟨_, rfl, hchildren⟩ := hpiece.cancel opening hrest
          refine ⟨u.children ++ us, ?_, inside.append others⟩
          rw [List.length_append, hchildren, Nat.succ.inj hlength]

theorem Due.array {front : Bytes} {n : Nat} (h : Due front (n + 1)) (k : Nat) (hk : k < 2 ^ 32) :
    Due (front ++ arrayHead k) (k + n) := by
  have hopening : Opening False (.array (List.replicate k .nil)) (arrayHead k) := by
    refine .array ?_
    rw [List.length_replicate]
    exact arrayHead_head hk
  simpa only [Value.children, List.length_replicate] using h.opening hopening

/-- No position at which a value begins holds the reserved byte exactly if the bytes spell the value
without it. -/
theorem reservedFree_iff {v : Value} {bytes : Bytes} (h : Spells True [v] bytes) :
    ReservedFree bytes ↔ Spells False [v] bytes := by
  constructor
  · intro hfree
    exact hfree.wellFormed h [] [] (by simp) (n := 0) .start
  · intro hwell front back n hbytes hdue
    obtain ⟨vs, hlength, hspells⟩ := hdue.spells_rest hwell hbytes
    obtain ⟨u, us, rfl⟩ := List.exists_cons_of_length_eq_add_one hlength
    generalize hrest : (0xc1 :: back : Bytes) = rest at hspells
    cases hspells with
    | cons opening inside others => exact opening.head?_ne _ (by rw [← hrest]; rfl)

/-- For bytes in pieces this means that the byte begins none of them. -/
theorem reservedFree_flatten_iff {v : Value} {pieces : List Bytes}
    (h : List.Forall₂ (Opening True) v.parts pieces) :
    ReservedFree pieces.flatten ↔ ∀ piece ∈ pieces, piece.head? ≠ some 0xc1 := by
  have hparts : Value.partsItems [v] = v.parts := by simp [Value.partsItems]
  rw [← hparts] at h
  rw [reservedFree_iff (Spells.of_pieces h)]
  constructor
  · intro hwell
    obtain ⟨pieces', hflatten, hall⟩ := hwell.pieces
    obtain rfl := Spells.pieces_unique h hall hflatten
    have hne := hall.flip.imp fun piece w (opening : Opening False w piece) =>
      And.intro (by simpa using opening.head?_ne []) opening
    exact ((List.forall₂_and_left _ _).1 hne).1
  · intro hne
    refine Spells.of_pieces (List.Forall₂.flip ?_)
    refine ((List.forall₂_and_left _ _).2 ⟨hne, h.flip⟩).imp fun piece w => ?_
    rintro ⟨hpiece, opening⟩
    rcases opening.wellFormed_or with opening | ⟨_, _, rfl⟩
    · exact opening
    · exact absurd rfl hpiece

end MessagePack

namespace Inbound

/-- What was decoded as a value, and where it and the values inside it stand. -/
inductive Stands : Inbound → Value → List Place → Prop
  | message {m : Message} {fields : List Value} {value : Value}
    (h : Message.Matches fields value m.header m.payload) : Stands (.message m)
      (.array (fields ++ [value])) (framePlaces m.payload.type.record.layout fields value)
  | slice {s : Slice} {fields : List Value} (h : Header.Matches fields s.header) :
    Stands (.slice s) (.array (fields ++ [.binary s.chunk]))
      (framePlaces .binary fields (.binary s.chunk))

theorem Stands.map_value {m : Inbound} {tree : Value} {places : List Place}
    (h : m.Stands tree places) : places.map Place.value = tree.parts := by
  cases h with
  | message h => simpa [Value.partsItems] using map_value_framePlaces h.header h.payload
  | slice h => simpa [Value.partsItems] using map_value_framePlaces (l := .binary) h rfl

theorem exists_cut_of_decode {bytes : Bytes} {m : Inbound} (h : decode bytes = .ok m) :
    ∃ tree places, m.Stands tree places ∧ Cut places bytes := by
  cases m with
  | message m =>
      obtain ⟨_, fields, value, hcut, hmatch, _⟩ := placed_of_decode h
      exact ⟨_, _, .message hmatch, hcut⟩
  | slice s =>
      obtain ⟨fields, hcut, hmatch, _⟩ := placed_of_decode_slice h
      exact ⟨_, _, .slice hmatch, hcut⟩

/-- Where the reserved byte can be in bytes that are accepted: they come in pieces, one for each
value that was read, and a piece that begins with it is a nil inside a dynamic value. If there is no
such piece, then no position holds it at which a value begins. -/
theorem reserved_only_inside {bytes : Bytes} {m : Inbound} (h : decode bytes = .ok m) :
    ∃ tree places pieces, m.Stands tree places ∧ places.map Place.value = tree.parts
      ∧ bytes = List.flatten pieces
      ∧ List.Forall₂ (fun place piece => place.Opens piece
        ∧ (piece.head? = some 0xc1 → place.inside = true ∧ place.value = .nil)) places pieces
      ∧ (ReservedFree bytes ↔ ∀ piece ∈ pieces, piece.head? ≠ some 0xc1) := by
  obtain ⟨tree, places, hstands, pieces, rfl, hall⟩ := exists_cut_of_decode h
  refine ⟨tree, places, pieces, hstands, hstands.map_value, rfl, ?_, ?_⟩
  · refine hall.imp fun place piece hopens => ⟨hopens, fun hhead => ?_⟩
    rcases hopens.wellFormed_or with opening | ⟨hinside, hnil, _⟩
    · exact absurd hhead (by simpa using opening.head?_ne [])
    · exact ⟨hinside, hnil⟩
  · refine MessagePack.reservedFree_flatten_iff (v := tree) ?_
    rw [← hstands.map_value]
    exact List.forall₂_map_left_iff.2 (hall.imp fun place piece hopens =>
      Opening.mono (fun _ => trivial) hopens)

/-- A document of one row, whose one value is an array of the reserved byte. -/
def reservedInside : Bytes :=
  [0x9b, 0xa1, 0x75, 0xa1, 0x6d, 0x01, 0x02, 0xc2, 0xc0, 0xc0, 0xc0, 0xc0, 0x08, 0x94, 0xa1, 0x74,
    0x91, 0x93, 0xa1, 0x61, 0xa4, 0x54, 0x45, 0x58, 0x54, 0xa0, 0x91, 0x91, 0x91, 0xc1, 0xc0]

theorem exists_decode_reservedInside : ∃ m, decode reservedInside = .ok (.message m) :=
  exists_decode_of_isOk (by decide +kernel)

theorem not_reservedFree_reservedInside : ¬ReservedFree reservedInside := by
  intro hfree
  let fields : List Value := [.string [0x75], .string [0x6d], .integer (.ofInt 1),
    .integer (.ofInt 2), .boolean false, .nil, .nil, .nil, .nil, .integer (.ofInt 8)]
  let table : List Value := [.string [0x74],
    .array [.array [.string [0x61], .string [0x54, 0x45, 0x58, 0x54], .string []]]]
  have hfields : Spells False fields (Value.encodeItems fields) :=
    MessagePack.spells_encodeItems fields (by decide) (by decide)
  have htable : Spells False table (Value.encodeItems table) :=
    MessagePack.spells_encodeItems table (by decide) (by decide)
  have hdue := ((Due.start.array 11 (by decide)).spells (n := 1) hfields).array 4 (by decide)
  have hrecords := (hdue.spells (n := 2) htable).array 1 (by decide)
  exact hfree _ [0xc0] 1 rfl ((hrecords.array 1 (by decide)).array 1 (by decide))

/-- Bytes are accepted that hold the reserved byte where a value begins. -/
theorem reserved_accepted_inside :
    (∃ m, decode reservedInside = .ok (.message m)) ∧ ¬ReservedFree reservedInside :=
  ⟨exists_decode_reservedInside, not_reservedFree_reservedInside⟩

theorem reserved_only_inside_array : ∃ m, decode reservedInside = .ok (.message m)
    ∧ ∃ tree places pieces, (message m).Stands tree places ∧ reservedInside = List.flatten pieces
      ∧ List.Forall₂ (fun place piece => place.Opens piece
        ∧ (piece.head? = some 0xc1 → place.inside = true ∧ place.value = .nil)) places pieces
      ∧ ∃ piece ∈ pieces, piece.head? = some 0xc1 := by
  obtain ⟨m, hm⟩ := exists_decode_reservedInside
  obtain ⟨tree, places, pieces, hstands, _, hbytes, hall, hfree⟩ := reserved_only_inside hm
  refine ⟨m, hm, tree, places, pieces, hstands, hbytes, hall, ?_⟩
  by_contra hnone
  exact not_reservedFree_reservedInside (hfree.2 fun piece hpiece hhead =>
    hnone ⟨piece, hpiece, hhead⟩)

end Inbound

end DataGateway

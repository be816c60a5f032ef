import DataGateway.MessagePack.Value
import DataGateway.Proofs.MessagePack.Head

/-!
# Spellings

A byte string spells a list of values if it is made of their bytes in order, each in any form that
MessagePack allows. The list is what makes the grammar one induction: the elements of an array and
the keys and values of a map are lists of values again, and so are the fields of a record. `Spells`
is that grammar. Its parameter says whether the reserved byte may stand for nil, as it does inside
dynamic values; without it a spelling is well-formed MessagePack.

What a spelling can say about a value is its sizes, which fit four bytes; what it cannot say is how
deep a value nests, and that is the only thing a reader adds.
-/

namespace DataGateway.MessagePack

namespace Value

/-- Keys and values in the order in which they are written. -/
def flat (entries : List (Value × Value)) : List Value := entries.flatMap fun e => [e.1, e.2]

@[simp] theorem flat_nil : flat [] = [] := rfl

@[simp] theorem flat_cons (e : Value × Value) (entries : List (Value × Value)) :
    flat (e :: entries) = e.1 :: e.2 :: flat entries := rfl

theorem length_flat (entries : List (Value × Value)) :
    (flat entries).length = 2 * entries.length := by
  induction entries with
  | nil => rfl
  | cons e entries ih =>
      rw [flat_cons, List.length_cons, List.length_cons, List.length_cons, ih]
      omega

/-- The values directly inside a value. -/
def children : Value → List Value
  | .array items => items
  | .map entries => flat entries
  | _ => []

/-- The family of a value. -/
def family : Value → Family
  | .nil => .nil
  | .boolean _ => .boolean
  | .integer _ => .integer
  | .float32 _ | .float64 _ => .float
  | .string _ => .string
  | .binary _ => .binary
  | .array _ => .array
  | .map _ => .map
  | .extension _ _ => .extension

mutual

/-- How many units of a reader's depth budget a value takes. -/
def depth : Value → Nat
  | .string _ | .extension _ _ => 3
  | .binary _ => 2
  | .array items => depthItems items + 2
  | .map entries => depthEntries entries + 2
  | _ => 1

/-- The most that one of the values takes. -/
def depthItems : List Value → Nat
  | [] => 0
  | v :: vs => max (depth v) (depthItems vs)

def depthEntries : List (Value × Value) → Nat
  | [] => 0
  | (k, v) :: es => max (depth k) (max (depth v) (depthEntries es))

end

mutual

/-- A value and all values inside it. -/
def parts : Value → List Value
  | .array items => .array items :: partsItems items
  | .map entries => .map entries :: partsEntries entries
  | v => [v]

def partsItems : List Value → List Value
  | [] => []
  | v :: vs => parts v ++ partsItems vs

def partsEntries : List (Value × Value) → List Value
  | [] => []
  | (k, v) :: es => parts k ++ (parts v ++ partsEntries es)

end

/-- The number that a value's head announces, if it is a length. -/
def extent : Value → Nat
  | .string octets => octets.length
  | .binary bytes => bytes.length
  | .array items => items.length
  | .map entries => entries.length
  | .extension _ body => body.length
  | _ => 0

/-- Every length in a value fits the widest head. -/
def Sized (v : Value) : Prop := ∀ w ∈ v.parts, w.extent < 2 ^ 32

/-- Every string in a value is UTF-8. -/
def Textual (v : Value) : Prop := ∀ octets, .string octets ∈ v.parts → Text.isText octets

instance (v : Value) : Decidable v.Sized :=
  inferInstanceAs (Decidable (∀ w ∈ v.parts, w.extent < 2 ^ 32))

/-- Whether a value, if it is a string, is UTF-8. -/
def isText : Value → Bool
  | .string octets => Text.isText octets
  | _ => true

theorem textual_iff {v : Value} : v.Textual ↔ ∀ w ∈ v.parts, w.isText := by
  constructor
  · intro h w hw
    cases w with
    | string octets => exact h octets hw
    | _ => rfl
  · intro h octets hoctets
    exact h _ hoctets

instance (v : Value) : Decidable v.Textual := decidable_of_iff _ textual_iff.symm

theorem depthEntries_eq (entries : List (Value × Value)) :
    depthEntries entries = depthItems (flat entries) := by
  induction entries with
  | nil => simp [depthEntries, depthItems]
  | cons e entries ih => simp [depthEntries, depthItems, ih]

theorem partsEntries_eq (entries : List (Value × Value)) :
    partsEntries entries = partsItems (flat entries) := by
  induction entries with
  | nil => simp [partsEntries, partsItems]
  | cons e entries ih => simp [partsEntries, partsItems, ih]

theorem partsItems_append (vs ws : List Value) :
    partsItems (vs ++ ws) = partsItems vs ++ partsItems ws := by
  induction vs with
  | nil => simp [partsItems]
  | cons v vs ih => simp [partsItems, ih]

theorem encodeEntries_eq (entries : List (Value × Value)) :
    encodeEntries entries = encodeItems (flat entries) := by
  induction entries with
  | nil => simp [encodeEntries, encodeItems]
  | cons e entries ih => simp [encodeEntries, encodeItems, ih]

theorem depthItems_le_iff {vs : List Value} {d : Nat} :
    depthItems vs ≤ d ↔ ∀ v ∈ vs, v.depth ≤ d := by
  induction vs with
  | nil => simp [depthItems]
  | cons v vs ih => rw [depthItems, Nat.max_le, ih, List.forall_mem_cons]

theorem mem_partsItems {vs : List Value} {w : Value} :
    w ∈ partsItems vs ↔ ∃ v ∈ vs, w ∈ v.parts := by
  induction vs with
  | nil => simp [partsItems]
  | cons v vs ih => simp [partsItems, ih]

theorem parts_eq (v : Value) : v.parts = v :: partsItems v.children := by
  cases v <;> simp [parts, children, partsItems, partsEntries_eq]

theorem self_mem_parts (v : Value) : v ∈ v.parts := by
  rw [parts_eq]
  exact List.mem_cons_self

theorem sizeOf_flat (entries : List (Value × Value)) : sizeOf (flat entries) = sizeOf entries := by
  induction entries with
  | nil => rfl
  | cons e entries ih =>
      obtain ⟨k, v⟩ := e
      simp only [flat_cons, List.cons.sizeOf_spec, Prod.mk.sizeOf_spec, ih]
      omega

theorem sizeOf_children (v : Value) : sizeOf v.children ≤ sizeOf v := by
  cases v with
  | array items => simp [children]
  | map entries => simp [children, sizeOf_flat]
  | extension type body =>
      simp only [children, List.nil.sizeOf_spec, extension.sizeOf_spec]
      omega
  | _ => simp [children]

/-- Induction over a forest: what passes to a list from the children of its first value and from the
values after it holds of every list. -/
theorem forest_induction {motive : List Value → Prop} (nil : motive [])
    (cons : ∀ v vs, motive v.children → motive vs → motive (v :: vs)) : ∀ vs, motive vs
  | [] => nil
  | v :: vs => cons v vs (forest_induction nil cons v.children) (forest_induction nil cons vs)
termination_by vs => sizeOf vs
decreasing_by
  · have := sizeOf_children v
    simp only [List.cons.sizeOf_spec]
    omega
  · simp only [List.cons.sizeOf_spec]
    omega

private theorem mem_partsItems_trans {u w : Value} (hu : u ∈ w.parts) (vs : List Value)
    (hw : w ∈ partsItems vs) : u ∈ partsItems vs := by
  induction vs using forest_induction with
  | nil => cases hw
  | cons v vs inside rest =>
      rw [partsItems, parts_eq, List.cons_append, List.mem_cons, List.mem_append] at hw ⊢
      rcases hw with rfl | hw | hw
      · rw [parts_eq, List.mem_cons] at hu
        exact hu.imp_right .inl
      · exact .inr (.inl (inside hw))
      · exact .inr (.inr (rest hw))

theorem mem_parts_trans {u v w : Value} (hu : u ∈ w.parts) (hw : w ∈ v.parts) : u ∈ v.parts := by
  rw [parts_eq, List.mem_cons] at hw ⊢
  rcases hw with rfl | hw
  · rwa [parts_eq, List.mem_cons] at hu
  · exact .inr (mem_partsItems_trans hu _ hw)

theorem Sized.of_mem_parts {v w : Value} (h : v.Sized) (hw : w ∈ v.parts) : w.Sized :=
  fun u hu => h u (mem_parts_trans hu hw)

theorem Textual.of_mem_parts {v w : Value} (h : v.Textual) (hw : w ∈ v.parts) : w.Textual :=
  fun octets hoctets => h octets (mem_parts_trans hoctets hw)

theorem mem_parts_of_mem_children {v w : Value} (hw : w ∈ v.children) : w ∈ v.parts := by
  rw [parts_eq, List.mem_cons, mem_partsItems]
  exact .inr ⟨w, hw, self_mem_parts w⟩

theorem Sized.of_mem_children {v w : Value} (h : v.Sized) (hw : w ∈ v.children) : w.Sized :=
  h.of_mem_parts (mem_parts_of_mem_children hw)

theorem Textual.of_mem_children {v w : Value} (h : v.Textual) (hw : w ∈ v.children) : w.Textual :=
  h.of_mem_parts (mem_parts_of_mem_children hw)

theorem depthItems_children_le (v : Value) : depthItems v.children ≤ v.depth := by
  cases v <;> simp [children, depth, depthItems, depthEntries_eq]

theorem depth_le_children (v : Value) : v.depth ≤ depthItems v.children + 3 := by
  cases v <;> simp [children, depth, depthItems, depthEntries_eq]

private theorem depth_le_of_mem_partsItems (vs : List Value) :
    ∀ w ∈ partsItems vs, w.depth ≤ depthItems vs := by
  induction vs using forest_induction with
  | nil => simp [partsItems]
  | cons v vs inside rest =>
      intro w hw
      have hchildren := depthItems_children_le v
      rw [partsItems, parts_eq, List.cons_append, List.mem_cons, List.mem_append] at hw
      rw [depthItems]
      rcases hw with rfl | hw | hw
      · exact Nat.le_max_left ..
      · have := inside w hw
        omega
      · have := rest w hw
        omega

theorem depth_le_of_mem_parts {v w : Value} (hw : w ∈ v.parts) : w.depth ≤ v.depth := by
  rw [parts_eq, List.mem_cons] at hw
  rcases hw with rfl | hw
  · exact Nat.le_refl _
  · exact Nat.le_trans (depth_le_of_mem_partsItems _ w hw) (depthItems_children_le v)

end Value

open Value

/-! ### The grammar -/

/-- The bytes of a value up to the values inside it. -/
inductive Opening (reserved : Prop) : Value → Bytes → Prop
  | nil : Opening reserved .nil [0xc0]
  | reserved (h : reserved) : Opening reserved .nil [0xc1]
  | boolean {n : Int} {head : Bytes} (h : Head .boolean n head) :
    Opening reserved (.boolean (n != 0)) head
  | integer {n : Integer} {head : Bytes} (h : Head .integer n.val head) :
    Opening reserved (.integer n) head
  | float32 {bits : Bytes} (h : bits.length = 4) :
    Opening reserved (.float32 (UInt32.ofNat (ofBigEndian bits))) (0xca :: bits)
  | float64 {bits : Bytes} (h : bits.length = 8) :
    Opening reserved (.float64 (UInt64.ofNat (ofBigEndian bits))) (0xcb :: bits)
  | string {octets head : Bytes} (h : Head .string octets.length head) :
    Opening reserved (.string octets) (head ++ octets)
  | binary {bytes head : Bytes} (h : Head .binary bytes.length head) :
    Opening reserved (.binary bytes) (head ++ bytes)
  | array {items : List Value} {head : Bytes} (h : Head .array items.length head) :
    Opening reserved (.array items) head
  | map {entries : List (Value × Value)} {head : Bytes} (h : Head .map entries.length head) :
    Opening reserved (.map entries) head
  | extension {type : Int8} {body head : Bytes} (h : Head .extension body.length head) :
    Opening reserved (.extension type body) (head ++ type.toUInt8 :: body)

/-- Bytes spell a list of values, one after the other and each in any form. -/
inductive Spells (reserved : Prop) : List Value → Bytes → Prop
  | nil : Spells reserved [] []
  | cons {v : Value} {vs : List Value} {front body back : Bytes}
    (opening : Opening reserved v front) (inside : Spells reserved v.children body)
    (rest : Spells reserved vs back) :
    Spells reserved (v :: vs) (front ++ (body ++ back))

variable {reserved : Prop}

private theorem Head.begins {family : Family} {n : Int} {head : Bytes} (h : Head family n head)
    (back : Bytes) :
    ∃ b marker r, head ++ back = b :: r ∧ Marker.ofByte b = some marker
      ∧ marker.family = family := by
  obtain ⟨b, marker, operand, hb, hfamily, _, _, rfl⟩ := h
  exact ⟨b, marker, operand ++ back, rfl, hb, hfamily⟩

/-- A well-formed value begins with a marker of its family. -/
theorem Opening.begins {v : Value} {front : Bytes} (h : Opening False v front) (back : Bytes) :
    ∃ b marker r, front ++ back = b :: r ∧ Marker.ofByte b = some marker
      ∧ marker.family = v.family := by
  cases h with
  | nil => exact nil_head.begins back
  | reserved h => exact h.elim
  | boolean h | integer h | array h | map h => exact h.begins back
  | float32 | float64 => exact ⟨_, _, _, rfl, rfl, rfl⟩
  | string h | binary h | extension h =>
      rw [List.append_assoc]
      exact h.begins _

/-- The reserved byte is all that sets an opening apart from a well-formed one. -/
theorem Opening.wellFormed_or {v : Value} {front : Bytes} (h : Opening reserved v front) :
    Opening False v front ∨ reserved ∧ v = .nil ∧ front = [0xc1] := by
  cases h with
  | reserved h => exact .inr ⟨h, rfl, rfl⟩
  | nil => exact .inl .nil
  | boolean h => exact .inl (.boolean h)
  | integer h => exact .inl (.integer h)
  | float32 h => exact .inl (.float32 h)
  | float64 h => exact .inl (.float64 h)
  | string h => exact .inl (.string h)
  | binary h => exact .inl (.binary h)
  | array h => exact .inl (.array h)
  | map h => exact .inl (.map h)
  | extension h => exact .inl (.extension h)

theorem Opening.length_pos {v : Value} {front : Bytes} (h : Opening reserved v front) :
    0 < front.length := by
  rcases h.wellFormed_or with h | ⟨_, _, rfl⟩
  · obtain ⟨b, marker, r, hfront, _⟩ := h.begins []
    rw [List.append_nil] at hfront
    simp [hfront]
  · exact Nat.one_pos

theorem Opening.extent_lt {v : Value} {front : Bytes} (h : Opening reserved v front) :
    v.extent < 2 ^ 32 := by
  cases h with
  | string h | binary h | array h | map h | extension h =>
      have := (h.length_lt rfl).2
      simp only [extent]
      omega
  | _ => simp [extent]

namespace Spells

theorem append {vs ws : List Value} {a b : Bytes} (ha : Spells reserved vs a)
    (hb : Spells reserved ws b) : Spells reserved (vs ++ ws) (a ++ b) := by
  induction ha with
  | nil => exact hb
  | cons opening inside _ _ rest =>
      simpa only [List.cons_append, List.append_assoc] using Spells.cons opening inside rest

theorem one {v : Value} {front body : Bytes} (opening : Opening reserved v front)
    (inside : Spells reserved v.children body) : Spells reserved [v] (front ++ body) := by
  simpa using Spells.cons opening inside .nil

/-- A value without values inside it is spelled by its opening. -/
theorem leaf {v : Value} {front : Bytes} (opening : Opening reserved v front)
    (hchildren : v.children = []) : Spells reserved [v] front := by
  have hinside : Spells reserved v.children [] := by
    rw [hchildren]
    exact .nil
  have hspells := one opening hinside
  rwa [List.append_nil] at hspells

theorem nil_iff {bytes : Bytes} : Spells reserved [] bytes ↔ bytes = [] := by
  constructor
  · rintro ⟨⟩
    rfl
  · rintro rfl
    exact .nil

theorem cons_iff {v : Value} {vs : List Value} {bytes : Bytes} :
    Spells reserved (v :: vs) bytes ↔ ∃ front back, bytes = front ++ back
      ∧ Spells reserved [v] front ∧ Spells reserved vs back := by
  constructor
  · rintro (_ | ⟨opening, inside, rest⟩)
    exact ⟨_, _, (List.append_assoc ..).symm, one opening inside, rest⟩
  · rintro ⟨front, back, rfl, hv, hvs⟩
    exact hv.append hvs

theorem append_iff {vs ws : List Value} {bytes : Bytes} :
    Spells reserved (vs ++ ws) bytes ↔ ∃ front back, bytes = front ++ back
      ∧ Spells reserved vs front ∧ Spells reserved ws back := by
  constructor
  · intro h
    induction vs generalizing bytes with
    | nil => exact ⟨[], bytes, rfl, .nil, h⟩
    | cons v vs ih =>
        obtain ⟨a, _, rfl, hv, h⟩ := cons_iff.1 h
        obtain ⟨b, c, rfl, hvs, hws⟩ := ih h
        exact ⟨a ++ b, c, (List.append_assoc ..).symm, hv.append hvs, hws⟩
  · rintro ⟨front, back, rfl, hvs, hws⟩
    exact hvs.append hws

/-- A value cannot nest deeper than it has bytes. -/
theorem depth_le {vs : List Value} {bytes : Bytes} (h : Spells reserved vs bytes) :
    depthItems vs ≤ 3 * bytes.length := by
  induction h with
  | nil => simp [depthItems]
  | @cons v vs front body back opening _ _ inside rest =>
      have hchildren := depth_le_children v
      have hpos := opening.length_pos
      rw [depthItems, List.length_append, List.length_append]
      omega

/-- An array is spelled by a head and its elements. -/
theorem array_iff {items : List Value} {bytes : Bytes} :
    Spells reserved [.array items] bytes ↔ ∃ head body, Head .array items.length head
      ∧ Spells reserved items body ∧ bytes = head ++ body := by
  constructor
  · rintro (_ | ⟨opening, inside, rest⟩)
    cases opening with
    | array hhead => exact ⟨_, _, hhead, inside, by rw [nil_iff.1 rest, List.append_nil]⟩
  · rintro ⟨head, body, hhead, hbody, rfl⟩
    exact one (.array hhead) hbody

theorem begins {v : Value} {bytes : Bytes} (h : Spells False [v] bytes) :
    ∃ b marker r, bytes = b :: r ∧ Marker.ofByte b = some marker ∧ marker.family = v.family := by
  rcases h with _ | ⟨opening, _, _⟩
  exact opening.begins _

/-- Nil has one spelling. -/
theorem eq_of_nil {bytes : Bytes} (h : Spells False [.nil] bytes) : bytes = [0xc0] := by
  rcases h with _ | ⟨opening, inside, rest⟩
  rw [Spells.nil_iff.1 inside, Spells.nil_iff.1 rest, List.append_nil, List.append_nil]
  cases opening with
  | nil => rfl
  | reserved h => exact h.elim

/-- A marker in front says of which family the value is. -/
theorem family_eq {v : Value} {front back r : Bytes} {b : UInt8} {marker : Marker}
    (h : Spells reserved [v] front) (hbytes : front ++ back = b :: r)
    (hb : Marker.ofByte b = some marker) : v.family = marker.family := by
  rcases h with _ | ⟨opening, inside, rest⟩
  rcases opening.wellFormed_or with opening | ⟨_, rfl, rfl⟩
  · rw [List.append_assoc] at hbytes
    obtain ⟨b', marker', r', hfront, hb', hfamily⟩ := opening.begins (_ ++ back)
    obtain ⟨rfl, rfl⟩ := List.cons.inj (hfront.symm.trans hbytes)
    obtain rfl : marker' = marker := Option.some.inj (hb'.symm.trans hb)
    exact hfamily.symm
  · obtain ⟨rfl, _⟩ := List.cons.inj hbytes
    rw [(Marker.ofByte_eq_none_iff _).2 rfl] at hb
    cases hb

/-- Whatever is spelled has lengths that heads can announce. -/
theorem sized {vs : List Value} {bytes : Bytes} (h : Spells reserved vs bytes) :
    ∀ v ∈ vs, v.Sized := by
  induction h with
  | nil => simp
  | @cons v vs _ _ _ opening _ _ inside rest =>
      have hv : v.Sized := by
        intro w hw
        rw [parts_eq, List.mem_cons, mem_partsItems] at hw
        rcases hw with rfl | ⟨u, hu, hw⟩
        · exact opening.extent_lt
        · exact inside u hu w hw
      exact List.forall_mem_cons.2 ⟨hv, rest⟩

end Spells

/-! ### Values in shortest form -/

private theorem opening_float32 (bits : UInt32) :
    Opening reserved (.float32 bits) (0xca :: bigEndian 4 bits.toNat) := by
  have hbits : bits.toNat < Nat.pow 256 4 := bits.toNat_lt
  have hback : UInt32.ofNat (ofBigEndian (bigEndian 4 bits.toNat)) = bits := by
    rw [ofBigEndian_bigEndian, Nat.mod_eq_of_lt hbits, UInt32.ofNat_toNat]
  have hopening : Opening reserved _ _ := .float32 (length_bigEndian 4 bits.toNat)
  rwa [hback] at hopening

private theorem opening_float64 (bits : UInt64) :
    Opening reserved (.float64 bits) (0xcb :: bigEndian 8 bits.toNat) := by
  have hbits : bits.toNat < Nat.pow 256 8 := bits.toNat_lt
  have hback : UInt64.ofNat (ofBigEndian (bigEndian 8 bits.toNat)) = bits := by
    rw [ofBigEndian_bigEndian, Nat.mod_eq_of_lt hbits, UInt64.ofNat_toNat]
  have hopening : Opening reserved _ _ := .float64 (length_bigEndian 8 bits.toNat)
  rwa [hback] at hopening

/-- The encoder writes an opening of the value and then its children. -/
theorem encode_eq {v : Value} (htext : v.Textual) (hsize : v.extent < 2 ^ 32) :
    ∃ front, Opening reserved v front ∧ v.encode = front ++ encodeItems v.children := by
  have hannounced : announced v.extent = v.extent := Nat.mod_eq_of_lt hsize
  cases v with
  | nil => exact ⟨_, .nil, rfl⟩
  | boolean b =>
      have hb : ((if b then 1 else 0 : Int) != 0) = b := by cases b <;> rfl
      have hopening : Opening reserved _ _ := .boolean (boolean_head b)
      rw [hb] at hopening
      exact ⟨_, hopening, (List.append_nil _).symm⟩
  | integer n => exact ⟨_, .integer (integer_head n.lower n.upper), (List.append_nil _).symm⟩
  | float32 bits => exact ⟨_, opening_float32 bits, (List.append_nil _).symm⟩
  | float64 bits => exact ⟨_, opening_float64 bits, (List.append_nil _).symm⟩
  | string octets =>
      have hoctets : Text.isText octets := htext octets (self_mem_parts _)
      simp only [extent] at hannounced
      refine ⟨_, .string (stringHead_head hsize), ?_⟩
      simp [encode, hoctets, children, encodeItems, hannounced]
  | binary bytes =>
      simp only [extent] at hannounced
      refine ⟨_, .binary (binaryHead_head hsize), ?_⟩
      simp [encode, children, encodeItems, hannounced]
  | array items =>
      simp only [extent] at hannounced
      refine ⟨_, .array (arrayHead_head hsize), ?_⟩
      simp [encode, children, hannounced]
  | map entries =>
      simp only [extent] at hannounced
      refine ⟨_, .map (mapHead_head hsize), ?_⟩
      simp [encode, children, encodeEntries_eq, hannounced]
  | extension type body =>
      simp only [extent] at hannounced
      refine ⟨_, .extension (extensionHead_head hsize), ?_⟩
      simp [encode, children, encodeItems, hannounced]

theorem spells_encodeItems (vs : List Value) (htext : ∀ v ∈ vs, v.Textual)
    (hsized : ∀ v ∈ vs, v.Sized) : Spells reserved vs (encodeItems vs) := by
  induction vs using forest_induction with
  | nil => exact .nil
  | cons v vs inside rest =>
      obtain ⟨hv, hvs⟩ := List.forall_mem_cons.1 htext
      obtain ⟨hvsized, hvssized⟩ := List.forall_mem_cons.1 hsized
      obtain ⟨front, hopening, hencode⟩ : ∃ front, Opening reserved v front
          ∧ v.encode = front ++ encodeItems v.children :=
        encode_eq hv (hvsized v (self_mem_parts v))
      rw [encodeItems, hencode, List.append_assoc]
      exact .cons hopening
        (inside (fun _ hw => hv.of_mem_children hw) fun _ hw => hvsized.of_mem_children hw)
        (rest hvs hvssized)

/-- A value that a head can announce and that holds no string but texts is spelled by its shortest
form. -/
theorem spells_encode {v : Value} (htext : v.Textual) (hsized : v.Sized) :
    Spells reserved [v] v.encode := by
  have hspells : Spells reserved [v] (encodeItems [v]) :=
    spells_encodeItems [v] (by simpa) (by simpa)
  simpa [encodeItems] using hspells

end DataGateway.MessagePack

import DataGateway.Proofs.MessagePack.Spelling

/-!
# Normal forms

A string that is no text cannot be written as a string, so the encoder writes it as a binary.
`Value.normal` is what the encoder makes of a value: every such string replaced by the binary of the
same bytes, and all else as it was. A value and its normal form are written alike, and the normal
form is a value that keeps its form when it is read again.
-/

namespace DataGateway.MessagePack.Value

mutual

/-- A value with every string that is no text replaced by the binary of the same bytes. -/
def normal : Value → Value
  | .string octets => if Text.isText octets then .string octets else .binary octets
  | .array items => .array (normalItems items)
  | .map entries => .map (normalEntries entries)
  | v => v

def normalItems : List Value → List Value
  | [] => []
  | v :: vs => normal v :: normalItems vs

def normalEntries : List (Value × Value) → List (Value × Value)
  | [] => []
  | (k, v) :: es => (normal k, normal v) :: normalEntries es

end

theorem normalItems_eq (items : List Value) : normalItems items = items.map normal := by
  induction items with
  | nil => rfl
  | cons v vs ih => simp [normalItems, ih]

theorem normalEntries_eq (entries : List (Value × Value)) :
    normalEntries entries = entries.map fun e => (e.1.normal, e.2.normal) := by
  induction entries with
  | nil => rfl
  | cons e entries ih => simp [normalEntries, ih]

theorem flat_normalEntries (entries : List (Value × Value)) :
    flat (normalEntries entries) = (flat entries).map normal := by
  induction entries with
  | nil => rfl
  | cons e entries ih => simp [normalEntries, ih]

theorem normalEntries_of_flat {entries : List (Value × Value)}
    (h : normalItems (flat entries) = flat entries) : normalEntries entries = entries := by
  induction entries with
  | nil => rfl
  | cons e entries ih =>
      obtain ⟨key, value⟩ := e
      simp only [flat_cons, normalItems, List.cons.injEq] at h
      rw [normalEntries, h.1, h.2.1, ih h.2.2]

theorem children_normal (v : Value) : v.normal.children = v.children.map normal := by
  cases v with
  | string octets =>
      simp only [normal]
      split <;> rfl
  | array items => simp [normal, children, normalItems_eq]
  | map entries => simp [normal, children, flat_normalEntries]
  | _ => rfl

theorem extent_normal (v : Value) : v.normal.extent = v.extent := by
  cases v with
  | string octets =>
      simp only [normal]
      split <;> rfl
  | array items => simp [normal, extent, normalItems_eq]
  | map entries => simp [normal, extent, normalEntries_eq]
  | _ => rfl

private theorem encodeItems_normal (vs : List Value) :
    encodeItems (vs.map normal) = encodeItems vs := by
  induction vs using forest_induction with
  | nil => rfl
  | cons v vs inside rest =>
      have hv : v.normal.encode = v.encode := by
        cases v with
        | string octets =>
            by_cases hoctets : Text.isText octets <;> simp [normal, encode, hoctets]
        | array items =>
            simpa [normal, encode, normalItems_eq, children] using inside
        | map entries =>
            have hlength := extent_normal (.map entries)
            simp only [normal, extent] at hlength
            simpa [normal, encode, encodeEntries_eq, flat_normalEntries, hlength, children]
              using inside
        | _ => rfl
      rw [List.map_cons, encodeItems, encodeItems, hv, rest]

/-- A value and its normal form are written alike. -/
theorem encode_normal (v : Value) : v.normal.encode = v.encode := by
  simpa [encodeItems] using encodeItems_normal [v]

private theorem textual_normalItems (vs : List Value) : ∀ v ∈ vs, v.normal.Textual := by
  induction vs using forest_induction with
  | nil => simp
  | cons v vs inside rest =>
      refine List.forall_mem_cons.2 ⟨?_, rest⟩
      intro octets hoctets
      rw [parts_eq, children_normal, List.mem_cons, mem_partsItems] at hoctets
      rcases hoctets with hself | ⟨w, hw, hoctets⟩
      · cases v with
        | string o =>
            simp only [normal] at hself
            split at hself
            · cases hself
              assumption
            · cases hself
        | _ => simp [normal] at hself
      · obtain ⟨u, hu, rfl⟩ := List.mem_map.1 hw
        exact inside u hu octets hoctets

theorem textual_normal (v : Value) : v.normal.Textual := textual_normalItems [v] v (by simp)

private theorem normalItems_of_textual (vs : List Value) (h : ∀ v ∈ vs, v.Textual) :
    normalItems vs = vs := by
  induction vs using forest_induction with
  | nil => rfl
  | cons v vs inside rest =>
      obtain ⟨hv, hvs⟩ := List.forall_mem_cons.1 h
      have hinside := inside fun w hw => hv.of_mem_children hw
      have hself : v.normal = v := by
        cases v with
        | string octets => exact if_pos (hv octets (self_mem_parts _))
        | array items => exact congrArg Value.array hinside
        | map entries => exact congrArg Value.map (normalEntries_of_flat hinside)
        | _ => rfl
      rw [normalItems, hself, rest hvs]

/-- Only a string that is no text keeps a value from being its own normal form. -/
theorem normal_eq_self_iff {v : Value} : v.normal = v ↔ v.Textual := by
  constructor
  · intro h
    rw [← h]
    exact textual_normal v
  · intro h
    exact (List.cons.inj (normalItems_of_textual [v] (by simpa))).1

private theorem sized_normalItems (vs : List Value) (h : ∀ v ∈ vs, v.Sized) :
    ∀ v ∈ vs, v.normal.Sized := by
  induction vs using forest_induction with
  | nil => simp
  | cons v vs inside rest =>
      obtain ⟨hv, hvs⟩ := List.forall_mem_cons.1 h
      refine List.forall_mem_cons.2 ⟨?_, rest hvs⟩
      intro w hw
      rw [parts_eq, children_normal, List.mem_cons, mem_partsItems] at hw
      rcases hw with rfl | ⟨u, hu, hw⟩
      · rw [extent_normal]
        exact hv v (self_mem_parts v)
      · obtain ⟨c, hc, rfl⟩ := List.mem_map.1 hu
        exact inside (fun _ hx => hv.of_mem_children hx) c hc w hw

theorem sized_normal {v : Value} (h : v.Sized) : v.normal.Sized :=
  sized_normalItems [v] (by simpa) v (by simp)

private theorem depthItems_normal_le (vs : List Value) :
    depthItems (vs.map normal) ≤ depthItems vs := by
  induction vs using forest_induction with
  | nil => simp
  | cons v vs inside rest =>
      have hv : v.normal.depth ≤ v.depth := by
        cases v with
        | string octets =>
            simp only [normal]
            split <;> simp [depth]
        | array items =>
            simpa [normal, depth, normalItems_eq, children] using inside
        | map entries =>
            simpa [normal, depth, depthEntries_eq, flat_normalEntries, children] using inside
        | _ => exact Nat.le_refl _
      simp only [List.map_cons, depthItems]
      omega

/-- A binary takes less of the depth budget than a string. -/
theorem depth_normal_le (v : Value) : v.normal.depth ≤ v.depth := by
  simpa [depthItems] using depthItems_normal_le [v]

end DataGateway.MessagePack.Value

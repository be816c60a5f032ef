/-!
# Dictionaries

A dictionary keeps its entries in strictly increasing key order, so each key has one entry and equal
dictionaries have equal entries. Inserting under a key that is present replaces its value, and a
dictionary made from a list of pairs keeps the last value of a repeated key.
-/

namespace DataGateway

/-- Entries in strictly increasing key order. -/
structure Dict (κ α : Type) [Ord κ] where
  entries : List (κ × α)
  ordered : entries.Pairwise fun a b => compare a.1 b.1 = .lt

namespace Dict

variable {κ α : Type} [Ord κ]

/-- The entries of a dictionary with the value under one key set. -/
def insertEntry (k : κ) (v : α) : List (κ × α) → List (κ × α)
  | [] => [(k, v)]
  | (l, w) :: es =>
    match compare k l with
    | .lt => (k, v) :: (l, w) :: es
    | .eq => (k, v) :: es
    | .gt => (l, w) :: insertEntry k v es

private theorem key_of_mem_insertEntry {k : κ} {v : α} {e : κ × α} {es : List (κ × α)}
    (h : e ∈ insertEntry k v es) : e.1 = k ∨ e ∈ es := by
  induction es with
  | nil => simp_all [insertEntry]
  | cons f es ih =>
      simp only [insertEntry] at h
      split at h
      · rcases List.mem_cons.1 h with rfl | h
        · exact .inl rfl
        · exact .inr h
      · rcases List.mem_cons.1 h with rfl | h
        · exact .inl rfl
        · exact .inr (List.mem_cons_of_mem _ h)
      · rcases List.mem_cons.1 h with rfl | h
        · exact .inr List.mem_cons_self
        · exact (ih h).imp id (List.mem_cons_of_mem _)

private theorem ordered_insertEntry [Std.TransOrd κ] (k : κ) (v : α) {es : List (κ × α)}
    (h : es.Pairwise fun a b => compare a.1 b.1 = .lt) :
    (insertEntry k v es).Pairwise fun a b => compare a.1 b.1 = .lt := by
  induction es with
  | nil => simp [insertEntry]
  | cons f es ih =>
      obtain ⟨below, h⟩ := List.pairwise_cons.1 h
      simp only [insertEntry]
      split
      · rename_i hk
        refine List.pairwise_cons.2 ⟨fun e he => ?_, List.pairwise_cons.2 ⟨below, h⟩⟩
        rcases List.mem_cons.1 he with rfl | he
        · exact hk
        · exact Std.TransCmp.lt_trans hk (below e he)
      · rename_i hk
        exact List.pairwise_cons.2 ⟨fun e he => Std.TransCmp.lt_of_eq_of_lt hk (below e he), h⟩
      · rename_i hk
        refine List.pairwise_cons.2 ⟨fun e he => ?_, ih h⟩
        rcases key_of_mem_insertEntry he with hkey | he
        · rw [hkey]
          exact Std.OrientedCmp.lt_of_gt hk
        · exact below e he

/-- No entries. -/
def empty : Dict κ α := ⟨[], .nil⟩

/-- Sets the value under a key. -/
def insert [Std.TransOrd κ] (d : Dict κ α) (k : κ) (v : α) : Dict κ α :=
  ⟨insertEntry k v d.entries, ordered_insertEntry k v d.ordered⟩

/-- The dictionary of a list of pairs, where the last pair with a key counts. -/
def ofList [Std.TransOrd κ] (pairs : List (κ × α)) : Dict κ α :=
  pairs.foldl (fun d p => d.insert p.1 p.2) empty

/-- The keys, in order. -/
def keys (d : Dict κ α) : List κ := d.entries.map (·.1)

/-- How many entries there are. -/
def size (d : Dict κ α) : Nat := d.entries.length

/-- The value under a key. -/
def get? (d : Dict κ α) (k : κ) : Option α :=
  (d.entries.find? fun e => compare e.1 k == .eq).map (·.2)

/-- The entries but the one under a key. -/
def erase (d : Dict κ α) (k : κ) : Dict κ α :=
  ⟨d.entries.filter fun e => compare e.1 k != .eq, d.ordered.filter _⟩

@[simp] theorem get?_empty (k : κ) : (empty : Dict κ α).get? k = none := rfl

private theorem find?_insertEntry_self [Std.TransOrd κ] (k : κ) (v : α) (es : List (κ × α)) :
    (insertEntry k v es).find? (fun e => compare e.1 k == .eq) = some (k, v) := by
  induction es with
  | nil => simp [insertEntry]
  | cons f es ih =>
      obtain ⟨l, w⟩ := f
      simp only [insertEntry]
      split
      · simp
      · simp
      · rename_i hk
        have hl : compare l k = .lt := Std.OrientedCmp.lt_of_gt hk
        simp [hl, ih]

private theorem find?_insertEntry_of_ne [Std.TransOrd κ] {k l : κ} (v : α) (ne : compare k l ≠ .eq)
    (es : List (κ × α)) :
    (insertEntry k v es).find? (fun e => compare e.1 l == .eq)
      = es.find? fun e => compare e.1 l == .eq := by
  induction es with
  | nil => simp [insertEntry, ne]
  | cons f es ih =>
      obtain ⟨m, w⟩ := f
      simp only [insertEntry]
      split
      · simp [ne]
      · rename_i hk
        have hm : compare m l ≠ .eq := fun h => ne (Std.TransCmp.eq_trans hk h)
        simp [ne, hm]
      · by_cases hm : compare m l = .eq
        · simp [hm]
        · simp [hm, ih]

@[simp] theorem get?_insert_self [Std.TransOrd κ] (d : Dict κ α) (k : κ) (v : α) :
    (d.insert k v).get? k = some v := by
  simp [get?, insert, find?_insertEntry_self]

theorem get?_insert_of_ne [Std.TransOrd κ] (d : Dict κ α) {k l : κ} (v : α)
    (ne : compare k l ≠ .eq) : (d.insert k v).get? l = d.get? l := by
  simp [get?, insert, find?_insertEntry_of_ne v ne]

@[simp] theorem get?_erase_self (d : Dict κ α) (k : κ) : (d.erase k).get? k = none := by
  simp [get?, erase, List.find?_filter]

theorem get?_erase_of_ne [Std.TransOrd κ] (d : Dict κ α) {k l : κ} (ne : compare k l ≠ .eq) :
    (d.erase k).get? l = d.get? l := by
  have same : ∀ e : κ × α, decide (compare e.1 k != .eq ∧ compare e.1 l == .eq)
      = (compare e.1 l == .eq) := by
    intro e
    by_cases h : compare e.1 l = .eq
    · have : compare e.1 k ≠ .eq := fun hk =>
        ne (Std.TransCmp.eq_trans (Std.OrientedCmp.eq_symm hk) h)
      simp [h, this]
    · simp [h]
  simp only [get?, erase, List.find?_filter, same]

@[ext] theorem ext {d e : Dict κ α} (h : d.entries = e.entries) : d = e := by
  cases d; cases e; cases h; rfl

instance [BEq κ] [BEq α] : BEq (Dict κ α) := ⟨fun d e => d.entries == e.entries⟩

instance [DecidableEq κ] [DecidableEq α] : DecidableEq (Dict κ α) := fun d e =>
  decidable_of_iff (d.entries = e.entries) ⟨ext, congrArg entries⟩

private theorem insertEntry_append [Std.TransOrd κ] (k : κ) (v : α) {es : List (κ × α)}
    (above : ∀ e ∈ es, compare e.1 k = .lt) : insertEntry k v es = es ++ [(k, v)] := by
  induction es with
  | nil => rfl
  | cons f es ih =>
      have hf : compare k f.1 = .gt :=
        Std.OrientedCmp.gt_iff_lt.2 (above f List.mem_cons_self)
      obtain ⟨l, w⟩ := f
      simp [insertEntry, hf, ih fun e he => above e (List.mem_cons_of_mem _ he)]

private theorem entries_foldl_insert [Std.TransOrd κ] (es : List (κ × α)) (d : Dict κ α)
    (h : (d.entries ++ es).Pairwise fun a b => compare a.1 b.1 = .lt) :
    (es.foldl (fun d p => d.insert p.1 p.2) d).entries = d.entries ++ es := by
  induction es generalizing d with
  | nil => simp
  | cons e es ih =>
      have here : (d.insert e.1 e.2).entries = d.entries ++ [e] :=
        insertEntry_append _ _ fun f hf => (List.pairwise_append.1 h).2.2 f hf e List.mem_cons_self
      rw [List.foldl_cons, ih _ (by simpa [here] using h), here]
      simp

/-- Collecting a dictionary's own entries gives the dictionary back. -/
theorem ofList_entries [Std.TransOrd κ] (d : Dict κ α) : ofList d.entries = d := by
  ext1
  simpa [ofList, empty] using
    entries_foldl_insert d.entries empty (by simpa [empty] using d.ordered)

end Dict

end DataGateway

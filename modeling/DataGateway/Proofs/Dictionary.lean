import DataGateway.Dict
import Mathlib.Data.List.Induction
import Mathlib.Data.List.Sort

/-!
# Dictionaries of repeated keys

Which entries a dictionary has when it was made from pairs that may repeat a key: of the pairs with
one key, the last. An entry list in key order is determined by its members, so this says all there
is to say about such a dictionary, and says it without the order in which entries were put in. The
last part counts entries.
-/

namespace DataGateway.Dict

variable {κ α : Type} [Ord κ]

/-- A pair of the list that no later pair with the same key replaces. -/
def Latest (pairs : List (κ × α)) (e : κ × α) : Prop :=
  ∃ before after, pairs = before ++ e :: after ∧ ∀ p ∈ after, compare p.1 e.1 ≠ .eq

theorem Latest.mem {pairs : List (κ × α)} {e : κ × α} (h : Latest pairs e) : e ∈ pairs := by
  obtain ⟨before, after, rfl, _⟩ := h
  simp

private theorem latest_concat_iff [Std.TransOrd κ] {pairs : List (κ × α)} {p e : κ × α} :
    Latest (pairs ++ [p]) e ↔ e = p ∨ Latest pairs e ∧ compare p.1 e.1 ≠ .eq := by
  constructor
  · rintro ⟨before, after, heq, hafter⟩
    rcases List.eq_nil_or_concat after with rfl | ⟨after, q, rfl⟩
    · left
      exact (List.append_inj_right' heq rfl |> List.cons.inj).1.symm
    · right
      have hsplit : pairs ++ [p] = (before ++ e :: after) ++ [q] := by simpa using heq
      obtain ⟨rfl, hq⟩ := List.append_inj' hsplit rfl
      obtain rfl := (List.cons.inj hq).1
      refine ⟨⟨before, after, rfl, fun r hr => hafter r ?_⟩, hafter p ?_⟩ <;> simp [*]
  · rintro (rfl | ⟨⟨before, after, rfl, hafter⟩, hp⟩)
    · exact ⟨pairs, [], rfl, by simp⟩
    · refine ⟨before, after ++ [p], by simp, fun r hr => ?_⟩
      rcases List.mem_append.1 hr with hr | hr
      · exact hafter r hr
      · rw [List.mem_singleton.1 hr]
        exact hp

private theorem mem_insertEntry_iff [Std.TransOrd κ] {k : κ} {v : α} {e : κ × α}
    {es : List (κ × α)} (hes : es.Pairwise fun a b => compare a.1 b.1 = .lt) :
    e ∈ insertEntry k v es ↔ e = (k, v) ∨ e ∈ es ∧ compare k e.1 ≠ .eq := by
  induction es with
  | nil => simp [insertEntry]
  | cons f es ih =>
      obtain ⟨hf, hes⟩ := List.pairwise_cons.1 hes
      simp only [insertEntry]
      split
      · rename_i hk
        have hbelow : ∀ g ∈ f :: es, compare k g.1 ≠ .eq := by
          intro g hg
          rcases List.mem_cons.1 hg with rfl | hg
          · simp [hk]
          · simp [Std.TransCmp.lt_trans hk (hf g hg)]
        grind
      · rename_i hk
        have hbelow : ∀ g ∈ es, compare k g.1 ≠ .eq := by
          intro g hg
          simp [Std.TransCmp.lt_of_eq_of_lt hk (hf g hg)]
        grind
      · rename_i hk
        have hne : compare k f.1 ≠ .eq := by simp [hk]
        rw [List.mem_cons, ih hes]
        grind

private theorem ofList_concat [Std.TransOrd κ] (pairs : List (κ × α)) (p : κ × α) :
    ofList (pairs ++ [p]) = (ofList pairs).insert p.1 p.2 := by
  simp [ofList]

/-- The entries of a dictionary made from pairs are the latest pairs. -/
theorem mem_ofList_iff [Std.TransOrd κ] {pairs : List (κ × α)} {e : κ × α} :
    e ∈ (ofList pairs).entries ↔ Latest pairs e := by
  induction pairs using List.reverseRecOn with
  | nil => simp [ofList, empty, Latest]
  | append_singleton pairs p ih =>
      rw [ofList_concat, latest_concat_iff, ← ih]
      exact mem_insertEntry_iff (ofList pairs).ordered

/-- A dictionary is determined by its entries, whatever their order. -/
theorem ext_mem [Std.TransOrd κ] {d d' : Dict κ α} (h : ∀ e, e ∈ d.entries ↔ e ∈ d'.entries) :
    d = d' := by
  let before : κ × α → κ × α → Prop := fun a b => compare a.1 b.1 = .lt
  have hirrefl : Std.Irrefl before := ⟨fun a => by simp [before, Std.ReflCmp.compare_self]⟩
  have hantisymm : Std.Antisymm before := ⟨fun a b hab hba => by
    have := Std.TransCmp.lt_trans hab hba
    simp [Std.ReflCmp.compare_self] at this⟩
  exact Dict.ext (List.Pairwise.eq_of_mem_iff (r := before) d.ordered d'.ordered h)

theorem eq_ofList_iff [Std.TransOrd κ] {pairs : List (κ × α)} {d : Dict κ α} :
    d = ofList pairs ↔ ∀ e, e ∈ d.entries ↔ Latest pairs e := by
  constructor
  · rintro rfl e
    exact mem_ofList_iff
  · intro h
    exact ext_mem fun e => (h e).trans mem_ofList_iff.symm

theorem nodup_entries [Std.ReflOrd κ] (d : Dict κ α) : d.entries.Nodup := by
  refine d.ordered.imp fun {e f} hlt heq => ?_
  have hself : compare f.1 f.1 = .eq := Std.ReflCmp.compare_self
  rw [heq, hself] at hlt
  cases hlt

/-! ### Keys that compare equal only to themselves -/

private theorem find?_of_mem [Std.ReflOrd κ] {k : κ} {v : α} {es : List (κ × α)}
    (hes : es.Pairwise fun a b => compare a.1 b.1 = .lt) (h : (k, v) ∈ es) :
    (es.find? fun e => compare e.1 k == .eq) = some (k, v) := by
  induction es with
  | nil => cases h
  | cons f es ih =>
      obtain ⟨hf, hes⟩ := List.pairwise_cons.1 hes
      rcases List.mem_cons.1 h with rfl | h
      · simp [Std.ReflCmp.compare_self]
      · rw [List.find?_cons_of_neg, ih hes h]
        simp [hf (k, v) h]

section Lawful

variable [Std.LawfulEqOrd κ]

theorem get?_insert [Std.TransOrd κ] [DecidableEq κ] (d : Dict κ α) (k l : κ) (v : α) :
    (d.insert k v).get? l = if l = k then some v else d.get? l := by
  by_cases h : l = k
  · rw [if_pos h, h, get?_insert_self]
  · rw [if_neg h]
    apply get?_insert_of_ne
    exact fun heq => h (Std.LawfulEqOrd.eq_of_compare heq).symm

theorem get?_erase [Std.TransOrd κ] [DecidableEq κ] (d : Dict κ α) (k l : κ) :
    (d.erase k).get? l = if l = k then none else d.get? l := by
  by_cases h : l = k
  · rw [if_pos h, h, get?_erase_self]
  · rw [if_neg h]
    apply get?_erase_of_ne
    exact fun heq => h (Std.LawfulEqOrd.eq_of_compare heq).symm

/-- The entries are what is found under their keys. -/
theorem mem_entries_iff {d : Dict κ α} {k : κ} {v : α} :
    (k, v) ∈ d.entries ↔ d.get? k = some v := by
  constructor
  · intro h
    rw [get?, find?_of_mem d.ordered h]
    rfl
  · intro h
    obtain ⟨e, he, hv⟩ := Option.map_eq_some_iff.1 h
    have hkey : e.1 = k := by simpa using List.find?_some he
    rw [← hkey, ← hv]
    exact List.mem_of_find?_eq_some he

/-- A dictionary is determined by what is found in it. -/
theorem ext_get? [Std.TransOrd κ] {d e : Dict κ α} (h : ∀ k, d.get? k = e.get? k) : d = e := by
  apply ext_mem
  intro f
  rw [← Prod.mk.eta (p := f), mem_entries_iff, mem_entries_iff, h]

end Lawful

/-! ### Sizes -/

private theorem length_insertEntry_le (k : κ) (v : α) (es : List (κ × α)) :
    (insertEntry k v es).length ≤ es.length + 1 := by
  induction es with
  | nil => simp [insertEntry]
  | cons f es ih =>
      simp only [insertEntry]
      split <;> simp [ih]

theorem size_insert_le [Std.TransOrd κ] (d : Dict κ α) (k : κ) (v : α) :
    (d.insert k v).size ≤ d.size + 1 :=
  length_insertEntry_le k v d.entries

/-- Replacing never adds an entry. -/
theorem size_ofList_le [Std.TransOrd κ] (pairs : List (κ × α)) :
    (ofList pairs).size ≤ pairs.length := by
  induction pairs using List.reverseRecOn with
  | nil => exact Nat.le_refl 0
  | append_singleton pairs p ih =>
      rw [ofList_concat, List.length_append]
      exact (size_insert_le _ _ _).trans (Nat.succ_le_succ ih)

private theorem length_insertEntry_of_mem [Std.TransOrd κ] {k : κ} (v : α) {es : List (κ × α)}
    (hes : es.Pairwise fun a b => compare a.1 b.1 = .lt) (hk : ∃ e ∈ es, compare e.1 k = .eq) :
    (insertEntry k v es).length = es.length := by
  induction es with
  | nil => simp at hk
  | cons f es ih =>
      obtain ⟨hf, hes⟩ := List.pairwise_cons.1 hes
      obtain ⟨e, he, hek⟩ := hk
      simp only [insertEntry]
      split
      · rename_i hlt
        have hke : compare k e.1 = .lt := by
          rcases List.mem_cons.1 he with rfl | he
          · exact hlt
          · exact Std.TransCmp.lt_trans hlt (hf e he)
        rw [Std.OrientedCmp.eq_symm hek] at hke
        cases hke
      · rfl
      · rename_i hgt
        have hes' : ∃ e ∈ es, compare e.1 k = .eq := by
          rcases List.mem_cons.1 he with rfl | he
          · rw [Std.OrientedCmp.eq_symm hek] at hgt
            cases hgt
          · exact ⟨e, he, hek⟩
        rw [List.length_cons, List.length_cons, ih hes hes']

private theorem mem_of_get? {d : Dict κ α} {k : κ} {v : α} (h : d.get? k = some v) :
    ∃ e ∈ d.entries, compare e.1 k = .eq := by
  obtain ⟨e, he, _⟩ := Option.map_eq_some_iff.1 h
  exact ⟨e, List.mem_of_find?_eq_some he, by simpa using List.find?_some he⟩

/-- Setting the value under a key that is present adds no entry. -/
theorem size_insert_of_get? [Std.TransOrd κ] {d : Dict κ α} {k : κ} {v : α}
    (h : d.get? k = some v) (w : α) : (d.insert k w).size = d.size :=
  length_insertEntry_of_mem w d.ordered (mem_of_get? h)

theorem size_erase_le (d : Dict κ α) (k : κ) : (d.erase k).size ≤ d.size :=
  List.length_filter_le _ _

theorem size_erase_lt {d : Dict κ α} {k : κ} {v : α} (h : d.get? k = some v) :
    (d.erase k).size < d.size := by
  obtain ⟨e, he, hek⟩ := mem_of_get? h
  exact List.length_filter_lt_length_iff_exists.2 ⟨e, he, by simp [hek]⟩

/-- A dictionary has no more entries than there are names for its keys. -/
theorem size_le_of_forall_mem [Std.TransOrd κ] [Std.LawfulEqOrd κ] {d : Dict κ α} {names : List κ}
    (h : ∀ k, d.get? k ≠ none → k ∈ names) : d.size ≤ names.length := by
  have hnodup : d.keys.Nodup := by
    apply List.pairwise_map.2
    refine d.ordered.imp fun {e f} hlt heq => ?_
    have hself : compare f.1 f.1 = .eq := Std.ReflCmp.compare_self
    rw [heq, hself] at hlt
    cases hlt
  have hsubset : d.keys ⊆ names := by
    intro k hk
    obtain ⟨⟨_, v⟩, hv, rfl⟩ := List.mem_map.1 hk
    apply h
    rw [mem_entries_iff.1 hv]
    exact Option.some_ne_none v
  have hlength := (List.subperm_of_subset hnodup hsubset).length_le
  rwa [keys, List.length_map] at hlength

end DataGateway.Dict

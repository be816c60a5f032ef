import DataGateway.Proofs.Dictionary
import DataGateway.Proofs.Wire.Dynamic
import DataGateway.Wire.Layout

/-!
# What a layout matches

A layout can be held against values that are already there, without any bytes: `Matches` says which
value, or which values in a row, stand for what the layout describes. A record's array has exactly
as many elements as the record has fields, its fields make a value and its check passes; of the
entries of a map that repeat a key the last stands.

Dynamic values stand for themselves. `dynamics` are those in what a layout describes, and
`dynamicFields` those in the values that it is held against, which are more where a map repeats a
key.
-/

namespace DataGateway

open MessagePack (Value Family)

/-- The values that a layout is held against: one, or one for each field of a row. -/
abbrev Grade.Trees : Grade → Type
  | .value => Value
  | .row => List Value

/-- Those values in order. -/
abbrev Grade.forest : (g : Grade) → g.Trees → List Value
  | .value, v => [v]
  | .row, vs => vs

namespace Layout

/-- Which values stand for what a layout describes. -/
def Matches : {g : Grade} → {α : Type} → Layout g α → g.Trees → α → Prop
  | _, _, boolean => fun v b => v = .boolean b
  | _, _, long => fun v n => ∃ i, v = .integer i ∧ i.val = n.toInt
  | _, _, int => fun v n => ∃ i, v = .integer i ∧ i.val = n.toInt
  | _, _, text => fun v s => v = .ofString s
  | _, _, binary => fun v bytes => v = .binary bytes
  | _, _, dynamic => fun v w => v = w
  | _, _, list item => fun v as => ∃ items, v = .array items ∧ List.Forall₂ item.Matches items as
  | _, _, dict key item => fun v d => ∃ entries pairs, v = .map entries
      ∧ List.Forall₂ (fun e p => key.Matches e.1 p.1 ∧ item.Matches e.2 p.2) entries pairs
      ∧ ∀ e, e ∈ d.entries ↔ Dict.Latest pairs e
  | _, _, coded base _ meaning _ _ => fun v b => ∃ a, base.Matches v a ∧ meaning a = .ok b
  | _, _, mapOr left right => fun v => Sum.elim (fun a => v.family = .map ∧ left.Matches v a)
      (fun b => v.family ≠ .map ∧ right.Matches v b)
  | _, _, record _ row _ ofRow check _ _ => fun v a => ∃ items r, v = .array items
      ∧ items.length = row.count ∧ row.Matches items r ∧ ofRow r = .ok a ∧ check a = .ok ()
  | _, _, done => fun vs _ => vs = []
  | _, _, required _ value rest => fun vs (a, r) =>
      ∃ v ws, vs = v :: ws ∧ value.Matches v a ∧ rest.Matches ws r
  | _, _, optional _ value rest => fun vs (o, r) =>
      ∃ v ws, vs = v :: ws ∧ o.elim (v = .nil) (value.Matches v) ∧ rest.Matches ws r

/-- The dynamic values in what a layout describes. -/
def dynamics : {g : Grade} → {α : Type} → Layout g α → α → List Value
  | _, _, dynamic => fun v => [v]
  | _, _, list item => fun as => as.flatMap item.dynamics
  | _, _, dict key item => fun d =>
    d.entries.flatMap fun e => key.dynamics e.1 ++ item.dynamics e.2
  | _, _, coded base code _ _ _ => fun b => base.dynamics (code b)
  | _, _, mapOr left right => Sum.elim left.dynamics right.dynamics
  | _, _, record _ row toRow _ _ _ _ => fun a => row.dynamics (toRow a)
  | _, _, required _ value rest => fun (a, r) => value.dynamics a ++ rest.dynamics r
  | _, _, optional _ value rest => fun (o, r) => o.elim [] value.dynamics ++ rest.dynamics r
  | _, _, boolean | _, _, long | _, _, int | _, _, text | _, _, binary | _, _, done => fun _ => []

/-- The values in the dynamic fields of the values that a layout is held against. -/
def dynamicFields : {g : Grade} → {α : Type} → Layout g α → g.Trees → List Value
  | _, _, dynamic => fun v => [v]
  | _, _, list item => fun v => v.children.flatMap item.dynamicFields
  | _, _, dict key item => fun
    | .map entries =>
      entries.flatMap fun e => key.dynamicFields e.1 ++ item.dynamicFields e.2
    | _ => []
  | _, _, coded base _ _ _ _ => base.dynamicFields
  | _, _, mapOr left right => fun v =>
    if v.family = .map then left.dynamicFields v else right.dynamicFields v
  | _, _, record _ row _ _ _ _ _ => fun v => row.dynamicFields v.children
  | _, _, required _ value rest => fun
    | v :: vs => value.dynamicFields v ++ rest.dynamicFields vs
    | [] => []
  | _, _, optional _ value rest => fun
    | v :: vs => value.dynamicFields v ++ rest.dynamicFields vs
    | [] => []
  | _, _, boolean | _, _, long | _, _, int | _, _, text | _, _, binary => fun _ => []
  | _, _, done => fun _ => []

/-- No dynamic field nests deeper than a reader goes. -/
def Shallow {g : Grade} {α : Type} (l : Layout g α) (t : g.Trees) : Prop :=
  ∀ v ∈ l.dynamicFields t, v.depth ≤ Value.depthBudget

/-- The families of the values that can stand for what a layout describes. -/
def families : {g : Grade} → {α : Type} → Layout g α → List Family
  | _, _, boolean => [.boolean]
  | _, _, long => [.integer]
  | _, _, int => [.integer]
  | _, _, text => [.string]
  | _, _, binary => [.binary]
  | _, _, dynamic =>
    [.nil, .boolean, .integer, .float, .string, .binary, .array, .map, .extension]
  | _, _, list _ => [.array]
  | _, _, dict _ _ => [.map]
  | _, _, coded base _ _ _ _ => base.families
  | _, _, mapOr left right => left.families ++ right.families
  | _, _, record .. => [.array]
  | _, _, done => []
  | _, _, required .. => []
  | _, _, optional .. => []

/-- Whether what stands on the wire says which case it is: a value that may be left out is never nil
itself, and of two values one is always a map and the other never. -/
def unambiguous : {g : Grade} → {α : Type} → Layout g α → Bool
  | _, _, list item => item.unambiguous
  | _, _, dict key item => key.unambiguous && item.unambiguous
  | _, _, coded base _ _ _ _ => base.unambiguous
  | _, _, mapOr left right => left.unambiguous && right.unambiguous
    && left.families = [.map] && .map ∉ right.families
  | _, _, record _ row _ _ _ _ _ => row.unambiguous
  | _, _, required _ value rest => value.unambiguous && rest.unambiguous
  | _, _, optional _ value rest => value.unambiguous && rest.unambiguous
    && .nil ∉ value.families
  | _, _, boolean | _, _, long | _, _, int | _, _, text | _, _, binary | _, _, dynamic
  | _, _, done => true

/-- Whether a layout has no dynamic field. -/
def isStatic : {g : Grade} → {α : Type} → Layout g α → Bool
  | _, _, dynamic => false
  | _, _, list item => item.isStatic
  | _, _, dict key item => key.isStatic && item.isStatic
  | _, _, coded base _ _ _ _ => base.isStatic
  | _, _, mapOr left right => left.isStatic && right.isStatic
  | _, _, record _ row _ _ _ _ _ => row.isStatic
  | _, _, required _ value rest => value.isStatic && rest.isStatic
  | _, _, optional _ value rest => value.isStatic && rest.isStatic
  | _, _, boolean | _, _, long | _, _, int | _, _, text | _, _, binary | _, _, done => true

/-! ### What matching says -/

/-- A row that matches has one value for each field. -/
theorem length_of_matches {α : Type} : (l : Layout .row α) → {vs : List Value} → {r : α} →
    l.Matches vs r → vs.length = l.count
  | done, vs, _, h => by
      rw [show vs = [] from h]
      rfl
  | required _ _ rest, _, (_, _), h => by
      obtain ⟨_, _, rfl, _, hrest⟩ := h
      rw [List.length_cons, rest.length_of_matches hrest, count]
  | optional _ _ rest, _, (_, _), h => by
      obtain ⟨_, _, rfl, _, hrest⟩ := h
      rw [List.length_cons, rest.length_of_matches hrest, count]

theorem family_mem_of_matches {α : Type} : (l : Layout .value α) → {v : Value} → {a : α} →
    l.Matches v a → v.family ∈ l.families
  | boolean, _, _, h => by
      rw [show _ = Value.boolean _ from h]
      exact List.mem_singleton_self _
  | long, _, _, h => by
      obtain ⟨_, rfl, _⟩ := h
      exact List.mem_singleton_self _
  | int, _, _, h => by
      obtain ⟨_, rfl, _⟩ := h
      exact List.mem_singleton_self _
  | text, _, _, h => by
      rw [show _ = Value.ofString _ from h]
      exact List.mem_singleton_self _
  | binary, _, _, h => by
      rw [show _ = Value.binary _ from h]
      exact List.mem_singleton_self _
  | dynamic, v, _, _ => by
      cases v <;> simp [families, Value.family]
  | list _, _, _, h => by
      obtain ⟨_, rfl, _⟩ := h
      exact List.mem_singleton_self _
  | dict _ _, _, _, h => by
      obtain ⟨_, _, rfl, _⟩ := h
      exact List.mem_singleton_self _
  | coded base _ _ _ _, _, _, h => by
      obtain ⟨_, hbase, _⟩ := h
      exact base.family_mem_of_matches hbase
  | mapOr left _, _, .inl _, h => List.mem_append_left _ (left.family_mem_of_matches h.2)
  | mapOr _ right, _, .inr _, h => List.mem_append_right _ (right.family_mem_of_matches h.2)
  | record .., _, _, h => by
      obtain ⟨_, _, rfl, _⟩ := h
      exact List.mem_singleton_self _

theorem shallow_list_iff {α : Type} {item : Layout .value α} {items : List Value} :
    (list item).Shallow (.array items) ↔ ∀ v ∈ items, item.Shallow v :=
  List.forall_mem_flatMap

theorem shallow_dict_iff {κ α : Type} [Ord κ] [Std.TransOrd κ] {key : Layout .value κ}
    {item : Layout .value α} {entries : List (Value × Value)} :
    (dict key item).Shallow (.map entries) ↔
      ∀ e ∈ entries, key.Shallow e.1 ∧ item.Shallow e.2 :=
  List.forall_mem_flatMap.trans (forall₂_congr fun _ _ => List.forall_mem_append)

theorem shallow_mapOr_iff {α β : Type} {left : Layout .value α} {right : Layout .value β}
    {v : Value} :
    (mapOr left right).Shallow v ↔ if v.family = .map then left.Shallow v else right.Shallow v := by
  simp only [Shallow, dynamicFields]
  split <;> rfl

private theorem dynamicFields_nil_row {α : Type} (l : Layout .row α) : l.dynamicFields [] = [] := by
  cases l <;> rfl

/-- A field that is left out nests nowhere. -/
theorem shallow_nil {α : Type} : (l : Layout .value α) → l.Shallow .nil
  | dynamic => by simp [Shallow, dynamicFields, Value.depth, Value.depthBudget]
  | coded base _ _ _ _ => base.shallow_nil
  | mapOr _ right => right.shallow_nil
  | record _ row _ _ _ _ _ => by
      simp [Shallow, dynamicFields, Value.children, dynamicFields_nil_row]
  | boolean | long | int | text | binary | list _ | dict _ _ => by
      simp [Shallow, dynamicFields, Value.children]

/-- Without a dynamic field there is no dynamic value. -/
theorem dynamics_of_isStatic {g : Grade} {α : Type} (l : Layout g α) (h : l.isStatic) (a : α) :
    l.dynamics a = [] := by
  induction l with
  | boolean | long | int | text | binary | done => rfl
  | dynamic => cases h
  | list item ih => simp [dynamics, ih h]
  | dict key item ihkey ihitem =>
      obtain ⟨hkey, hitem⟩ := Bool.and_eq_true_iff.1 h
      simp [dynamics, ihkey hkey, ihitem hitem]
  | coded base code meaning hcode hmeaning ih => exact ih h (code a)
  | mapOr left right ihleft ihright =>
      obtain ⟨hleft, hright⟩ := Bool.and_eq_true_iff.1 h
      cases a with
      | inl a => exact ihleft hleft a
      | inr b => exact ihright hright b
  | record name row toRow ofRow check hofRow htoRow ih => exact ih h (toRow a)
  | required name value rest ihvalue ihrest =>
      obtain ⟨hvalue, hrest⟩ := Bool.and_eq_true_iff.1 h
      simp [dynamics, ihvalue hvalue, ihrest hrest]
  | optional name value rest ihvalue ihrest =>
      obtain ⟨hvalue, hrest⟩ := Bool.and_eq_true_iff.1 h
      obtain ⟨o, r⟩ := a
      cases o <;> simp [dynamics, ihvalue hvalue, ihrest hrest]

/-- Without a dynamic field nothing nests too deep. -/
theorem shallow_of_isStatic {g : Grade} {α : Type} (l : Layout g α) (h : l.isStatic) (t : g.Trees) :
    l.Shallow t := by
  have hnone : ∀ t, l.dynamicFields t = [] := by
    clear t
    induction l with
    | boolean | long | int | text | binary | done => intro t; rfl
    | dynamic => cases h
    | list item ih => intro v; simp [dynamicFields, ih h]
    | dict key item ihkey ihitem =>
        obtain ⟨hkey, hitem⟩ := Bool.and_eq_true_iff.1 h
        intro v
        cases v <;> simp [dynamicFields, ihkey hkey, ihitem hitem]
    | coded base code meaning hcode hmeaning ih => exact ih h
    | mapOr left right ihleft ihright =>
        obtain ⟨hleft, hright⟩ := Bool.and_eq_true_iff.1 h
        intro v
        simp [dynamicFields, ihleft hleft, ihright hright]
    | record name row toRow ofRow check hofRow htoRow ih => intro v; exact ih h v.children
    | required name value rest ihvalue ihrest | optional name value rest ihvalue ihrest =>
        obtain ⟨hvalue, hrest⟩ := Bool.and_eq_true_iff.1 h
        intro vs
        cases vs <;> simp [dynamicFields, ihvalue hvalue, ihrest hrest]
  simp [Shallow, hnone]

/-! ### Dynamic values and dynamic fields -/

private theorem append_subset_append {α : Type} {a b c d : List α} (hac : a ⊆ c) (hbd : b ⊆ d) :
    a ++ b ⊆ c ++ d :=
  List.append_subset.2
    ⟨List.subset_append_of_subset_left _ hac, List.subset_append_of_subset_right _ hbd⟩

private theorem flatMap_subset {α β γ : Type} {f : α → List γ} {g : β → List γ} {as : List α}
    {bs : List β} (h : List.Forall₂ (fun a b => f a ⊆ g b) as bs) :
    as.flatMap f ⊆ bs.flatMap g := by
  induction h with
  | nil => exact List.Subset.refl _
  | cons hab _ ih =>
      rw [List.flatMap_cons, List.flatMap_cons]
      exact append_subset_append hab ih

/-- The dynamic values in what is read stood in dynamic fields. -/
theorem dynamics_subset {g : Grade} {α : Type} (l : Layout g α) :
    ∀ t a, l.Matches t a → l.dynamics a ⊆ l.dynamicFields t := by
  induction l with
  | boolean | long | int | text | binary | done => intro t a _; exact List.nil_subset _
  | dynamic =>
      rintro _ v rfl
      exact List.Subset.refl _
  | list item ih =>
      rintro _ as ⟨items, rfl, hall⟩
      exact flatMap_subset (hall.flip.imp fun a v h => ih v a h)
  | dict key item ihkey ihitem =>
      rintro _ d ⟨entries, pairs, rfl, hall, hlatest⟩
      have hpairs := flatMap_subset (hall.flip.imp fun p e h =>
        append_subset_append (ihkey e.1 p.1 h.1) (ihitem e.2 p.2 h.2))
      intro w hw
      obtain ⟨e, he, hw⟩ := List.mem_flatMap.1 hw
      exact hpairs (List.mem_flatMap.2 ⟨e, ((hlatest e).1 he).mem, hw⟩)
  | coded base code meaning hcode hmeaning ih =>
      rintro v b ⟨a, hbase, hb⟩
      change base.dynamics (code b) ⊆ _
      rw [hmeaning a b hb]
      exact ih v a hbase
  | mapOr left right ihleft ihright =>
      rintro v (a | b) ⟨hfamily, hmatch⟩
      · simpa only [dynamicFields, if_pos hfamily] using! ihleft v a hmatch
      · simpa only [dynamicFields, if_neg hfamily] using! ihright v b hmatch
  | record name row toRow ofRow check hofRow htoRow ih =>
      rintro _ a ⟨items, r, rfl, _, hmatch, hr, _⟩
      change row.dynamics (toRow a) ⊆ _
      rw [htoRow r a hr]
      exact ih items r hmatch
  | required name value rest ihvalue ihrest =>
      rintro _ ⟨a, r⟩ ⟨v, vs, rfl, hmatch, hrest⟩
      exact append_subset_append (ihvalue v a hmatch) (ihrest vs r hrest)
  | optional name value rest ihvalue ihrest =>
      rintro _ ⟨o, r⟩ ⟨v, vs, rfl, hmatch, hrest⟩
      cases o with
      | none => exact List.Subset.trans (ihrest vs r hrest) (List.subset_append_right _ _)
      | some a => exact append_subset_append (ihvalue v a hmatch) (ihrest vs r hrest)

/-- A dynamic field is part of the values that a layout is held against. -/
theorem mem_parts_of_mem_dynamicFields {g : Grade} {α : Type} (l : Layout g α) :
    ∀ t, ∀ w ∈ l.dynamicFields t, ∃ v ∈ g.forest t, w ∈ v.parts := by
  have hchild {v c w : Value} (hc : c ∈ v.children) (hw : w ∈ c.parts) : w ∈ v.parts :=
    Value.mem_parts_trans hw (Value.mem_parts_of_mem_children hc)
  induction l with
  | boolean | long | int | text | binary | done => intro t w hw; cases hw
  | dynamic =>
      intro v w hw
      rw [List.mem_singleton.1 hw]
      exact ⟨v, List.mem_singleton_self v, v.self_mem_parts⟩
  | list item ih =>
      intro v w hw
      obtain ⟨c, hc, hw⟩ := List.mem_flatMap.1 hw
      obtain ⟨c, hself, hw⟩ := ih c w hw
      rw [List.mem_singleton.1 hself] at hw
      exact ⟨v, List.mem_singleton_self v, hchild hc hw⟩
  | dict key item ihkey ihitem =>
      intro v w hw
      cases v with
      | map entries =>
          obtain ⟨e, he, hw⟩ := List.mem_flatMap.1 hw
          refine ⟨_, List.mem_singleton_self _, ?_⟩
          rcases List.mem_append.1 hw with hw | hw
          · obtain ⟨c, hself, hw⟩ := ihkey e.1 w hw
            rw [List.mem_singleton.1 hself] at hw
            exact hchild (List.mem_flatMap.2 ⟨e, he, by simp⟩) hw
          · obtain ⟨c, hself, hw⟩ := ihitem e.2 w hw
            rw [List.mem_singleton.1 hself] at hw
            exact hchild (List.mem_flatMap.2 ⟨e, he, by simp⟩) hw
      | _ => cases hw
  | coded base code meaning hcode hmeaning ih => exact ih
  | mapOr left right ihleft ihright =>
      intro v w hw
      simp only [dynamicFields] at hw
      split at hw
      · exact ihleft v w hw
      · exact ihright v w hw
  | record name row toRow ofRow check hofRow htoRow ih =>
      intro v w hw
      obtain ⟨c, hc, hw⟩ := ih v.children w hw
      exact ⟨v, List.mem_singleton_self v, hchild hc hw⟩
  | required name value rest ihvalue ihrest | optional name value rest ihvalue ihrest =>
      intro vs w hw
      cases vs with
      | nil => cases hw
      | cons v vs =>
          rcases List.mem_append.1 hw with hw | hw
          · obtain ⟨c, hself, hw⟩ := ihvalue v w hw
            rw [List.mem_singleton.1 hself] at hw
            exact ⟨v, List.mem_cons_self, hw⟩
          · obtain ⟨c, hc, hw⟩ := ihrest vs w hw
            exact ⟨c, List.mem_cons_of_mem v hc, hw⟩

end Layout

end DataGateway

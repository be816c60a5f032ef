import DataGateway.Proofs.MessagePack.Pieces
import DataGateway.Proofs.Wire.Matching

/-!
# Where values stand

`places` goes through the values that a layout is held against, and through the values inside them,
in the order in which their bytes come, and says of each whether it is inside a dynamic value. The
fields, elements, keys and values that a layout describes are not, and neither is a dynamic field
itself; everything below a dynamic field is.
-/

namespace DataGateway

open MessagePack (Value Place)

namespace Layout

/-- The values that a layout is held against and all values inside them, in order. -/
def places : {g : Grade} → {α : Type} → Layout g α → g.Trees → List Place
  | _, _, dynamic => fun v => ⟨v, false⟩ :: (Value.partsItems v.children).map (⟨·, true⟩)
  | _, _, list item => fun v => ⟨v, false⟩ :: v.children.flatMap item.places
  | _, _, dict key item => fun v => ⟨v, false⟩ :: match v with
    | .map entries => entries.flatMap fun e => key.places e.1 ++ item.places e.2
    | _ => []
  | _, _, coded base _ _ _ _ => base.places
  | _, _, mapOr left right => fun v => if v.family = .map then left.places v else right.places v
  | _, _, record _ row _ _ _ _ _ => fun v => ⟨v, false⟩ :: row.places v.children
  | _, _, required _ value rest => fun
    | v :: vs => value.places v ++ rest.places vs
    | [] => []
  | _, _, optional _ value rest => fun
    | v :: vs => value.places v ++ rest.places vs
    | [] => []
  | _, _, boolean | _, _, long | _, _, int | _, _, text | _, _, binary => fun v => [⟨v, false⟩]
  | _, _, done => fun _ => []

private theorem places_nil_row {α : Type} (l : Layout .row α) : l.places [] = [] := by
  cases l <;> rfl

/-- A field that is left out has one place. -/
theorem places_nil {α : Type} : (l : Layout .value α) → l.places .nil = [⟨.nil, false⟩]
  | dynamic => by simp [places, Value.children, Value.partsItems]
  | coded base _ _ _ _ => base.places_nil
  | mapOr _ right => right.places_nil
  | record _ row _ _ _ _ _ => by simp [places, Value.children, places_nil_row]
  | boolean | long | int | text | binary | list _ | dict _ _ => rfl

theorem places_mapOr {α β : Type} {left : Layout .value α} {right : Layout .value β} (v : Value) :
    (mapOr left right).places v
      = if v.family = .map then left.places v else right.places v := rfl

private theorem map_value_flatMap {α γ : Type} (spelled : γ → List Value) (f : γ → List Place)
    {cs : List γ} {as : List α}
    (h : List.Forall₂ (fun c _ => (f c).map Place.value = Value.partsItems (spelled c)) cs as) :
    (cs.flatMap f).map Place.value = Value.partsItems (cs.flatMap spelled) := by
  induction h with
  | nil => simp [Value.partsItems]
  | cons hc _ ih =>
      rw [List.flatMap_cons, List.flatMap_cons, List.map_append, hc, ih, Value.partsItems_append]

/-- The places are those of all parts of the values, in their order. -/
theorem map_value_places {g : Grade} {α : Type} (l : Layout g α) : ∀ t a, l.Matches t a →
    (l.places t).map Place.value = Value.partsItems (g.forest t) := by
  induction l with
  | boolean | text | binary =>
      rintro _ a rfl
      rfl
  | long | int =>
      rintro _ a ⟨i, rfl, _⟩
      rfl
  | dynamic =>
      rintro v _ rfl
      simp [places, Value.partsItems, Value.parts_eq v, Function.comp_def]
  | list item ih =>
      rintro _ as ⟨items, rfl, hall⟩
      have hitems := map_value_flatMap ([·]) item.places (hall.imp fun v a hmatch => ih v a hmatch)
      rw [List.flatMap_singleton'] at hitems
      simp [places, Value.children, Value.partsItems, Value.parts, hitems]
  | dict key item ihkey ihitem =>
      rintro _ d ⟨entries, pairs, rfl, hall, _⟩
      have hentries := map_value_flatMap (fun e : Value × Value => [e.1, e.2])
        (fun e => key.places e.1 ++ item.places e.2) (hall.imp fun e p hmatch => by
          have hk := ihkey e.1 p.1 hmatch.1
          have hv := ihitem e.2 p.2 hmatch.2
          simp only [Value.partsItems, List.append_nil] at hk hv ⊢
          rw [List.map_append, hk, hv])
      simp [places, Value.partsItems, Value.parts, Value.partsEntries_eq, Value.flat, hentries]
  | coded base code meaning hcode hmeaning ih =>
      rintro v b ⟨a, hbase, _⟩
      exact ih v a hbase
  | mapOr left right ihleft ihright =>
      rintro v (a | b) ⟨hfamily, hmatch⟩
      · rw [places_mapOr, if_pos hfamily]
        exact ihleft v a hmatch
      · rw [places_mapOr, if_neg hfamily]
        exact ihright v b hmatch
  | record name row toRow ofRow check hofRow htoRow ih =>
      rintro _ a ⟨items, r, rfl, _, hmatch, _⟩
      have hitems := ih items r hmatch
      simp [places, Value.children, Value.partsItems, Value.parts, hitems]
  | done =>
      rintro _ r rfl
      simp [places, Value.partsItems]
  | required name value rest ihvalue ihrest =>
      rintro _ ⟨a, r⟩ ⟨v, vs, rfl, hmatch, hrest⟩
      have hv := ihvalue v a hmatch
      have hvs := ihrest vs r hrest
      simp only [Grade.forest, Value.partsItems, List.append_nil] at hv hvs ⊢
      rw [places, List.map_append, hv, hvs]
  | optional name value rest ihvalue ihrest =>
      rintro _ ⟨o, r⟩ ⟨v, vs, rfl, hmatch, hrest⟩
      have hvs := ihrest vs r hrest
      cases o with
      | none =>
          obtain rfl : v = .nil := hmatch
          rw [places, List.map_append, places_nil, hvs]
          simp [Value.partsItems, Value.parts]
      | some a =>
          have hv := ihvalue v a hmatch
          simp only [Grade.forest, Value.partsItems, List.append_nil] at hv hvs ⊢
          rw [places, List.map_append, hv, hvs]

end Layout

end DataGateway

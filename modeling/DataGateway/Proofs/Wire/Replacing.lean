import DataGateway.Proofs.Wire.Matching
import Mathlib.Data.List.Forall2

/-!
# Replacing dynamic values

`Maps f a b` says that `b` is `a` with every dynamic value replaced by what `f` makes of it and
nothing else changed, as the layout sees the two. Where the bytes of a dynamic value are the bytes
of what replaces it, both are written the same.
-/

namespace DataGateway

/-- The dictionary with every value replaced. -/
def Dict.mapValues {κ α β : Type} [Ord κ] (f : α → β) (d : Dict κ α) : Dict κ β where
  entries := d.entries.map fun e => (e.1, f e.2)
  ordered := List.pairwise_map.2 d.ordered

namespace Layout

open MessagePack (Value)

/-- The second is the first with its dynamic values replaced, and passes the same checks. -/
def Maps (f : Value → Value) : {g : Grade} → {α : Type} → Layout g α → α → α → Prop
  | _, _, dynamic => fun v w => w = f v
  | _, _, list item => List.Forall₂ (item.Maps f)
  | _, _, dict key item => fun d e =>
    List.Forall₂ (fun p q => key.Maps f p.1 q.1 ∧ item.Maps f p.2 q.2) d.entries e.entries
  | _, _, coded base code _ _ _ => fun a b => base.Maps f (code a) (code b)
  | _, _, mapOr left right => Sum.LiftRel (left.Maps f) (right.Maps f)
  | _, _, record _ row toRow _ check _ _ => fun a b =>
    row.Maps f (toRow a) (toRow b) ∧ check b = check a
  | _, _, required _ value rest => fun (a, r) (b, s) => value.Maps f a b ∧ rest.Maps f r s
  | _, _, optional _ value rest => fun (o, r) (p, s) =>
    Option.Rel (value.Maps f) o p ∧ rest.Maps f r s
  | _, _, boolean | _, _, long | _, _, int | _, _, text | _, _, binary | _, _, done =>
    fun a b => a = b

variable {f : Value → Value}

theorem rel_map {α : Type} {l : Layout .value α} {h : α → α} (hl : ∀ a, l.Maps f a (h a))
    {o : Option α} : Option.Rel (l.Maps f) o (o.map h) := by
  cases o with
  | none => exact .none
  | some a => exact .some (hl a)

theorem rel_self {α : Type} {l : Layout .value α} (hl : ∀ a, l.Maps f a a) {o : Option α} :
    Option.Rel (l.Maps f) o o := by
  simpa using rel_map (h := id) hl (o := o)

theorem dynamic_maps (v : Value) : dynamic.Maps f v (f v) := rfl

theorem list_maps {α : Type} {item : Layout .value α} {h : α → α}
    (hitem : ∀ a, item.Maps f a (h a)) {as : List α} : (list item).Maps f as (as.map h) :=
  List.forall₂_map_right_iff.2 (List.forall₂_same.2 fun a _ => hitem a)

/-- Without a dynamic field nothing is replaced. -/
theorem maps_of_isStatic {g : Grade} {α : Type} (l : Layout g α) (h : l.isStatic) (a : α) :
    l.Maps f a a := by
  induction l with
  | boolean | long | int | text | binary | done => rfl
  | dynamic => cases h
  | list item ih => exact List.forall₂_same.2 fun a _ => ih h a
  | dict key item ihkey ihitem =>
      obtain ⟨hkey, hitem⟩ := Bool.and_eq_true_iff.1 h
      exact List.forall₂_same.2 fun e _ => ⟨ihkey hkey e.1, ihitem hitem e.2⟩
  | coded base code meaning hcode hmeaning ih => exact ih h (code a)
  | mapOr left right ihleft ihright =>
      obtain ⟨hleft, hright⟩ := Bool.and_eq_true_iff.1 h
      cases a with
      | inl a => exact .inl (ihleft hleft a)
      | inr b => exact .inr (ihright hright b)
  | record name row toRow ofRow check hofRow htoRow ih => exact ⟨ih h (toRow a), rfl⟩
  | required name value rest ihvalue ihrest =>
      obtain ⟨hvalue, hrest⟩ := Bool.and_eq_true_iff.1 h
      exact ⟨ihvalue hvalue a.1, ihrest hrest a.2⟩
  | optional name value rest ihvalue ihrest =>
      obtain ⟨hvalue, hrest⟩ := Bool.and_eq_true_iff.1 h
      exact ⟨rel_self (ihvalue hvalue), ihrest hrest a.2⟩

theorem dict_maps {κ α : Type} [Ord κ] [Std.TransOrd κ] {key : Layout .value κ}
    {item : Layout .value α} {h : α → α} (hkey : key.isStatic) (hitem : ∀ a, item.Maps f a (h a))
    {d : Dict κ α} : (dict key item).Maps f d (d.mapValues h) :=
  List.forall₂_map_right_iff.2
    (List.forall₂_same.2 fun e _ => ⟨key.maps_of_isStatic hkey e.1, hitem e.2⟩)

theorem rel_of_isStatic {α : Type} {l : Layout .value α} (h : l.isStatic) {o : Option α} :
    Option.Rel (l.Maps f) o o :=
  rel_self (l.maps_of_isStatic h)

private theorem map_eq_map {α : Type} (write : α → Draft) {as bs : List α}
    (h : List.Forall₂ (fun a b => write b = write a) as bs) : bs.map write = as.map write := by
  induction h with
  | nil => rfl
  | cons hab _ ih => rw [List.map_cons, List.map_cons, hab, ih]

/-- Where dynamic values are replaced by values with the same bytes, the same is written. -/
theorem write_of_maps (hf : ∀ v, (f v).encode = v.encode) {g : Grade} {α : Type} (l : Layout g α) :
    ∀ a b, l.Maps f a b → l.write b = l.write a := by
  induction l with
  | boolean | long | int | text | binary | done => rintro a _ rfl; rfl
  | dynamic =>
      rintro v _ rfl
      simp only [write, hf]
  | list item ih =>
      intro as bs h
      simp only [write, h.length_eq, map_eq_map item.write (h.imp ih)]
  | dict key item ihkey ihitem =>
      intro d e h
      have hentries := map_eq_map (fun p => key.write p.1 ++ item.write p.2)
        (h.imp fun p q hpq => by rw [ihkey _ _ hpq.1, ihitem _ _ hpq.2])
      simp only [write, h.length_eq, hentries]
  | coded base code meaning hcode hmeaning ih => intro a b h; exact ih _ _ h
  | mapOr left right ihleft ihright =>
      rintro _ _ (h | h)
      · exact ihleft _ _ h
      · exact ihright _ _ h
  | record name row toRow ofRow check hofRow htoRow ih =>
      rintro a b ⟨hrow, hcheck⟩
      simp only [write, hcheck, ih _ _ hrow]
  | required name value rest ihvalue ihrest =>
      rintro ⟨a, r⟩ ⟨b, s⟩ ⟨hvalue, hrest⟩
      simp only [write, ihvalue _ _ hvalue, ihrest _ _ hrest]
  | optional name value rest ihvalue ihrest =>
      rintro ⟨_, r⟩ ⟨_, s⟩ ⟨ho, hrest⟩
      cases ho with
      | none => simp only [write, ihrest _ _ hrest]
      | some hvalue => simp only [write, Option.elim, ihvalue _ _ hvalue, ihrest _ _ hrest]

private theorem flatMap_map_eq {α β : Type} {g : α → List β} {f : β → β} {as bs : List α}
    (h : List.Forall₂ (fun a b => g b = (g a).map f) as bs) :
    bs.flatMap g = (as.flatMap g).map f := by
  induction h with
  | nil => rfl
  | cons hab _ ih => rw [List.flatMap_cons, List.flatMap_cons, List.map_append, hab, ih]

theorem dynamics_of_maps {g : Grade} {α : Type} (l : Layout g α) :
    ∀ a b, l.Maps f a b → l.dynamics b = (l.dynamics a).map f := by
  induction l with
  | boolean | long | int | text | binary | done => intro a b _; rfl
  | dynamic => rintro v _ rfl; rfl
  | list item ih => intro as bs h; exact flatMap_map_eq (h.imp ih)
  | dict key item ihkey ihitem =>
      intro d e h
      refine flatMap_map_eq (h.imp fun p q hpq => ?_)
      rw [ihkey _ _ hpq.1, ihitem _ _ hpq.2, List.map_append]
  | coded base code meaning hcode hmeaning ih => intro a b h; exact ih _ _ h
  | mapOr left right ihleft ihright =>
      rintro _ _ (h | h)
      · exact ihleft _ _ h
      · exact ihright _ _ h
  | record name row toRow ofRow check hofRow htoRow ih =>
      rintro a b ⟨hrow, _⟩
      exact ih _ _ hrow
  | required name value rest ihvalue ihrest =>
      rintro ⟨a, r⟩ ⟨b, s⟩ ⟨hvalue, hrest⟩
      simp only [dynamics, List.map_append, ihvalue _ _ hvalue, ihrest _ _ hrest]
  | optional name value rest ihvalue ihrest =>
      rintro ⟨_, r⟩ ⟨_, s⟩ ⟨ho, hrest⟩
      cases ho with
      | none => exact ihrest _ _ hrest
      | some hvalue =>
          simp only [dynamics, List.map_append, Option.elim, ihvalue _ _ hvalue, ihrest _ _ hrest]

end Layout

end DataGateway

import DataGateway.Proofs.Wire.Writing

/-!
# Checks at every level

The content check of a record looks at its own fields and leaves the records inside them to their
own checks. `Checked` says that all of them pass: those of the record and of every record below it,
in lists, maps and optional fields alike. Nothing is read that is not checked so.
-/

namespace DataGateway.Layout

/-- Every record in what a layout describes passes its content check. -/
def Checked : {g : Grade} → {α : Type} → Layout g α → α → Prop
  | _, _, list item => fun as => ∀ a ∈ as, item.Checked a
  | _, _, dict key item => fun d => ∀ e ∈ d.entries, key.Checked e.1 ∧ item.Checked e.2
  | _, _, coded base code _ _ _ => fun b => base.Checked (code b)
  | _, _, mapOr left right => Sum.elim left.Checked right.Checked
  | _, _, record _ row toRow _ check _ _ => fun a => check a = .ok () ∧ row.Checked (toRow a)
  | _, _, required _ value rest => fun (a, r) => value.Checked a ∧ rest.Checked r
  | _, _, optional _ value rest => fun (o, r) => (∀ a ∈ o, value.Checked a) ∧ rest.Checked r
  | _, _, boolean | _, _, long | _, _, int | _, _, text | _, _, binary | _, _, dynamic
  | _, _, done => fun _ => True

section

variable {α β ρ : Type} {item : Layout .value α} {rest : Layout .row ρ}

@[simp] theorem checked_boolean (b : Bool) : boolean.Checked b := trivial

@[simp] theorem checked_long (n : Int64) : long.Checked n := trivial

@[simp] theorem checked_int (n : Int32) : int.Checked n := trivial

@[simp] theorem checked_text (s : String) : text.Checked s := trivial

@[simp] theorem checked_binary (bytes : Bytes) : binary.Checked bytes := trivial

@[simp] theorem checked_dynamic (v : MessagePack.Value) : dynamic.Checked v := trivial

@[simp] theorem checked_done (r : Unit) : done.Checked r := trivial

@[simp] theorem checked_list_iff {as : List α} :
    (list item).Checked as ↔ ∀ a ∈ as, item.Checked a :=
  Iff.rfl

@[simp] theorem checked_dict_iff {κ : Type} [Ord κ] [Std.TransOrd κ] {key : Layout .value κ}
    {d : Dict κ α} :
    (dict key item).Checked d ↔ ∀ e ∈ d.entries, key.Checked e.1 ∧ item.Checked e.2 :=
  Iff.rfl

@[simp] theorem checked_coded_iff {code : β → α} {meaning : α → Except ProtocolError β}
    {meaning_code : ∀ b, meaning (code b) = .ok b}
    {code_meaning : ∀ a b, meaning a = .ok b → code b = a} {b : β} :
    (coded item code meaning meaning_code code_meaning).Checked b ↔ item.Checked (code b) :=
  Iff.rfl

@[simp] theorem checked_mapOr_iff {right : Layout .value β} {s : α ⊕ β} :
    (mapOr item right).Checked s ↔ Sum.elim item.Checked right.Checked s :=
  Iff.rfl

@[simp] theorem checked_required_iff {name : String} {r : α × ρ} :
    (required name item rest).Checked r ↔ item.Checked r.1 ∧ rest.Checked r.2 :=
  Iff.rfl

@[simp] theorem checked_optional_iff {name : String} {r : Option α × ρ} :
    (optional name item rest).Checked r ↔ (∀ a ∈ r.1, item.Checked a) ∧ rest.Checked r.2 :=
  Iff.rfl

end

/-- Nothing matches a value unless all checks pass. -/
theorem checked_of_matches {g : Grade} {α : Type} (l : Layout g α) :
    ∀ t a, l.Matches t a → l.Checked a := by
  induction l with
  | boolean | long | int | text | binary | dynamic | done => exact fun _ _ _ => trivial
  | list item ih =>
      rintro _ as ⟨items, rfl, hall⟩
      exact forall_of_forall₂ hall fun v _ a hmatch => ih v a hmatch
  | dict key item ihkey ihitem =>
      rintro _ d ⟨entries, pairs, rfl, hall, hlatest⟩ e he
      have hpairs : ∀ p ∈ pairs, key.Checked p.1 ∧ item.Checked p.2 :=
        forall_of_forall₂ hall fun e _ p hmatch =>
          ⟨ihkey e.1 p.1 hmatch.1, ihitem e.2 p.2 hmatch.2⟩
      exact hpairs e ((hlatest e).1 he).mem
  | coded base code meaning hcode hmeaning ih =>
      rintro v b ⟨a, hbase, hb⟩
      change base.Checked (code b)
      rw [hmeaning a b hb]
      exact ih v a hbase
  | mapOr left right ihleft ihright =>
      rintro v (a | b) ⟨_, hmatch⟩
      · exact ihleft v a hmatch
      · exact ihright v b hmatch
  | record name row toRow ofRow check hofRow htoRow ih =>
      rintro _ a ⟨items, r, rfl, _, hmatch, hr, hcheck⟩
      refine ⟨hcheck, ?_⟩
      rw [htoRow r a hr]
      exact ih items r hmatch
  | required name value rest ihvalue ihrest =>
      rintro _ ⟨a, r⟩ ⟨v, vs, rfl, hmatch, hrest⟩
      exact ⟨ihvalue v a hmatch, ihrest vs r hrest⟩
  | optional name value rest ihvalue ihrest =>
      rintro _ ⟨o, r⟩ ⟨v, vs, rfl, hmatch, hrest⟩
      refine ⟨?_, ihrest vs r hrest⟩
      rintro a ⟨⟩
      exact ihvalue v a hmatch

end DataGateway.Layout

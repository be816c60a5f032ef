import DataGateway.Proofs.Wire.Checking
import DataGateway.Proofs.Wire.Writing
import DataGateway.Wire.Record

/-!
# What can be read and written

Values stand for what was read whose lengths could be announced and whose dynamic fields did not
nest too deep, and that is all it takes to write it. `Legible` says so of what a layout describes.
A record is legible if it passes its check and its fields are legible, so that the parts of what was
read can be written elsewhere.
-/

namespace DataGateway

namespace Layout

open MessagePack (Value)

variable {g : Grade} {α ρ : Type} {l : Layout g α} {a : α}

/-- Values stand for what the layout describes that can be announced and do not nest too deep. -/
def Legible (l : Layout g α) (a : α) : Prop :=
  ∃ t, l.Matches t a ∧ l.Shallow t ∧ ∀ v ∈ g.forest t, v.Sized

theorem Legible.checked (h : l.Legible a) : l.Checked a := by
  obtain ⟨t, hmatch, _⟩ := h
  exact checked_of_matches l t a hmatch

theorem Legible.exists_write (h : l.Legible a) : ∃ bytes, (l.write a).result = .ok bytes := by
  obtain ⟨t, hmatch, _, hsized⟩ := h
  exact exists_write_of_matches l t a hmatch hsized

theorem Legible.dynamics (h : l.Legible a) :
    ∀ v ∈ l.dynamics a, v.depth ≤ Value.depthBudget ∧ v.Sized := by
  obtain ⟨t, hmatch, hshallow, hsized⟩ := h
  intro v hv
  have hfield := dynamics_subset l t a hmatch hv
  obtain ⟨c, hc, hpart⟩ := mem_parts_of_mem_dynamicFields l t v hfield
  exact ⟨hshallow v hfield, (hsized c hc).of_mem_parts hpart⟩

theorem legible_long (n : Int64) : long.Legible n := by
  have hval : (MessagePack.Integer.ofInt n.toInt).val = n.toInt :=
    MessagePack.Integer.val_ofInt n.le_toInt (by have := n.toInt_lt; omega)
  refine ⟨.integer (.ofInt n.toInt), ⟨_, rfl, hval⟩, long.shallow_of_isStatic rfl _, ?_⟩
  refine List.forall_mem_singleton.2 fun v hv => ?_
  rw [Value.parts_eq, List.mem_cons] at hv
  rcases hv with rfl | hv
  · exact Nat.two_pow_pos 32
  · cases hv

theorem legible_done : done.Legible () :=
  ⟨[], rfl, done.shallow_of_isStatic rfl _, fun _ h => absurd h List.not_mem_nil⟩

section

variable {item : Layout .value α} {rest : Layout .row ρ} {name : String}

theorem legible_required_iff {r : α × ρ} :
    (required name item rest).Legible r ↔ item.Legible r.1 ∧ rest.Legible r.2 := by
  obtain ⟨a, r⟩ := r
  constructor
  · rintro ⟨_, ⟨v, vs, rfl, hmatch, hrest⟩, hshallow, hsized⟩
    obtain ⟨hv, hvs⟩ := List.forall_mem_cons.1 hsized
    obtain ⟨hfield, hfields⟩ := List.forall_mem_append.1 hshallow
    exact ⟨⟨v, hmatch, hfield, List.forall_mem_singleton.2 hv⟩, vs, hrest, hfields, hvs⟩
  · rintro ⟨⟨v, hmatch, hfield, hv⟩, vs, hrest, hfields, hvs⟩
    exact ⟨v :: vs, ⟨v, vs, rfl, hmatch, hrest⟩, List.forall_mem_append.2 ⟨hfield, hfields⟩,
      List.forall_mem_append.2 ⟨hv, hvs⟩⟩

theorem Legible.of_optional {r : Option α × ρ} (h : (optional name item rest).Legible r) :
    (∀ a ∈ r.1, item.Legible a) ∧ rest.Legible r.2 := by
  obtain ⟨o, r⟩ := r
  obtain ⟨_, ⟨v, vs, rfl, hmatch, hrest⟩, hshallow, hsized⟩ := h
  obtain ⟨hv, hvs⟩ := List.forall_mem_cons.1 hsized
  obtain ⟨hfield, hfields⟩ := List.forall_mem_append.1 hshallow
  refine ⟨?_, vs, hrest, hfields, hvs⟩
  rintro a ⟨⟩
  exact ⟨v, hmatch, hfield, List.forall_mem_singleton.2 hv⟩

end

end Layout

open MessagePack (Value)

theorem Record.legible_iff {α : Type} {a : α} (r : Record α) (hcount : r.count < 2 ^ 32) :
    r.layout.Legible a ↔ r.check a = .ok () ∧ r.row.Legible (r.toRow a) := by
  constructor
  · rintro ⟨_, ⟨items, row, rfl, _, hmatch, hrow, hcheck⟩, hshallow, hsized⟩
    have hself := hsized _ (List.mem_singleton_self _)
    rw [r.toRow_ofRow row a hrow]
    exact ⟨hcheck, items, hmatch, hshallow, fun v hv => hself.of_mem_children hv⟩
  · rintro ⟨hcheck, items, hmatch, hshallow, hsized⟩
    have hlength := Layout.length_of_matches r.row hmatch
    refine ⟨.array items, ⟨items, _, rfl, hlength, hmatch, r.ofRow_toRow a hcheck, hcheck⟩,
      hshallow, List.forall_mem_singleton.2 fun v hv => ?_⟩
    rw [Value.parts_eq, List.mem_cons, Value.mem_partsItems] at hv
    rcases hv with rfl | ⟨w, hw, hv⟩
    · exact hlength.trans_lt hcount
    · exact hsized w hw v hv

end DataGateway

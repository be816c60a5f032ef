import DataGateway.Proofs.MessagePack.Normal
import DataGateway.Proofs.Wire.Writing

/-!
# How many values are written

The head of an array has to be written before its elements, so it announces a number that nobody has
counted yet: for a record, the number that goes with its type. `Written` says which values writing
puts down, and of every record, however deep, that its elements are as many as were announced. A
field that is left out is a nil, so it counts like any other.

Nothing is asked of dynamic values but that their lengths can be announced (`written`). A dynamic
string that is no text is put down as a binary, which is one value as well.
-/

namespace DataGateway

open MessagePack (Value Spells)

namespace Layout

/-- The records in a layout, itself included: how they are called and how many fields they have. -/
def records : {g : Grade} → {α : Type} → Layout g α → List (String × Nat)
  | _, _, list item => item.records
  | _, _, dict key item => key.records ++ item.records
  | _, _, coded base _ _ _ _ => base.records
  | _, _, mapOr left right => left.records ++ right.records
  | _, _, record name row _ _ _ _ _ => (name, row.count) :: row.records
  | _, _, required _ value rest => value.records ++ rest.records
  | _, _, optional _ value rest => value.records ++ rest.records
  | _, _, boolean | _, _, long | _, _, int | _, _, text | _, _, binary | _, _, dynamic
  | _, _, done => []

/-- The values that are put down for what a layout describes, where the elements of every record are
as many as is announced for its name. -/
def Written (announced : String → Nat → Prop) :
    {g : Grade} → {α : Type} → Layout g α → g.Trees → α → Prop
  | _, _, boolean => fun v b => v = .boolean b
  | _, _, long => fun v n => v = .integer (.ofInt n.toInt)
  | _, _, int => fun v n => v = .integer (.ofInt n.toInt)
  | _, _, text => fun v s => v = .ofString s
  | _, _, binary => fun v bytes => v = .binary bytes
  | _, _, dynamic => fun v w => v = w.normal
  | _, _, list item => fun v as =>
    ∃ items, v = .array items ∧ List.Forall₂ (item.Written announced) items as
  | _, _, dict key item => fun v d => ∃ entries, v = .map entries
      ∧ List.Forall₂ (fun e p => key.Written announced e.1 p.1 ∧ item.Written announced e.2 p.2)
          entries d.entries
  | _, _, coded base code _ _ _ => fun v b => base.Written announced v (code b)
  | _, _, mapOr left right => fun v => Sum.elim (left.Written announced v)
      (right.Written announced v)
  | _, _, record name row toRow _ _ _ _ => fun v a => ∃ items, v = .array items
      ∧ announced name items.length ∧ row.Written announced items (toRow a)
  | _, _, done => fun vs _ => vs = []
  | _, _, required _ value rest => fun vs (a, r) =>
      ∃ v ws, vs = v :: ws ∧ value.Written announced v a ∧ rest.Written announced ws r
  | _, _, optional _ value rest => fun vs (o, r) =>
      ∃ v ws, vs = v :: ws ∧ o.elim (v = .nil) (value.Written announced v)
        ∧ rest.Written announced ws r

variable {announced : String → Nat → Prop}

/-- One value is put down for each field of a row, whether it is left out or not. -/
theorem length_of_written {α : Type} : (l : Layout .row α) → {vs : List Value} → {r : α} →
    l.Written announced vs r → vs.length = l.count
  | done, vs, _, h => by
      rw [show vs = [] from h]
      rfl
  | required _ _ rest, _, (_, _), h => by
      obtain ⟨_, _, rfl, _, hrest⟩ := h
      rw [List.length_cons, rest.length_of_written hrest, count]
  | optional _ _ rest, _, (_, _), h => by
      obtain ⟨_, _, rfl, _, hrest⟩ := h
      rw [List.length_cons, rest.length_of_written hrest, count]

private theorem Written.list {α : Type} {item : Layout .value α} {as : List α} {bytes : Bytes}
    (hitem : ∀ a ∈ as, ∀ bytes, (item.write a).result = .ok bytes →
      ∃ v, Spells False [v] bytes ∧ item.Written announced v a)
    (hwrite : ((Layout.list item).write as).result = .ok bytes) :
    ∃ v, Spells False [v] bytes ∧ (Layout.list item).Written announced v as := by
  obtain ⟨head, body, hhead, hbody, rfl⟩ := Draft.arrayHead_append_eq_ok hwrite
  obtain ⟨items, hspells, hall⟩ := Draft.spells_of_concat ([·]) _ hitem hbody
  rw [List.flatMap_singleton'] at hspells
  rw [← hall.length_eq] at hhead
  exact ⟨.array items, Spells.one (.array hhead) hspells, items, rfl, hall⟩

private theorem Written.dict {κ α : Type} [Ord κ] [Std.TransOrd κ] {key : Layout .value κ}
    {item : Layout .value α} {d : Dict κ α} {bytes : Bytes}
    (hkey : ∀ e ∈ d.entries, ∀ bytes, (key.write e.1).result = .ok bytes →
      ∃ v, Spells False [v] bytes ∧ key.Written announced v e.1)
    (hitem : ∀ e ∈ d.entries, ∀ bytes, (item.write e.2).result = .ok bytes →
      ∃ v, Spells False [v] bytes ∧ item.Written announced v e.2)
    (hwrite : ((Layout.dict key item).write d).result = .ok bytes) :
    ∃ v, Spells False [v] bytes ∧ (Layout.dict key item).Written announced v d := by
  obtain ⟨head, body, hhead, hbody, rfl⟩ := Draft.mapHead_append_eq_ok hwrite
  obtain ⟨entries, hspells, hall⟩ := Draft.spells_of_concat
    (fun e : Value × Value => [e.1, e.2])
    (fun e p => key.Written announced e.1 p.1 ∧ item.Written announced e.2 p.2)
    (fun e he bytes hbytes => by
      obtain ⟨a, b, ha, hb, rfl⟩ := Draft.append_result_eq_ok.1 hbytes
      obtain ⟨k, hk, hkwritten⟩ := hkey e he a ha
      obtain ⟨v, hv, hvwritten⟩ := hitem e he b hb
      exact ⟨(k, v), hk.append hv, hkwritten, hvwritten⟩) hbody
  rw [← hall.length_eq] at hhead
  exact ⟨.map entries, Spells.one (.map hhead) hspells, entries, rfl, hall⟩

/-- The bytes that are written spell what is put down, if the number of fields of every record is
the one that is announced for its name. -/
theorem written {g : Grade} {α : Type} (l : Layout g α) (h : ∀ p ∈ l.records, announced p.1 p.2) :
    ∀ a bytes, (l.write a).result = .ok bytes → (∀ w ∈ l.dynamics a, w.Sized) →
      ∃ t, Spells False (g.forest t) bytes ∧ l.Written announced t a := by
  induction l with
  | boolean => exact fun b bytes hwrite _ => ⟨_, Draft.spells_boolean hwrite, rfl⟩
  | long =>
      intro n bytes hwrite _
      have hlow := n.le_toInt
      have hhigh := n.toInt_lt
      exact ⟨_, Draft.spells_integer (by omega) (by omega) hwrite, rfl⟩
  | int =>
      intro n bytes hwrite _
      have hlow := n.le_toInt
      have hhigh := n.toInt_lt
      exact ⟨_, Draft.spells_integer (by omega) (by omega) hwrite, rfl⟩
  | text => exact fun s bytes hwrite _ => ⟨_, Draft.spells_string hwrite, rfl⟩
  | binary => exact fun x bytes hwrite _ => ⟨_, Draft.spells_binary hwrite, rfl⟩
  | dynamic =>
      intro v bytes hwrite hsized
      obtain rfl := Except.ok.inj hwrite
      have hv := Value.sized_normal (hsized v (List.mem_singleton_self v))
      have hspells : Spells False [v.normal] v.normal.encode :=
        MessagePack.spells_encode (Value.textual_normal v) hv
      rw [Value.encode_normal] at hspells
      exact ⟨v.normal, hspells, rfl⟩
  | list item ih =>
      intro as bytes hwrite hsized
      exact Written.list (fun a ha bytes hbytes =>
        ih h a bytes hbytes (List.forall_mem_flatMap.1 hsized a ha)) hwrite
  | dict key item ihkey ihitem =>
      intro d bytes hwrite hsized
      obtain ⟨hkeys, hitems⟩ := List.forall_mem_append.1 h
      have hentries : ∀ e ∈ d.entries, _ := List.forall_mem_flatMap.1 hsized
      exact Written.dict
        (fun e he bytes hbytes =>
          ihkey hkeys e.1 bytes hbytes (List.forall_mem_append.1 (hentries e he)).1)
        (fun e he bytes hbytes =>
          ihitem hitems e.2 bytes hbytes (List.forall_mem_append.1 (hentries e he)).2) hwrite
  | coded base code meaning hcode hmeaning ih => exact fun b => ih h (code b)
  | mapOr left right ihleft ihright =>
      obtain ⟨hleft, hright⟩ := List.forall_mem_append.1 h
      rintro (a | b)
      · exact ihleft hleft a
      · exact ihright hright b
  | record name row toRow ofRow check hofRow htoRow ih =>
      intro a bytes hwrite hsized
      obtain ⟨hself, hrow⟩ := List.forall_mem_cons.1 h
      obtain ⟨_, head, body, hhead, hbody, rfl⟩ := record_write_eq_ok hwrite
      obtain ⟨items, hspells, hwritten⟩ := ih hrow (toRow a) body hbody hsized
      have hcount := row.length_of_written hwritten
      rw [← hcount] at hhead hself
      exact ⟨.array items, Spells.one (.array hhead) hspells, items, rfl, hself, hwritten⟩
  | done =>
      intro r bytes hwrite _
      obtain rfl := Except.ok.inj hwrite
      exact ⟨[], .nil, rfl⟩
  | required name value rest ihvalue ihrest =>
      obtain ⟨hvalue, hrest⟩ := List.forall_mem_append.1 h
      rintro ⟨a, r⟩ bytes hwrite hsized
      obtain ⟨x, y, hx, hy, rfl⟩ := Draft.append_result_eq_ok.1 hwrite
      obtain ⟨ha, hr⟩ := List.forall_mem_append.1 hsized
      obtain ⟨v, hv, hvwritten⟩ := ihvalue hvalue a x hx ha
      obtain ⟨vs, hvs, hvswritten⟩ := ihrest hrest r y hy hr
      exact ⟨v :: vs, hv.append hvs, v, vs, rfl, hvwritten, hvswritten⟩
  | optional name value rest ihvalue ihrest =>
      obtain ⟨hvalue, hrest⟩ := List.forall_mem_append.1 h
      rintro ⟨o, r⟩ bytes hwrite hsized
      obtain ⟨x, y, hx, hy, rfl⟩ := Draft.append_result_eq_ok.1 hwrite
      obtain ⟨ho, hr⟩ := List.forall_mem_append.1 hsized
      obtain ⟨vs, hvs, hvswritten⟩ := ihrest hrest r y hy hr
      cases o with
      | none =>
          obtain rfl := Except.ok.inj hx
          exact ⟨.nil :: vs, .cons .nil .nil hvs, .nil, vs, rfl, rfl, hvswritten⟩
      | some a =>
          obtain ⟨v, hv, hvwritten⟩ := ihvalue hvalue a x hx ho
          exact ⟨v :: vs, hv.append hvs, v, vs, rfl, hvwritten, hvswritten⟩

end Layout

end DataGateway

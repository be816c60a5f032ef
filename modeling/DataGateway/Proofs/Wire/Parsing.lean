import DataGateway.Proofs.Wire.Dynamic
import DataGateway.Proofs.Wire.Places

/-!
# Reading in one pass

Reading bytes within a layout means no more than this: the bytes taken spell values, and the layout
matches those. `sound` and `complete` are the two halves, and each rests on one induction over the
layout. They differ in two things only. The reserved byte is taken for a nil inside dynamic values,
though it spells none; and a dynamic field that nests too deep is spelled, though it is not read.
The induction behind `sound` says where in the bytes that can happen (`placed`): nowhere but inside
dynamic values.
-/

namespace DataGateway

open MessagePack (Value Family Spells Head Opening Cut)

namespace Layout

/-! ### Whatever is read matches -/

/-- What reading within a layout guarantees: the bytes taken come in one piece for each place, and
the layout matches the values that stand there. -/
def Placed : {g : Grade} → {α : Type} → Layout g α → Prop
  | .value, _, l => ∀ slot s o t, l.read slot s = .ok o t → o = none ∧ s = 0xc0 :: t ∨
      ∃ a front v, o = some a ∧ s = front ++ t ∧ Cut (l.places v) front ∧ l.Shallow v
        ∧ l.Matches v a
  | .row, _, l => ∀ owner s r t, l.read owner s = .ok r t →
      ∃ front vs, s = front ++ t ∧ Cut (l.places vs) front ∧ l.Shallow vs ∧ l.Matches vs r

private theorem Placed.of_takes {α : Type} {l : Layout .value α} {stands : α → Bytes → Prop}
    (htakes : ∀ slot, Reader.Takes (l.read slot) stands)
    (hstands : ∀ a front, stands a front → ∃ v, Opening False v front ∧ l.Matches v a)
    (hplaces : ∀ v, l.places v = [⟨v, false⟩]) (hshallow : ∀ v, l.Shallow v) : l.Placed := by
  intro slot s o t h
  rcases (htakes slot s o t).1 h with hnil | ⟨a, front, rfl, hfront, rfl⟩
  · exact .inl hnil
  · obtain ⟨v, hopening, hmatch⟩ := hstands a front hfront
    refine .inr ⟨a, front, v, rfl, rfl, ?_, hshallow v, hmatch⟩
    rw [hplaces]
    exact .one hopening

theorem Placed.required {α : Type} {l : Layout .value α} (h : l.Placed) {slot : Slot}
    {s t : Bytes} {a : α} (hread : Reader.required l.read slot s = .ok a t) :
    ∃ front v, s = front ++ t ∧ Cut (l.places v) front ∧ l.Shallow v ∧ l.Matches v a := by
  rcases h slot s _ t (Reader.required_eq_ok.1 hread) with ⟨hnone, _⟩ | ⟨b, front, v, hb, h⟩
  · cases hnone
  · obtain rfl := Option.some.inj hb
    exact ⟨front, v, h⟩

private theorem Placed.dynamic : Layout.dynamic.Placed := by
  intro slot s o t h
  obtain ⟨v, hread, rfl⟩ := Reader.map_eq_ok.1 h
  obtain ⟨hdepth, front, rfl, hcut⟩ := Value.cut_of_read hread
  refine .inr ⟨v, front, v, rfl, rfl, hcut, ?_, rfl⟩
  intro w hw
  rw [List.mem_singleton.1 hw]
  exact hdepth

private theorem Placed.list {α : Type} {item : Layout .value α} (h : item.Placed) :
    (Layout.list item).Placed := by
  intro slot s o t hlist
  obtain ⟨n, r, hlength, hlist⟩ := Reader.bind_eq_ok.1 hlist
  rcases (Reader.arrayLength_takes slot s n r).1 hlength with ⟨rfl, rfl⟩ | ⟨n, head, rfl, hhead, hs⟩
  · obtain ⟨rfl, rfl⟩ := Reader.pure_eq_ok.1 hlist
    exact .inl ⟨rfl, rfl⟩
  · obtain ⟨as, hitems, rfl⟩ := Reader.map_eq_ok.1 hlist
    obtain ⟨hcount, body, vs, rfl, hbody, hall⟩ :=
      Reader.taken_of_times Cut.nil Cut.append item.places _ (fun _ _ _ ha => h.required ha) hitems
    obtain ⟨hshallow, hmatch⟩ := (List.forall₂_and_left _ _).1 hall
    rw [← hcount, ← hmatch.length_eq] at hhead
    refine .inr ⟨as, head ++ body, .array vs, rfl, ?_, .cons (.array hhead) hbody,
      shallow_list_iff.2 hshallow, vs, rfl, hmatch⟩
    rw [hs, List.append_assoc]

private theorem Placed.dict {κ α : Type} [Ord κ] [Std.TransOrd κ] {key : Layout .value κ}
    {item : Layout .value α} (hkey : key.Placed) (hitem : item.Placed) :
    (Layout.dict key item).Placed := by
  intro slot s o t hdict
  obtain ⟨n, r, hlength, hdict⟩ := Reader.bind_eq_ok.1 hdict
  rcases (Reader.mapLength_takes slot s n r).1 hlength with ⟨rfl, rfl⟩ | ⟨n, head, rfl, hhead, hs⟩
  · obtain ⟨rfl, rfl⟩ := Reader.pure_eq_ok.1 hdict
    exact .inl ⟨rfl, rfl⟩
  · obtain ⟨pairs, r, hpairs, hdict⟩ := Reader.bind_eq_ok.1 hdict
    obtain ⟨rfl, rfl⟩ := Reader.pure_eq_ok.1 hdict
    obtain ⟨hcount, body, entries, rfl, hbody, hall⟩ :=
      Reader.taken_of_times Cut.nil Cut.append
        (fun e : Value × Value => key.places e.1 ++ item.places e.2)
        (fun e p => (key.Shallow e.1 ∧ item.Shallow e.2)
          ∧ key.Matches e.1 p.1 ∧ item.Matches e.2 p.2)
        (fun s p t hp => by
          simp only [Reader.bind_eq_ok, Reader.pure_eq_ok] at hp
          obtain ⟨k, _, hk, v, _, hv, rfl, rfl⟩ := hp
          obtain ⟨front, a, rfl, hfront, hshallowa, ha⟩ := hkey.required hk
          obtain ⟨back, b, rfl, hback, hshallowb, hb⟩ := hitem.required hv
          exact ⟨front ++ back, (a, b), (List.append_assoc ..).symm, hfront.append hback,
            ⟨hshallowa, hshallowb⟩, ha, hb⟩)
        hpairs
    obtain ⟨hshallow, hmatch⟩ := (List.forall₂_and_left _ _).1 hall
    rw [← hcount, ← hmatch.length_eq] at hhead
    refine .inr ⟨_, head ++ body, .map entries, rfl, ?_, .cons (.map hhead) hbody,
      shallow_dict_iff.2 hshallow, entries, pairs, rfl, hmatch, fun e => Dict.mem_ofList_iff⟩
    rw [hs, List.append_assoc]

private theorem Placed.coded {α β : Type} {base : Layout .value α} {code : β → α}
    {meaning : α → Except ProtocolError β} {hcode : ∀ b, meaning (code b) = .ok b}
    {hmeaning : ∀ a b, meaning a = .ok b → code b = a} (h : base.Placed) :
    (Layout.coded base code meaning hcode hmeaning).Placed := by
  intro slot s o t hread
  obtain ⟨x, r, hbase, hread⟩ := Reader.bind_eq_ok.1 hread
  rcases h slot s x r hbase with ⟨rfl, hs⟩ | ⟨a, front, v, rfl, hs, hfront, hshallow, hmatch⟩
  · obtain ⟨rfl, rfl⟩ := Reader.pure_eq_ok.1 hread
    exact .inl ⟨rfl, hs⟩
  · obtain ⟨b, hmeant, rfl⟩ := Reader.map_eq_ok.1 hread
    obtain ⟨hb, rfl⟩ := Reader.ofExcept_eq_ok.1 hmeant
    exact .inr ⟨b, front, v, rfl, hs, hfront, hshallow, a, hmatch, hb⟩

private theorem Placed.mapOr {α β : Type} {left : Layout .value α} {right : Layout .value β}
    (hleft : left.Placed) (hright : right.Placed) : (Layout.mapOr left right).Placed := by
  intro slot s o t hread
  obtain ⟨marker, _, hpeek, hread⟩ := Reader.bind_eq_ok.1 hread
  obtain ⟨rfl, b, r, hs, hb⟩ := Reader.peek_eq_ok.1 hpeek
  split at hread
  · rename_i hmap
    obtain ⟨x, hx, rfl⟩ := Reader.map_eq_ok.1 hread
    rcases hleft slot s x t hx with ⟨rfl, hnil⟩ | ⟨a, front, v, rfl, rfl, hfront, hshallow, hmatch⟩
    · exact .inl ⟨rfl, hnil⟩
    · have hspells : Spells True [v] front := hfront.spells (left.map_value_places v a hmatch)
      have hfamily : v.family = .map := by rw [hspells.family_eq hs hb, hmap]
      refine .inr ⟨.inl a, front, v, rfl, rfl, ?_, ?_, hfamily, hmatch⟩
      · rwa [places_mapOr, if_pos hfamily]
      · rwa [shallow_mapOr_iff, if_pos hfamily]
  · rename_i hmap
    obtain ⟨x, hx, rfl⟩ := Reader.map_eq_ok.1 hread
    rcases hright slot s x t hx with ⟨rfl, hnil⟩ | ⟨a, front, v, rfl, rfl, hfront, hshallow, hmatch⟩
    · exact .inl ⟨rfl, hnil⟩
    · have hspells : Spells True [v] front := hfront.spells (right.map_value_places v a hmatch)
      have hfamily : v.family ≠ .map := by
        rw [hspells.family_eq hs hb]
        exact hmap
      refine .inr ⟨.inr a, front, v, rfl, rfl, ?_, ?_, hfamily, hmatch⟩
      · rwa [places_mapOr, if_neg hfamily]
      · rwa [shallow_mapOr_iff, if_neg hfamily]

private theorem Placed.record {ρ α : Type} {name : String} {row : Layout .row ρ} {toRow : α → ρ}
    {ofRow : ρ → Except ProtocolError α} {check : α → Except ProtocolError Unit}
    {hofRow : ∀ a, check a = .ok () → ofRow (toRow a) = .ok a}
    {htoRow : ∀ r a, ofRow r = .ok a → toRow a = r} (h : row.Placed) :
    (Layout.record name row toRow ofRow check hofRow htoRow).Placed := by
  intro slot s o t hread
  rcases (Reader.typed_length_eq_ok (rfl : Family.array.widest = 4)).1 hread with
    hnil | ⟨n, head, r, a, hhead, rfl, hfields, rfl⟩
  · exact .inl hnil
  · split at hfields
    · obtain ⟨_, _, hthrow, _⟩ := Reader.bind_eq_ok.1 hfields
      exact (Reader.throw_eq_ok.1 hthrow).elim
    · rename_i hn
      simp only [Reader.bind_eq_ok, Reader.ofExcept_eq_ok, Reader.pure_eq_ok] at hfields
      obtain ⟨x, _, hrow, b, _, ⟨hb, rfl⟩, _, _, ⟨hcheck, rfl⟩, rfl, rfl⟩ := hfields
      obtain ⟨body, vs, rfl, hbody, hshallow, hmatch⟩ := h name r x _ hrow
      have hlength := length_of_matches row hmatch
      rw [not_not.1 hn, ← hlength] at hhead
      exact .inr ⟨b, head ++ body, .array vs, rfl, (List.append_assoc ..).symm,
        .cons (.array hhead) hbody, hshallow, vs, x, rfl, hlength, hmatch, hb, hcheck⟩

/-- Whatever is read within a layout is cut at its places and matches it. -/
theorem placed {g : Grade} {α : Type} (l : Layout g α) : l.Placed := by
  induction l with
  | boolean =>
      refine Placed.of_takes Reader.boolean_takes ?_ (fun _ => rfl) (shallow_of_isStatic _ rfl)
      rintro _ front ⟨n, hhead, rfl⟩
      exact ⟨_, .boolean hhead, rfl⟩
  | long =>
      refine Placed.of_takes Reader.long_takes ?_ (fun _ => rfl) (shallow_of_isStatic _ rfl)
      intro n front hhead
      have hval := MessagePack.Integer.val_ofInt hhead.integer_bounds.1 hhead.integer_bounds.2
      exact ⟨.integer (.ofInt n.toInt), .integer (by rwa [hval]), _, rfl, hval⟩
  | int =>
      refine Placed.of_takes Reader.int_takes ?_ (fun _ => rfl) (shallow_of_isStatic _ rfl)
      intro n front hhead
      have hval := MessagePack.Integer.val_ofInt hhead.integer_bounds.1 hhead.integer_bounds.2
      exact ⟨.integer (.ofInt n.toInt), .integer (by rwa [hval]), _, rfl, hval⟩
  | text =>
      refine Placed.of_takes Reader.text_takes ?_ (fun _ => rfl) (shallow_of_isStatic _ rfl)
      rintro x _ ⟨head, hhead, rfl⟩
      exact ⟨_, .string hhead, rfl⟩
  | binary =>
      refine Placed.of_takes Reader.binary_takes ?_ (fun _ => rfl) (shallow_of_isStatic _ rfl)
      rintro bytes _ ⟨head, hhead, rfl⟩
      exact ⟨_, .binary hhead, rfl⟩
  | dynamic => exact Placed.dynamic
  | list item ih => exact Placed.list ih
  | dict key item ihkey ihitem => exact Placed.dict ihkey ihitem
  | coded base code meaning hcode hmeaning ih => exact Placed.coded ih
  | mapOr left right ihleft ihright => exact Placed.mapOr ihleft ihright
  | record name row toRow ofRow check hofRow htoRow ih => exact Placed.record ih
  | done =>
      intro owner s r t h
      obtain ⟨rfl, rfl⟩ := Reader.pure_eq_ok.1 h
      exact ⟨[], [], rfl, .nil, by simp [Shallow, dynamicFields], rfl⟩
  | required name value rest ihvalue ihrest =>
      intro owner s r t h
      simp only [read, Reader.bind_eq_ok, Reader.pure_eq_ok] at h
      obtain ⟨a, _, ha, r, _, hr, rfl, rfl⟩ := h
      obtain ⟨front, v, rfl, hfront, hshallow, hmatch⟩ := ihvalue.required ha
      obtain ⟨back, vs, rfl, hback, hrest, hmatches⟩ := ihrest owner _ r _ hr
      exact ⟨front ++ back, v :: vs, (List.append_assoc ..).symm, hfront.append hback,
        List.forall_mem_append.2 ⟨hshallow, hrest⟩, v, vs, rfl, hmatch, hmatches⟩
  | optional name value rest ihvalue ihrest =>
      intro owner s r t h
      simp only [read, Reader.bind_eq_ok, Reader.pure_eq_ok] at h
      obtain ⟨o, _, ho, r, _, hr, rfl, rfl⟩ := h
      obtain ⟨back, vs, rfl, hback, hrest, hmatches⟩ := ihrest owner _ r _ hr
      rcases ihvalue _ s o _ ho with ⟨rfl, rfl⟩ | ⟨a, front, v, rfl, rfl, hfront, hshallow, hmatch⟩
      · refine ⟨0xc0 :: back, .nil :: vs, rfl, ?_,
          List.forall_mem_append.2 ⟨value.shallow_nil, hrest⟩, .nil, vs, rfl, rfl, hmatches⟩
        have hcut : Cut (value.places .nil ++ rest.places vs) ([0xc0] ++ back) := by
          rw [places_nil]
          exact Cut.append (.one .nil) hback
        exact hcut
      · exact ⟨front ++ back, v :: vs, (List.append_assoc ..).symm, hfront.append hback,
          List.forall_mem_append.2 ⟨hshallow, hrest⟩, v, vs, rfl, hmatch, hmatches⟩

/-- What follows for the values: the bytes taken spell values that match. -/
def Sound : {g : Grade} → {α : Type} → Layout g α → Prop
  | .value, _, l => ∀ slot s o t, l.read slot s = .ok o t → o = none ∧ s = 0xc0 :: t ∨
      ∃ a front v, o = some a ∧ s = front ++ t ∧ Spells True [v] front ∧ l.Shallow v ∧ l.Matches v a
  | .row, _, l => ∀ owner s r t, l.read owner s = .ok r t →
      ∃ front vs, s = front ++ t ∧ Spells True vs front ∧ l.Shallow vs ∧ l.Matches vs r

theorem Sound.required {α : Type} {l : Layout .value α} (h : l.Sound) {slot : Slot}
    {s t : Bytes} {a : α} (hread : Reader.required l.read slot s = .ok a t) :
    ∃ front v, s = front ++ t ∧ Spells True [v] front ∧ l.Shallow v ∧ l.Matches v a := by
  rcases h slot s _ t (Reader.required_eq_ok.1 hread) with ⟨hnone, _⟩ | ⟨b, front, v, hb, h⟩
  · cases hnone
  · obtain rfl := Option.some.inj hb
    exact ⟨front, v, h⟩

/-- Whatever is read within a layout matches it. -/
theorem sound {g : Grade} {α : Type} (l : Layout g α) : l.Sound := by
  have hplaced := l.placed
  cases g with
  | value =>
      intro slot s o t h
      rcases hplaced slot s o t h with hnil | ⟨a, front, v, ho, hs, hfront, hshallow, hmatch⟩
      · exact .inl hnil
      · exact .inr ⟨a, front, v, ho, hs, hfront.spells (l.map_value_places v a hmatch), hshallow,
          hmatch⟩
  | row =>
      intro owner s r t h
      obtain ⟨front, vs, hs, hfront, hshallow, hmatch⟩ := hplaced owner s r t h
      exact ⟨front, vs, hs, hfront.spells (l.map_value_places vs r hmatch), hshallow, hmatch⟩

/-! ### Whatever matches is read -/

/-- What reading within a layout is complete for: spellings of values that match, in which no
dynamic field nests too deep. -/
def Complete : {g : Grade} → {α : Type} → Layout g α → Prop
  | .value, _, l => ∀ slot v a front t, l.Matches v a → l.Shallow v → Spells False [v] front →
      l.read slot (front ++ t) = .ok (some a) t
  | .row, _, l => ∀ owner vs r front t, l.Matches vs r → l.Shallow vs → Spells False vs front →
      l.read owner (front ++ t) = .ok r t

private theorem Complete.of_takes {α : Type} {l : Layout .value α} {stands : α → Bytes → Prop}
    (htakes : ∀ slot, Reader.Takes (l.read slot) stands)
    (hstands : ∀ v a front, l.Matches v a → Opening False v front →
      v.children = [] ∧ stands a front) : l.Complete := by
  rintro slot v a front t hmatch _ (_ | ⟨opening, inside, rest⟩)
  obtain ⟨hchildren, hfront⟩ := hstands v a _ hmatch opening
  rw [hchildren] at inside
  rw [Spells.nil_iff.1 inside, Spells.nil_iff.1 rest, List.append_nil]
  exact (htakes slot _ _ t).2 (.inr ⟨a, _, rfl, hfront, by simp⟩)

/-- A field left out is nil, which a layout that does not describe nil reads as nothing. -/
theorem read_nil {α : Type} : (l : Layout .value α) → .nil ∉ l.families → (slot : Slot) →
    (t : Bytes) → l.read slot (0xc0 :: t) = .ok none t
  | boolean, _, slot, t => (Reader.boolean_takes slot _ _ t).2 (.inl ⟨rfl, rfl⟩)
  | long, _, slot, t => (Reader.long_takes slot _ _ t).2 (.inl ⟨rfl, rfl⟩)
  | int, _, slot, t => (Reader.int_takes slot _ _ t).2 (.inl ⟨rfl, rfl⟩)
  | text, _, slot, t => (Reader.text_takes slot _ _ t).2 (.inl ⟨rfl, rfl⟩)
  | binary, _, slot, t => (Reader.binary_takes slot _ _ t).2 (.inl ⟨rfl, rfl⟩)
  | dynamic, h, _, _ => absurd List.mem_cons_self h
  | list _, _, slot, t => Reader.bind_eq_ok.2 ⟨none, t,
      (Reader.arrayLength_takes slot _ _ t).2 (.inl ⟨rfl, rfl⟩), Reader.pure_eq_ok.2 ⟨rfl, rfl⟩⟩
  | dict _ _, _, slot, t => Reader.bind_eq_ok.2 ⟨none, t,
      (Reader.mapLength_takes slot _ _ t).2 (.inl ⟨rfl, rfl⟩), Reader.pure_eq_ok.2 ⟨rfl, rfl⟩⟩
  | coded base _ _ _ _, h, slot, t =>
      Reader.bind_eq_ok.2 ⟨none, t, base.read_nil h slot t, Reader.pure_eq_ok.2 ⟨rfl, rfl⟩⟩
  | mapOr _ right, h, slot, t => by
      have hright : .nil ∉ right.families := fun hmem => h (List.mem_append_right _ hmem)
      refine Reader.bind_eq_ok.2 ⟨⟨.nil, .here 0⟩, _, Reader.peek_eq_ok.2 ⟨rfl, _, _, rfl, rfl⟩, ?_⟩
      exact Reader.map_eq_ok.2 ⟨none, right.read_nil hright slot t, rfl⟩
  | record .., _, _, _ =>
      (Reader.typed_length_eq_ok (rfl : Family.array.widest = 4)).2 (.inl ⟨rfl, rfl⟩)

/-- A field that may be left out is read, whether it is there or not. -/
theorem Complete.field {α : Type} {l : Layout .value α} (h : l.Complete) (hnil : .nil ∉ l.families)
    {o : Option α} {v : Value} (hmatch : o.elim (v = .nil) (l.Matches v)) (hshallow : l.Shallow v)
    {front : Bytes} (hfront : Spells False [v] front) (slot : Slot) (t : Bytes) :
    l.read slot (front ++ t) = .ok o t := by
  cases o with
  | none =>
      rw [show v = .nil from hmatch] at hfront
      rw [Spells.eq_of_nil hfront]
      exact l.read_nil hnil slot t
  | some a => exact h slot v a front t hmatch hshallow hfront

private theorem Complete.list {α : Type} {item : Layout .value α} (h : item.Complete) :
    (Layout.list item).Complete := by
  rintro slot _ as _ t ⟨items, rfl, hall⟩ hshallow
    (_ | @⟨_, _, head, body, _, opening, inside, rest⟩)
  cases opening with
  | array hhead =>
  rw [Spells.nil_iff.1 rest, List.append_nil, List.append_assoc]
  rw [hall.length_eq] at hhead
  have hread : Reader.times as.length (Reader.required item.read slot) (body ++ t) = .ok as t :=
    Reader.times_of_spells ([·]) (fun v a => item.Shallow v ∧ item.Matches v a)
      (fun v a front t hv hfront =>
        Reader.required_eq_ok.2 (h slot v a front t hv.2 hv.1 hfront))
      ((List.forall₂_and_left _ _).2 ⟨shallow_list_iff.1 hshallow, hall⟩)
      (by rwa [List.flatMap_singleton'])
  exact Reader.bind_eq_ok.2 ⟨some as.length, _,
    (Reader.arrayLength_takes slot _ _ _).2 (.inr ⟨_, _, rfl, hhead, rfl⟩),
    Reader.map_eq_ok.2 ⟨as, hread, rfl⟩⟩

private theorem Complete.dict {κ α : Type} [Ord κ] [Std.TransOrd κ] {key : Layout .value κ}
    {item : Layout .value α} (hkey : key.Complete) (hitem : item.Complete) :
    (Layout.dict key item).Complete := by
  rintro slot _ d _ t ⟨entries, pairs, rfl, hall, hlatest⟩ hshallow
    (_ | @⟨_, _, head, body, _, opening, inside, rest⟩)
  cases opening with
  | map hhead =>
  rw [Spells.nil_iff.1 rest, List.append_nil, List.append_assoc]
  rw [hall.length_eq] at hhead
  have hread : Reader.times pairs.length (do
      let k ← Reader.required key.read slot
      let v ← Reader.required item.read slot
      return (k, v)) (body ++ t) = .ok pairs t := by
    refine Reader.times_of_spells (fun e : Value × Value => [e.1, e.2])
      (fun e p => (key.Shallow e.1 ∧ item.Shallow e.2)
        ∧ key.Matches e.1 p.1 ∧ item.Matches e.2 p.2) ?_ ?_ inside
    · rintro e p front t ⟨⟨hk, hv⟩, hmatchk, hmatchv⟩ hfront
      obtain ⟨a, b, rfl, ha, hb⟩ := Spells.cons_iff.1 hfront
      simp only [Reader.bind_eq_ok, Reader.pure_eq_ok, List.append_assoc]
      exact ⟨_, _, Reader.required_eq_ok.2 (hkey slot _ _ a (b ++ t) hmatchk hk ha), _, _,
        Reader.required_eq_ok.2 (hitem slot _ _ b t hmatchv hv hb), rfl, rfl⟩
    · exact (List.forall₂_and_left _ _).2 ⟨shallow_dict_iff.1 hshallow, hall⟩
  rw [Dict.eq_ofList_iff.2 hlatest]
  exact Reader.bind_eq_ok.2 ⟨some pairs.length, _,
    (Reader.mapLength_takes slot _ _ _).2 (.inr ⟨_, _, rfl, hhead, rfl⟩),
    Reader.bind_eq_ok.2 ⟨pairs, t, hread, Reader.pure_eq_ok.2 ⟨rfl, rfl⟩⟩⟩

private theorem Complete.mapOr {α β : Type} {left : Layout .value α} {right : Layout .value β}
    (hleft : left.Complete) (hright : right.Complete) : (Layout.mapOr left right).Complete := by
  intro slot v x front t hmatch hshallow hfront
  obtain ⟨b, marker, r, rfl, hb, hfamily⟩ := hfront.begins
  refine Reader.bind_eq_ok.2 ⟨marker, _, Reader.peek_eq_ok.2 ⟨rfl, b, r ++ t, rfl, hb⟩, ?_⟩
  rw [hfamily]
  cases x with
  | inl a =>
      obtain ⟨hmap, hmatch⟩ := hmatch
      rw [shallow_mapOr_iff, if_pos hmap] at hshallow
      rw [if_pos hmap]
      exact Reader.map_eq_ok.2 ⟨some a, hleft slot v a _ t hmatch hshallow hfront, rfl⟩
  | inr a =>
      obtain ⟨hmap, hmatch⟩ := hmatch
      rw [shallow_mapOr_iff, if_neg hmap] at hshallow
      rw [if_neg hmap]
      exact Reader.map_eq_ok.2 ⟨some a, hright slot v a _ t hmatch hshallow hfront, rfl⟩

private theorem Complete.record {ρ α : Type} {name : String} {row : Layout .row ρ} {toRow : α → ρ}
    {ofRow : ρ → Except ProtocolError α} {check : α → Except ProtocolError Unit}
    {hofRow : ∀ a, check a = .ok () → ofRow (toRow a) = .ok a}
    {htoRow : ∀ r a, ofRow r = .ok a → toRow a = r} (h : row.Complete) :
    (Layout.record name row toRow ofRow check hofRow htoRow).Complete := by
  rintro slot _ a front t ⟨items, r, rfl, hcount, hmatch, hr, hcheck⟩ hshallow
    (_ | ⟨opening, inside, rest⟩)
  cases opening with
  | array hhead =>
  rw [Spells.nil_iff.1 rest, List.append_nil, List.append_assoc]
  refine (Reader.typed_length_eq_ok (rfl : Family.array.widest = 4)).2
    (.inr ⟨items.length, _, _, a, hhead, rfl, ?_, rfl⟩)
  rw [if_neg (not_not.2 hcount)]
  simp only [Reader.bind_eq_ok, Reader.ofExcept_eq_ok, Reader.pure_eq_ok]
  exact ⟨r, t, h name items r _ t hmatch hshallow inside, a, t, ⟨hr, rfl⟩, (), t, ⟨hcheck, rfl⟩,
    rfl, rfl⟩

/-- Whatever matches an unambiguous layout is read within it, in any spelling. -/
theorem complete {g : Grade} {α : Type} (l : Layout g α) (h : l.unambiguous) : l.Complete := by
  induction l with
  | boolean =>
      refine Complete.of_takes Reader.boolean_takes ?_
      rintro _ b front rfl hopening
      cases hopening with
      | boolean hhead => exact ⟨rfl, _, hhead, rfl⟩
  | long =>
      refine Complete.of_takes Reader.long_takes ?_
      rintro _ n front ⟨i, rfl, hval⟩ hopening
      cases hopening with
      | integer hhead => exact ⟨rfl, by rwa [← hval]⟩
  | int =>
      refine Complete.of_takes Reader.int_takes ?_
      rintro _ n front ⟨i, rfl, hval⟩ hopening
      cases hopening with
      | integer hhead => exact ⟨rfl, by rwa [← hval]⟩
  | text =>
      refine Complete.of_takes Reader.text_takes ?_
      rintro _ x front rfl hopening
      cases hopening with
      | string hhead => exact ⟨rfl, _, hhead, rfl⟩
  | binary =>
      refine Complete.of_takes Reader.binary_takes ?_
      rintro _ bytes front rfl hopening
      cases hopening with
      | binary hhead => exact ⟨rfl, _, hhead, rfl⟩
  | dynamic =>
      rintro slot _ v front t rfl hshallow hfront
      have hdepth := hshallow _ (List.mem_singleton_self _)
      exact Reader.map_eq_ok.2 ⟨_, Value.read_of_spells hdepth hfront t, rfl⟩
  | list item ih => exact Complete.list (ih h)
  | dict key item ihkey ihitem =>
      obtain ⟨hkey, hitem⟩ := Bool.and_eq_true_iff.1 h
      exact Complete.dict (ihkey hkey) (ihitem hitem)
  | coded base code meaning hcode hmeaning ih =>
      rintro slot v b front t ⟨a, hmatch, hb⟩ hshallow hfront
      refine Reader.bind_eq_ok.2 ⟨some a, t, ih h slot v a front t hmatch hshallow hfront, ?_⟩
      exact Reader.map_eq_ok.2 ⟨b, Reader.ofExcept_eq_ok.2 ⟨hb, rfl⟩, rfl⟩
  | mapOr left right ihleft ihright =>
      simp only [unambiguous, Bool.and_eq_true] at h
      exact Complete.mapOr (ihleft h.1.1.1) (ihright h.1.1.2)
  | record name row toRow ofRow check hofRow htoRow ih => exact Complete.record (ih h)
  | done =>
      rintro owner _ r front t rfl _ hfront
      rw [Spells.nil_iff.1 hfront]
      exact Reader.pure_eq_ok.2 ⟨rfl, rfl⟩
  | required name value rest ihvalue ihrest =>
      obtain ⟨hvalue, hrest⟩ := Bool.and_eq_true_iff.1 h
      rintro owner _ ⟨a, r⟩ front t ⟨v, vs, rfl, hmatch, hmatches⟩ hshallow hfront
      obtain ⟨hv, hvs⟩ := List.forall_mem_append.1 hshallow
      obtain ⟨x, y, rfl, hx, hy⟩ := Spells.cons_iff.1 hfront
      simp only [read, Reader.bind_eq_ok, Reader.pure_eq_ok, List.append_assoc]
      exact ⟨a, y ++ t, Reader.required_eq_ok.2 (ihvalue hvalue _ v a x _ hmatch hv hx), r, t,
        ihrest hrest owner vs r y t hmatches hvs hy, rfl, rfl⟩
  | optional name value rest ihvalue ihrest =>
      simp only [unambiguous, Bool.and_eq_true, decide_eq_true_eq] at h
      obtain ⟨⟨hvalue, hrest⟩, hnil⟩ := h
      rintro owner _ ⟨o, r⟩ front t ⟨v, vs, rfl, hmatch, hmatches⟩ hshallow hfront
      obtain ⟨hv, hvs⟩ := List.forall_mem_append.1 hshallow
      obtain ⟨x, y, rfl, hx, hy⟩ := Spells.cons_iff.1 hfront
      simp only [read, Reader.bind_eq_ok, Reader.pure_eq_ok, List.append_assoc]
      exact ⟨o, y ++ t, (ihvalue hvalue).field hnil hmatch hv hx _ _, r, t,
        ihrest hrest owner vs r y t hmatches hvs hy, rfl, rfl⟩

end Layout

end DataGateway

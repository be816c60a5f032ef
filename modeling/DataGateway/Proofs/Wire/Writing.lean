import DataGateway.Proofs.Wire.Dynamic
import DataGateway.Proofs.Wire.Matching

/-!
# What a layout writes

What is written within a layout spells values that the layout matches, so it can be read back; this
is `faithful`. In the other direction nothing that matches is refused: an encoder makes no
check that was not made when the value was read, and the lengths it has to announce were announced
before. This is `exists_write_of_matches`.
-/

namespace DataGateway

open MessagePack (Value Spells Opening Head)

namespace Draft

theorem append_result_eq_ok {a b : Draft} {bytes : Bytes} :
    (a ++ b).result = .ok bytes ↔
      ∃ x y, a.result = .ok x ∧ b.result = .ok y ∧ bytes = x ++ y := by
  rw [result_append]
  cases ha : a.result with
  | error e => simp [bind, Except.bind]
  | ok x =>
      cases hb : b.result with
      | error e => simp [bind, Except.bind]
      | ok y => simp [bind, Except.bind, pure, Except.pure, eq_comm]

theorem check_result_eq_ok {x : Except ProtocolError Unit} {bytes : Bytes} :
    (check x).result = .ok bytes ↔ x = .ok () ∧ bytes = [] := by
  cases x with
  | ok u => simp [check, empty, result, eq_comm]
  | error e => simp [check, refuse, result]

theorem measured_result_eq_ok {length : Nat} {x bytes : Bytes} :
    (measured length x).result = .ok bytes ↔ length < 2 ^ 32 ∧ x = bytes := by
  unfold measured
  split
  · rename_i hlarge
    simp only [refuse, result, reduceCtorEq, false_iff, not_and]
    intro hsmall
    simp only [MessagePack.maxLength] at hlarge
    omega
  · rename_i hsmall
    have hlength : length < 2 ^ 32 := by
      simp only [MessagePack.maxLength] at hsmall
      omega
    simp only [result, Except.ok.injEq, hlength, true_and]

theorem exists_append {a b : Draft} (ha : ∃ x, a.result = .ok x) (hb : ∃ y, b.result = .ok y) :
    ∃ bytes, (a ++ b).result = .ok bytes := by
  obtain ⟨⟨x, hx⟩, y, hy⟩ := And.intro ha hb
  exact ⟨x ++ y, append_result_eq_ok.2 ⟨x, y, hx, hy, rfl⟩⟩

theorem exists_measured {length : Nat} (h : length < 2 ^ 32) (bytes : Bytes) :
    ∃ x, (measured length bytes).result = .ok x :=
  ⟨bytes, measured_result_eq_ok.2 ⟨h, rfl⟩⟩

theorem concat_cons (d : Draft) (ds : List Draft) : concat (d :: ds) = d ++ concat ds := rfl

/-! ### What drafts spell -/

section

variable {reserved : Prop} {bytes : Bytes}

theorem spells_boolean {b : Bool} (h : (boolean b).result = .ok bytes) :
    Spells reserved [.boolean b] bytes := by
  obtain rfl := Except.ok.inj h
  have hb : ((if b then 1 else 0 : Int) != 0) = b := by cases b <;> rfl
  have hopening : Opening reserved _ _ := .boolean (MessagePack.boolean_head b)
  rw [hb] at hopening
  exact .leaf hopening rfl

theorem spells_integer {n : Int} (hlow : -0x8000000000000000 ≤ n) (hhigh : n < 0x10000000000000000)
    (h : (integer n).result = .ok bytes) : Spells reserved [.integer (.ofInt n)] bytes := by
  obtain rfl := Except.ok.inj h
  have hhead := MessagePack.integer_head hlow hhigh
  exact .leaf (.integer (by rwa [MessagePack.Integer.val_ofInt hlow hhigh])) rfl

theorem spells_string {octets : Bytes} (h : (string octets).result = .ok bytes) :
    Spells reserved [.string octets] bytes := by
  obtain ⟨hlength, rfl⟩ := measured_result_eq_ok.1 h
  exact .leaf (.string (MessagePack.stringHead_head hlength)) rfl

theorem spells_binary {body : Bytes} (h : (binary body).result = .ok bytes) :
    Spells reserved [.binary body] bytes := by
  obtain ⟨hlength, rfl⟩ := measured_result_eq_ok.1 h
  exact .leaf (.binary (MessagePack.binaryHead_head hlength)) rfl

theorem arrayHead_append_eq_ok {n : Nat} {d : Draft} (h : (arrayHead n ++ d).result = .ok bytes) :
    ∃ head body, Head .array n head ∧ d.result = .ok body ∧ bytes = head ++ body := by
  obtain ⟨head, body, hhead, hbody, rfl⟩ := append_result_eq_ok.1 h
  obtain ⟨hlength, rfl⟩ := measured_result_eq_ok.1 hhead
  exact ⟨_, body, MessagePack.arrayHead_head hlength, hbody, rfl⟩

theorem mapHead_append_eq_ok {n : Nat} {d : Draft} (h : (mapHead n ++ d).result = .ok bytes) :
    ∃ head body, Head .map n head ∧ d.result = .ok body ∧ bytes = head ++ body := by
  obtain ⟨head, body, hhead, hbody, rfl⟩ := append_result_eq_ok.1 h
  obtain ⟨hlength, rfl⟩ := measured_result_eq_ok.1 hhead
  exact ⟨_, body, MessagePack.mapHead_head hlength, hbody, rfl⟩

end

/-- Drafts in order spell the values in order. -/
theorem spells_of_concat {α γ : Type} {reserved : Prop} {write : α → Draft}
    (spelled : γ → List Value) (stands : γ → α → Prop) {as : List α}
    (hwrite : ∀ a ∈ as, ∀ bytes, (write a).result = .ok bytes →
      ∃ c, Spells reserved (spelled c) bytes ∧ stands c a) {bytes : Bytes}
    (h : (concat (as.map write)).result = .ok bytes) :
    ∃ cs, Spells reserved (cs.flatMap spelled) bytes ∧ List.Forall₂ stands cs as := by
  induction as generalizing bytes with
  | nil =>
      obtain rfl := Except.ok.inj h
      exact ⟨[], .nil, .nil⟩
  | cons a as ih =>
      obtain ⟨ha, has⟩ := List.forall_mem_cons.1 hwrite
      rw [List.map_cons, concat_cons] at h
      obtain ⟨x, y, hx, hy, rfl⟩ := append_result_eq_ok.1 h
      obtain ⟨c, hc, hstands⟩ := ha x hx
      obtain ⟨cs, hcs, hall⟩ := ih has hy
      exact ⟨c :: cs, hc.append hcs, .cons hstands hall⟩

theorem exists_concat {α : Type} {write : α → Draft} {as : List α}
    (h : ∀ a ∈ as, ∃ bytes, (write a).result = .ok bytes) :
    ∃ bytes, (concat (as.map write)).result = .ok bytes := by
  induction as with
  | nil => exact ⟨[], rfl⟩
  | cons a as ih =>
      obtain ⟨ha, has⟩ := List.forall_mem_cons.1 h
      exact exists_append ha (ih has)

end Draft

namespace Layout

/-- A record is written as a head and its fields, after its check. -/
theorem record_write_eq_ok {ρ α : Type} {name : String} {row : Layout .row ρ} {toRow : α → ρ}
    {ofRow : ρ → Except ProtocolError α} {check : α → Except ProtocolError Unit}
    {hofRow : ∀ a, check a = .ok () → ofRow (toRow a) = .ok a}
    {htoRow : ∀ r a, ofRow r = .ok a → toRow a = r} {a : α} {bytes : Bytes}
    (h : ((record name row toRow ofRow check hofRow htoRow).write a).result = .ok bytes) :
    check a = .ok () ∧ ∃ head body, Head .array row.count head
      ∧ (row.write (toRow a)).result = .ok body ∧ bytes = head ++ body := by
  obtain ⟨_, rest, hchecked, hrest, rfl⟩ := Draft.append_result_eq_ok.1 h
  obtain ⟨hcheck, rfl⟩ := Draft.check_result_eq_ok.1 hchecked
  exact ⟨hcheck, Draft.arrayHead_append_eq_ok hrest⟩

/-! ### Whatever is written matches -/

/-- What writing within a layout has to guarantee: the bytes spell values that match, in which no
dynamic field nests too deep. -/
def Faithful {g : Grade} {α : Type} (l : Layout g α) : Prop :=
  ∀ a bytes, (l.write a).result = .ok bytes → (∀ w ∈ l.dynamics a, w.Fits) →
    ∃ t, Spells False (g.forest t) bytes ∧ l.Shallow t ∧ l.Matches t a

private theorem Faithful.leaf {α : Type} {l : Layout .value α} (hshallow : ∀ v, l.Shallow v)
    (h : ∀ a bytes, (l.write a).result = .ok bytes →
      ∃ v, Spells False [v] bytes ∧ l.Matches v a) : l.Faithful := by
  intro a bytes hwrite _
  obtain ⟨v, hspells, hmatch⟩ := h a bytes hwrite
  exact ⟨v, hspells, hshallow v, hmatch⟩

private theorem Faithful.list {α : Type} {item : Layout .value α} (h : item.Faithful) :
    (Layout.list item).Faithful := by
  intro as bytes hwrite hfits
  obtain ⟨head, body, hhead, hbody, rfl⟩ := Draft.arrayHead_append_eq_ok hwrite
  obtain ⟨items, hitems, hall⟩ := Draft.spells_of_concat ([·]) _
    (fun a ha bytes hbytes =>
      h a bytes hbytes (List.forall_mem_flatMap.1 hfits a ha)) hbody
  obtain ⟨hshallow, hmatch⟩ := (List.forall₂_and_left _ _).1 hall
  rw [List.flatMap_singleton'] at hitems
  rw [← hall.length_eq] at hhead
  exact ⟨.array items, Spells.one (.array hhead) hitems, shallow_list_iff.2 hshallow, items, rfl,
    hmatch⟩

private theorem Faithful.dict {κ α : Type} [Ord κ] [Std.TransOrd κ] {key : Layout .value κ}
    {item : Layout .value α} (hkey : key.Faithful) (hitem : item.Faithful) :
    (Layout.dict key item).Faithful := by
  intro d bytes hwrite hfits
  obtain ⟨head, body, hhead, hbody, rfl⟩ := Draft.mapHead_append_eq_ok hwrite
  obtain ⟨entries, hentries, hall⟩ := Draft.spells_of_concat
    (fun e : Value × Value => [e.1, e.2])
    (fun e p => (key.Shallow e.1 ∧ item.Shallow e.2)
      ∧ key.Matches e.1 p.1 ∧ item.Matches e.2 p.2)
    (fun p hp bytes hbytes => by
      obtain ⟨hkfits, hvfits⟩ := List.forall_mem_append.1 (List.forall_mem_flatMap.1 hfits p hp)
      obtain ⟨a, b, ha, hb, rfl⟩ := Draft.append_result_eq_ok.1 hbytes
      obtain ⟨k, hk, hkshallow, hkmatch⟩ := hkey p.1 a ha hkfits
      obtain ⟨v, hv, hvshallow, hvmatch⟩ := hitem p.2 b hb hvfits
      exact ⟨(k, v), hk.append hv, ⟨hkshallow, hvshallow⟩, hkmatch, hvmatch⟩) hbody
  obtain ⟨hshallow, hmatch⟩ := (List.forall₂_and_left _ _).1 hall
  rw [← hall.length_eq] at hhead
  exact ⟨.map entries, Spells.one (.map hhead) hentries, shallow_dict_iff.2 hshallow, entries,
    d.entries, rfl, hmatch, Dict.eq_ofList_iff.1 d.ofList_entries.symm⟩

/-- Whatever is written within an unambiguous layout spells values that match it. -/
theorem faithful {g : Grade} {α : Type} (l : Layout g α) (h : l.unambiguous) : l.Faithful := by
  induction l with
  | boolean =>
      refine Faithful.leaf (shallow_of_isStatic _ rfl) fun b bytes hwrite => ?_
      exact ⟨_, Draft.spells_boolean hwrite, rfl⟩
  | long =>
      refine Faithful.leaf (shallow_of_isStatic _ rfl) fun n bytes hwrite => ?_
      have hlow := n.le_toInt
      have hhigh := n.toInt_lt
      exact ⟨_, Draft.spells_integer (by omega) (by omega) hwrite, _, rfl,
        MessagePack.Integer.val_ofInt (by omega) (by omega)⟩
  | int =>
      refine Faithful.leaf (shallow_of_isStatic _ rfl) fun n bytes hwrite => ?_
      have hlow := n.le_toInt
      have hhigh := n.toInt_lt
      exact ⟨_, Draft.spells_integer (by omega) (by omega) hwrite, _, rfl,
        MessagePack.Integer.val_ofInt (by omega) (by omega)⟩
  | text =>
      refine Faithful.leaf (shallow_of_isStatic _ rfl) fun x bytes hwrite => ?_
      exact ⟨_, Draft.spells_string hwrite, rfl⟩
  | binary =>
      refine Faithful.leaf (shallow_of_isStatic _ rfl) fun x bytes hwrite => ?_
      exact ⟨_, Draft.spells_binary hwrite, rfl⟩
  | dynamic =>
      intro v bytes hwrite hfits
      obtain rfl := Except.ok.inj hwrite
      have hv := hfits v (List.mem_singleton_self v)
      refine ⟨v, MessagePack.spells_encode hv.textual hv.sized, ?_, rfl⟩
      exact List.forall_mem_singleton.2 hv.depth_le
  | list item ih => exact Faithful.list (ih h)
  | dict key item ihkey ihitem =>
      obtain ⟨hkey, hitem⟩ := Bool.and_eq_true_iff.1 h
      exact Faithful.dict (ihkey hkey) (ihitem hitem)
  | coded base code meaning hcode hmeaning ih =>
      intro b bytes hwrite hfits
      obtain ⟨v, hspells, hshallow, hmatch⟩ := ih h (code b) bytes hwrite hfits
      exact ⟨v, hspells, hshallow, code b, hmatch, hcode b⟩
  | mapOr left right ihleft ihright =>
      simp only [unambiguous, Bool.and_eq_true, decide_eq_true_eq] at h
      obtain ⟨⟨⟨hleft, hright⟩, hmap⟩, hother⟩ := h
      rintro (a | b) bytes hwrite hfits
      · obtain ⟨v, hspells, hshallow, hmatch⟩ := ihleft hleft a bytes hwrite hfits
        have hfamily := left.family_mem_of_matches hmatch
        rw [hmap, List.mem_singleton] at hfamily
        refine ⟨v, hspells, ?_, hfamily, hmatch⟩
        rwa [shallow_mapOr_iff, if_pos hfamily]
      -- The right value is written as no map, so the first marker does not mislead the reader.
      · obtain ⟨v, hspells, hshallow, hmatch⟩ := ihright hright b bytes hwrite hfits
        have hfamily : v.family ≠ .map := fun heq =>
          hother (heq ▸ right.family_mem_of_matches hmatch)
        refine ⟨v, hspells, ?_, hfamily, hmatch⟩
        rwa [shallow_mapOr_iff, if_neg hfamily]
  | record name row toRow ofRow check hofRow htoRow ih =>
      intro a bytes hwrite hfits
      obtain ⟨hcheck, head, body, hhead, hbody, rfl⟩ := record_write_eq_ok hwrite
      obtain ⟨items, hspells, hshallow, hmatch⟩ := ih h (toRow a) body hbody hfits
      have hcount := row.length_of_matches hmatch
      rw [← hcount] at hhead
      exact ⟨.array items, Spells.one (.array hhead) hspells, hshallow, items, toRow a, rfl, hcount,
        hmatch, hofRow a hcheck, hcheck⟩
  | done =>
      intro r bytes hwrite _
      obtain rfl := Except.ok.inj hwrite
      exact ⟨[], .nil, by simp [Shallow, dynamicFields], rfl⟩
  | required name value rest ihvalue ihrest =>
      obtain ⟨hvalue, hrest⟩ := Bool.and_eq_true_iff.1 h
      rintro ⟨a, r⟩ bytes hwrite hfits
      obtain ⟨x, y, hx, hy, rfl⟩ := Draft.append_result_eq_ok.1 hwrite
      obtain ⟨ha, hr⟩ := List.forall_mem_append.1 hfits
      obtain ⟨v, hv, hvshallow, hmatch⟩ := ihvalue hvalue a x hx ha
      obtain ⟨vs, hvs, hvsshallow, hmatches⟩ := ihrest hrest r y hy hr
      exact ⟨v :: vs, hv.append hvs, List.forall_mem_append.2 ⟨hvshallow, hvsshallow⟩, v, vs, rfl,
        hmatch, hmatches⟩
  | optional name value rest ihvalue ihrest =>
      simp only [unambiguous, Bool.and_eq_true] at h
      rintro ⟨o, r⟩ bytes hwrite hfits
      obtain ⟨x, y, hx, hy, rfl⟩ := Draft.append_result_eq_ok.1 hwrite
      obtain ⟨ho, hr⟩ := List.forall_mem_append.1 hfits
      obtain ⟨vs, hvs, hvsshallow, hmatches⟩ := ihrest h.1.2 r y hy hr
      cases o with
      | none =>
          obtain rfl := Except.ok.inj hx
          exact ⟨.nil :: vs, .cons .nil .nil hvs,
            List.forall_mem_append.2 ⟨value.shallow_nil, hvsshallow⟩, .nil, vs, rfl, rfl, hmatches⟩
      | some a =>
          obtain ⟨v, hv, hvshallow, hmatch⟩ := ihvalue h.1.1 a x hx ho
          exact ⟨v :: vs, hv.append hvs, List.forall_mem_append.2 ⟨hvshallow, hvsshallow⟩, v, vs,
            rfl, hmatch, hmatches⟩

/-! ### Whatever matches is written -/

theorem forall_of_forall₂ {α β : Type} {stands : α → β → Prop} {holds : β → Prop}
    {as : List α} {bs : List β} (h : List.Forall₂ stands as bs)
    (hstands : ∀ a ∈ as, ∀ b, stands a b → holds b) : ∀ b ∈ bs, holds b := by
  induction h with
  | nil => simp
  | cons hab _ ih =>
      obtain ⟨ha, has⟩ := List.forall_mem_cons.1 hstands
      exact List.forall_mem_cons.2 ⟨ha _ hab, ih has⟩

/-- Whatever matches values whose lengths can be announced is written without a fault. -/
theorem exists_write_of_matches {g : Grade} {α : Type} (l : Layout g α) : ∀ t a, l.Matches t a →
    (∀ v ∈ g.forest t, v.Sized) → ∃ bytes, (l.write a).result = .ok bytes := by
  induction l with
  | boolean | long | int | dynamic | done => intro t a _ _; exact ⟨_, rfl⟩
  | text =>
      rintro _ x rfl hsized
      have hlength := hsized _ (List.mem_singleton_self _) _ (Value.self_mem_parts _)
      exact Draft.exists_measured hlength _
  | binary =>
      rintro _ x rfl hsized
      have hlength := hsized _ (List.mem_singleton_self _) _ (Value.self_mem_parts _)
      exact Draft.exists_measured hlength _
  | list item ih =>
      rintro _ as ⟨items, rfl, hall⟩ hsized
      have hself := hsized _ (List.mem_singleton_self _)
      have hlength : as.length < 2 ^ 32 := by
        rw [← hall.length_eq]
        exact hself _ (Value.self_mem_parts _)
      have hitems : ∀ a ∈ as, ∃ bytes, (item.write a).result = .ok bytes :=
        forall_of_forall₂ hall fun v hv a hmatch =>
          ih v a hmatch (List.forall_mem_singleton.2 (hself.of_mem_children hv))
      exact Draft.exists_append (Draft.exists_measured hlength _) (Draft.exists_concat hitems)
  | dict key item ihkey ihitem =>
      rintro _ d ⟨entries, pairs, rfl, hall, hlatest⟩ hsized
      have hself := hsized _ (List.mem_singleton_self _)
      have hlength : d.entries.length < 2 ^ 32 := by
        have hpairs : d.entries.length ≤ pairs.length := by
          rw [Dict.eq_ofList_iff.2 hlatest]
          exact Dict.size_ofList_le pairs
        rw [← hall.length_eq] at hpairs
        exact hpairs.trans_lt (hself _ (Value.self_mem_parts _))
      have hwrite : ∀ p ∈ pairs, ∃ bytes, (key.write p.1 ++ item.write p.2).result = .ok bytes := by
        refine forall_of_forall₂ hall fun e he p hmatch => ?_
        have hk : e.1 ∈ (Value.map entries).children := List.mem_flatMap.2 ⟨e, he, by simp⟩
        have hv : e.2 ∈ (Value.map entries).children := List.mem_flatMap.2 ⟨e, he, by simp⟩
        have hx := ihkey e.1 p.1 hmatch.1 (List.forall_mem_singleton.2 (hself.of_mem_children hk))
        have hy := ihitem e.2 p.2 hmatch.2 (List.forall_mem_singleton.2 (hself.of_mem_children hv))
        exact Draft.exists_append hx hy
      exact Draft.exists_append (Draft.exists_measured hlength _)
        (Draft.exists_concat fun e he => hwrite e ((hlatest e).1 he).mem)
  | coded base code meaning hcode hmeaning ih =>
      rintro v b ⟨a, hmatch, hb⟩ hsized
      obtain rfl := hmeaning a b hb
      exact ih v _ hmatch hsized
  | mapOr left right ihleft ihright =>
      rintro v (a | b) ⟨_, hmatch⟩ hsized
      · exact ihleft v a hmatch hsized
      · exact ihright v b hmatch hsized
  | record name row toRow ofRow check hofRow htoRow ih =>
      rintro _ a ⟨items, r, rfl, hcount, hmatch, hr, hcheck⟩ hsized
      have hself := hsized _ (List.mem_singleton_self _)
      have hlength : row.count < 2 ^ 32 := by
        rw [← hcount]
        exact hself _ (Value.self_mem_parts _)
      have hrow := ih items r hmatch fun v hv => hself.of_mem_children hv
      rw [← htoRow r a hr] at hrow
      have hchecked : ∃ x, (Draft.check (check a)).result = .ok x :=
        ⟨[], Draft.check_result_eq_ok.2 ⟨hcheck, rfl⟩⟩
      exact Draft.exists_append hchecked
        (Draft.exists_append (Draft.exists_measured hlength _) hrow)
  | required name value rest ihvalue ihrest =>
      rintro _ ⟨a, r⟩ ⟨v, vs, rfl, hmatch, hmatches⟩ hsized
      obtain ⟨hv, hvs⟩ := List.forall_mem_cons.1 hsized
      have hx := ihvalue v a hmatch (List.forall_mem_singleton.2 hv)
      exact Draft.exists_append hx (ihrest vs r hmatches hvs)
  | optional name value rest ihvalue ihrest =>
      rintro _ ⟨o, r⟩ ⟨v, vs, rfl, hmatch, hmatches⟩ hsized
      obtain ⟨hv, hvs⟩ := List.forall_mem_cons.1 hsized
      have hx : ∃ x, (o.elim Draft.nil value.write).result = .ok x := by
        cases o with
        | none => exact ⟨_, rfl⟩
        | some a => exact ihvalue v a hmatch (List.forall_mem_singleton.2 hv)
      exact Draft.exists_append hx (ihrest vs r hmatches hvs)

end Layout

end DataGateway

import DataGateway.Proofs.MessagePack.Pieces
import DataGateway.Proofs.Wire.Reading
import DataGateway.Wire.Dynamic

/-!
# What a dynamic read takes

A dynamic value is read within a budget. Whatever is read nests no deeper than the budget allows and
is spelled by the bytes taken, the reserved byte standing for nil; and every well-formed spelling of
a value that nests no deeper than that is read, whatever follows it. Both are inductions on the
budget, which is what the reader recurses on. Since every value is within some budget, the second
also says that bytes spell one value at most and end with it (`Spells.cancel`).
-/

namespace DataGateway.MessagePack

open Reader

theorem Integer.ofInt_val (n : Integer) : Integer.ofInt n.val = n := by
  obtain ⟨val, lower, upper⟩ := n
  simp only [Integer.ofInt, Integer.mk.injEq]
  omega

namespace Value

/-- A value that is read back as it was written: no deeper than the budget, and without the strings
and lengths that have no written form. -/
structure Fits (v : Value) : Prop where
  depth_le : v.depth ≤ depthBudget
  textual : v.Textual
  sized : v.Sized

instance (v : Value) : Decidable v.Fits :=
  decidable_of_iff (v.depth ≤ depthBudget ∧ v.Textual ∧ v.Sized)
    ⟨fun ⟨hdepth, htext, hsized⟩ => ⟨hdepth, htext, hsized⟩,
      fun h => ⟨h.depth_le, h.textual, h.sized⟩⟩

theorem marker_eq_ok {s t : Bytes} {m : Marker} :
    marker s = .ok m t ↔ ∃ b, s = b :: t ∧ (Marker.ofByte b).getD ⟨.nil, .here 0⟩ = m := by
  cases s with
  | nil => simp [marker]
  | cons b r =>
      simp only [marker, EStateM.Result.ok.injEq, List.cons.injEq]
      constructor
      · rintro ⟨rfl, rfl⟩
        exact ⟨b, ⟨rfl, rfl⟩, rfl⟩
      · rintro ⟨_, ⟨rfl, rfl⟩, rfl⟩
        exact ⟨rfl, rfl⟩

theorem afford_eq_ok {left units : Nat} {s t : Bytes} {u : Unit} :
    afford left units s = .ok u t ↔ units ≤ left ∧ s = t := by
  unfold afford
  split
  · rename_i hless
    simp [throw_eq_ok, Nat.not_le.2 hless]
  · rename_i hless
    simp [pure_eq_ok, Nat.not_lt.1 hless]

theorem body_eq_ok {n : Nat} {s t bytes : Bytes} :
    body n s = .ok bytes t ↔ bytes.length = n ∧ s = bytes ++ t := takeOr_eq_ok

theorem extensionType_eq_ok {s t : Bytes} {type : Int8} :
    extensionType s = .ok type t ↔ s = type.toUInt8 :: t := by
  have hword (b : UInt8) :
      Int8.ofInt ((ofBigEndian [b] : Int).bmod (Nat.pow 256 1)) = b.toInt8 := by
    rw [show ofBigEndian [b] = b.toNat by simp [ofBigEndian]]
    apply Int8.toInt_inj.1
    rw [Int8.toInt_ofInt, show Nat.pow 256 1 = Int8.size from rfl, Int.bmod_bmod]
    exact (BitVec.toInt_eq_toNat_bmod b.toBitVec).symm
  simp only [extensionType, number, map_eq_ok, numberOr_eq_ok, Operand.width, Operand.value]
  constructor
  · rintro ⟨_, ⟨bytes, hlength, rfl, rfl⟩, rfl⟩
    obtain ⟨b, rfl⟩ := List.length_eq_one_iff.1 hlength
    rw [hword, UInt8.toUInt8_toInt8]
    rfl
  · rintro rfl
    exact ⟨_, ⟨[type.toUInt8], rfl, rfl, rfl⟩, by rw [hword, Int8.toInt8_toUInt8]⟩

/-- Whatever is read within a budget nests no deeper and is spelled by what was taken. -/
def SoundWithin (budget : Nat) : Prop :=
  ∀ s v t, readWithin budget s = .ok v t →
    v.depth ≤ budget ∧ ∃ front, s = front ++ t ∧ Spells True [v] front

private theorem SoundWithin.items {budget : Nat} (h : SoundWithin budget) {n : Nat} {s t : Bytes}
    {items : List Value} (hitems : times n (readWithin budget) s = .ok items t) :
    items.length = n ∧ depthItems items ≤ budget
      ∧ ∃ body, s = body ++ t ∧ Spells True items body := by
  obtain ⟨hlength, body, cs, rfl, hspells, hall⟩ :=
    spells_of_times ([·]) (fun c v => c.depth ≤ budget ∧ c = v)
      (fun s v t hv => by
        obtain ⟨hdepth, front, rfl, hfront⟩ := h s v t hv
        exact ⟨front, v, rfl, hfront, hdepth, rfl⟩)
      hitems
  obtain ⟨hdepth, hsame⟩ := (List.forall₂_and_left _ _).1 hall
  rw [List.forall₂_eq_eq_eq] at hsame
  subst hsame
  rw [List.flatMap_singleton'] at hspells
  exact ⟨hlength, depthItems_le_iff.2 hdepth, body, rfl, hspells⟩

private theorem SoundWithin.entries {budget : Nat} (h : SoundWithin budget) {n : Nat} {s t : Bytes}
    {entries : List (Value × Value)}
    (hentries : times n (do
      let key ← readWithin budget
      let value ← readWithin budget
      return (key, value)) s = .ok entries t) :
    entries.length = n ∧ depthItems (flat entries) ≤ budget
      ∧ ∃ body, s = body ++ t ∧ Spells True (flat entries) body := by
  obtain ⟨hlength, body, cs, rfl, hspells, hall⟩ :=
    spells_of_times (fun c => [c.1, c.2])
      (fun c e => (c.1.depth ≤ budget ∧ c.2.depth ≤ budget) ∧ c = e)
      (fun s e t he => by
        simp only [bind_eq_ok, pure_eq_ok] at he
        obtain ⟨k, _, hk, v, _, hv, rfl, rfl⟩ := he
        obtain ⟨hkdepth, front, rfl, hfront⟩ := h _ _ _ hk
        obtain ⟨hvdepth, back, rfl, hback⟩ := h _ _ _ hv
        exact ⟨front ++ back, (k, v), (List.append_assoc ..).symm, hfront.append hback,
          ⟨hkdepth, hvdepth⟩, rfl⟩)
      hentries
  obtain ⟨hdepth, hsame⟩ := (List.forall₂_and_left _ _).1 hall
  rw [List.forall₂_eq_eq_eq] at hsame
  subst hsame
  refine ⟨hlength, depthItems_le_iff.2 fun w hw => ?_, body, rfl, hspells⟩
  obtain ⟨e, he, hw⟩ := List.mem_flatMap.1 hw
  obtain ⟨hk, hv⟩ := hdepth e he
  rcases List.mem_pair.1 hw with rfl | rfl <;> assumption

theorem soundWithin (budget : Nat) : SoundWithin budget := by
  -- Strong induction, since a container takes two units before its elements are read.
  induction budget using Nat.strongRecOn with
  | ind budget ih =>
  intro s v t h
  cases budget with
  | zero =>
      rw [readWithin] at h
      exact (throw_eq_ok.1 h).elim
  | succ left =>
      simp only [readWithin, bind_eq_ok, marker_eq_ok, number, numberOr_eq_ok] at h
      obtain ⟨m, _, ⟨b, rfl, hb⟩, n, r, ⟨operand, hlength, rfl, hn⟩, h⟩ := h
      cases hmarker : Marker.ofByte b with
      | none =>
          obtain rfl := (Marker.ofByte_eq_none_iff b).1 hmarker
          rw [hmarker, Option.getD_none] at hb
          obtain rfl := hb
          obtain rfl := List.length_eq_zero_iff.1 hlength
          obtain ⟨rfl, rfl⟩ := pure_eq_ok.1 h
          exact ⟨by simp [depth], _, rfl, .leaf (.reserved trivial) rfl⟩
      | some marker =>
          rw [hmarker, Option.getD_some] at hb
          obtain rfl := hb
          have hhead : Head marker.family n (b :: operand) :=
            ⟨b, marker, operand, hmarker, rfl, hlength, hn, rfl⟩
          cases hfamily : marker.family with
          | nil =>
              simp only [hfamily] at h
              obtain ⟨rfl, rfl⟩ := pure_eq_ok.1 h
              obtain rfl := (Marker.family_eq_nil_iff hmarker).1 hfamily
              obtain rfl : ⟨.nil, .here 0⟩ = marker := Option.some.inj hmarker
              obtain rfl := List.length_eq_zero_iff.1 hlength
              exact ⟨by simp [depth], _, rfl, .leaf .nil rfl⟩
          | boolean =>
              simp only [hfamily] at h hhead
              obtain ⟨rfl, rfl⟩ := pure_eq_ok.1 h
              exact ⟨by simp [depth], _, rfl, .leaf (.boolean hhead) rfl⟩
          | integer =>
              simp only [hfamily] at h hhead
              obtain ⟨rfl, rfl⟩ := pure_eq_ok.1 h
              obtain ⟨hlow, hhigh⟩ := hhead.integer_bounds
              rw [← Integer.val_ofInt hlow hhigh] at hhead
              exact ⟨by simp [depth], _, rfl, .leaf (.integer hhead) rfl⟩
          | float =>
              simp only [hfamily] at h
              obtain ⟨rfl, rfl⟩ := pure_eq_ok.1 h
              rcases Marker.eq_of_family_float hmarker hfamily with ⟨rfl, hwidth⟩ | ⟨rfl, hwidth⟩
              · rw [hwidth] at hlength hn ⊢
                subst hn
                exact ⟨by simp [depth, Operand.width], _, rfl, .leaf (.float32 hlength) rfl⟩
              · rw [hwidth] at hlength hn ⊢
                subst hn
                exact ⟨by simp [depth, Operand.width], _, rfl, .leaf (.float64 hlength) rfl⟩
          | string =>
              simp only [hfamily, bind_eq_ok, afford_eq_ok, body_eq_ok, pure_eq_ok] at h hhead
              obtain ⟨_, _, ⟨hleft, rfl⟩, octets, _, ⟨hoctets, rfl⟩, rfl, rfl⟩ := h
              refine ⟨?_, _, by simp, .leaf (.string (hhead.of_toNat rfl hoctets)) rfl⟩
              simp only [depth]
              omega
          | binary =>
              simp only [hfamily, bind_eq_ok, afford_eq_ok, body_eq_ok, pure_eq_ok] at h hhead
              obtain ⟨_, _, ⟨hleft, rfl⟩, bytes, _, ⟨hbytes, rfl⟩, rfl, rfl⟩ := h
              refine ⟨?_, _, by simp, .leaf (.binary (hhead.of_toNat rfl hbytes)) rfl⟩
              simp only [depth]
              omega
          | extension =>
              simp only [hfamily, bind_eq_ok, afford_eq_ok, extensionType_eq_ok, body_eq_ok,
                pure_eq_ok] at h hhead
              obtain ⟨_, _, ⟨_, rfl⟩, type, _, rfl, _, _, ⟨hleft, rfl⟩, bytes, _, ⟨hbytes, rfl⟩,
                rfl, rfl⟩ := h
              refine ⟨?_, _, by simp, .leaf (.extension (hhead.of_toNat rfl hbytes)) rfl⟩
              simp only [depth]
              omega
          | array =>
              simp only [hfamily] at h hhead
              cases left with
              | zero => exact (throw_eq_ok.1 h).elim
              | succ left =>
                  obtain ⟨items, _, hitems, h⟩ := bind_eq_ok.1 h
                  obtain ⟨rfl, rfl⟩ := pure_eq_ok.1 h
                  obtain ⟨hlen, hdepth, body, rfl, hspells⟩ := (ih left (by omega)).items hitems
                  have hopening : Opening True (.array items) _ := .array (hhead.of_toNat rfl hlen)
                  refine ⟨?_, b :: operand ++ body, by simp, .one hopening hspells⟩
                  simp only [depth]
                  omega
          | map =>
              simp only [hfamily] at h hhead
              cases left with
              | zero => exact (throw_eq_ok.1 h).elim
              | succ left =>
                  obtain ⟨entries, _, hentries, h⟩ := bind_eq_ok.1 h
                  obtain ⟨rfl, rfl⟩ := pure_eq_ok.1 h
                  obtain ⟨hlen, hdepth, body, rfl, hspells⟩ := (ih left (by omega)).entries hentries
                  have hopening : Opening True (.map entries) _ := .map (hhead.of_toNat rfl hlen)
                  refine ⟨?_, b :: operand ++ body, by simp, .one hopening hspells⟩
                  simp only [depth, depthEntries_eq]
                  omega

private theorem taken_head {family : Family} {n : Int} {head r : Bytes} (h : Head family n head)
    {next : Marker → Int → Bytes → Prop} (hnext : ∀ m, m.family = family → next m n r) :
    ∃ m s, (∃ b, head ++ r = b :: s ∧ (Marker.ofByte b).getD ⟨.nil, .here 0⟩ = m)
      ∧ ∃ k s', (∃ bytes, bytes.length = m.operand.width ∧ s = bytes ++ s'
        ∧ m.operand.value bytes = k) ∧ next m k s' := by
  obtain ⟨b, m, operand, hb, hfamily, hlength, hn, rfl⟩ := h
  refine ⟨m, operand ++ r, ⟨b, rfl, ?_⟩, n, r, ⟨operand, hlength, rfl, hn⟩, hnext m hfamily⟩
  rw [hb, Option.getD_some]

/-- A well-formed spelling of a value that nests no deeper than the budget is read. -/
def CompleteWithin (budget : Nat) : Prop :=
  ∀ (v : Value) (front t : Bytes), v.depth ≤ budget → Spells False [v] front →
    readWithin budget (front ++ t) = .ok v t

private theorem CompleteWithin.items {budget : Nat} (h : CompleteWithin budget) {items : List Value}
    (hdepth : depthItems items ≤ budget) {body : Bytes} (hspells : Spells False items body)
    (t : Bytes) : times items.length (readWithin budget) (body ++ t) = .ok items t := by
  have hall : List.Forall₂ (fun c v => c.depth ≤ budget ∧ c = v) items items := by
    simpa [List.forall₂_same] using depthItems_le_iff.1 hdepth
  refine times_of_spells ([·]) _ ?_ hall (by rwa [List.flatMap_singleton'])
  rintro v _ front t ⟨hv, rfl⟩ hfront
  exact h v front t hv hfront

private theorem CompleteWithin.entries {budget : Nat} (h : CompleteWithin budget)
    {entries : List (Value × Value)} (hdepth : depthItems (flat entries) ≤ budget) {body : Bytes}
    (hspells : Spells False (flat entries) body) (t : Bytes) :
    times entries.length (do
      let key ← readWithin budget
      let value ← readWithin budget
      return (key, value)) (body ++ t) = .ok entries t := by
  have hall : List.Forall₂ (fun c e => (c.1.depth ≤ budget ∧ c.2.depth ≤ budget) ∧ c = e)
      entries entries := by
    have hboth := depthItems_le_iff.1 hdepth
    simp only [List.forall₂_same, and_true]
    intro e he
    exact ⟨hboth _ (List.mem_flatMap.2 ⟨e, he, by simp⟩),
      hboth _ (List.mem_flatMap.2 ⟨e, he, by simp⟩)⟩
  refine times_of_spells (fun c => [c.1, c.2]) _ ?_ hall hspells
  rintro e _ front t ⟨⟨hk, hv⟩, rfl⟩ hfront
  obtain ⟨a, b, rfl, ha, hb⟩ := Spells.cons_iff.1 hfront
  simp only [bind_eq_ok, pure_eq_ok, List.append_assoc]
  exact ⟨_, _, h _ _ _ hk ha, _, _, h _ _ _ hv hb, rfl, rfl⟩

theorem completeWithin (budget : Nat) : CompleteWithin budget := by
  induction budget using Nat.strongRecOn with
  | ind budget ih =>
  intro v front t hdepth h
  obtain ⟨left, rfl⟩ : ∃ left, budget = left + 1 := by
    refine ⟨budget - 1, ?_⟩
    have : 0 < v.depth := by cases v <;> simp [depth]
    omega
  rcases h with _ | ⟨opening, inside, rest⟩
  rw [Spells.nil_iff.1 rest, List.append_nil, List.append_assoc]
  simp only [readWithin, bind_eq_ok, marker_eq_ok, number, numberOr_eq_ok]
  cases opening with
  | nil =>
      rw [Spells.nil_iff.1 inside]
      refine taken_head nil_head fun m hm => ?_
      simp only [hm]
      exact pure_eq_ok.2 ⟨rfl, rfl⟩
  | reserved h => exact h.elim
  | boolean hhead =>
      rw [Spells.nil_iff.1 inside]
      refine taken_head hhead fun m hm => ?_
      simp only [hm]
      exact pure_eq_ok.2 ⟨rfl, rfl⟩
  | integer hhead =>
      rw [Spells.nil_iff.1 inside]
      refine taken_head hhead fun m hm => ?_
      simp only [hm]
      exact pure_eq_ok.2 ⟨congrArg Value.integer (Integer.ofInt_val _), rfl⟩
  | float32 hlength =>
      rw [Spells.nil_iff.1 inside]
      refine ⟨⟨.float, .unsigned 4⟩, _, ⟨0xca, rfl, rfl⟩, _, t, ⟨_, hlength, rfl, rfl⟩, ?_⟩
      exact pure_eq_ok.2 ⟨rfl, rfl⟩
  | float64 hlength =>
      rw [Spells.nil_iff.1 inside]
      refine ⟨⟨.float, .unsigned 8⟩, _, ⟨0xcb, rfl, rfl⟩, _, t, ⟨_, hlength, rfl, rfl⟩, ?_⟩
      exact pure_eq_ok.2 ⟨rfl, rfl⟩
  | string hhead =>
      rw [Spells.nil_iff.1 inside, List.append_assoc]
      refine taken_head hhead fun m hm => ?_
      simp only [hm, bind_eq_ok, afford_eq_ok, body_eq_ok, pure_eq_ok]
      simp only [depth] at hdepth
      exact ⟨(), _, ⟨by omega, rfl⟩, _, _, ⟨rfl, rfl⟩, rfl, rfl⟩
  | binary hhead =>
      rw [Spells.nil_iff.1 inside, List.append_assoc]
      refine taken_head hhead fun m hm => ?_
      simp only [hm, bind_eq_ok, afford_eq_ok, body_eq_ok, pure_eq_ok]
      simp only [depth] at hdepth
      exact ⟨(), _, ⟨by omega, rfl⟩, _, _, ⟨rfl, rfl⟩, rfl, rfl⟩
  | extension hhead =>
      rw [Spells.nil_iff.1 inside, List.append_assoc]
      refine taken_head hhead fun m hm => ?_
      simp only [hm, bind_eq_ok, afford_eq_ok, extensionType_eq_ok, body_eq_ok, pure_eq_ok]
      simp only [depth] at hdepth
      exact ⟨(), _, ⟨by omega, rfl⟩, _, _, rfl, (), _, ⟨by omega, rfl⟩, _, _, ⟨rfl, rfl⟩, rfl, rfl⟩
  | @array items _ hhead =>
      refine taken_head hhead fun m hm => ?_
      simp only [depth] at hdepth
      obtain ⟨left, rfl⟩ : ∃ k, left = k + 1 := ⟨left - 1, by omega⟩
      simp only [hm, bind_eq_ok, pure_eq_ok]
      have hitems : depthItems items ≤ left := by omega
      exact ⟨_, _, (ih left (by omega)).items hitems inside t, rfl, rfl⟩
  | map hhead =>
      refine taken_head hhead fun m hm => ?_
      simp only [depth, depthEntries_eq] at hdepth
      obtain ⟨left, rfl⟩ : ∃ k, left = k + 1 := ⟨left - 1, by omega⟩
      simp only [hm, bind_eq_ok, pure_eq_ok]
      exact ⟨_, _, (ih left (by omega)).entries (by omega) inside t, rfl, rfl⟩

/-! ### Outermost values -/

theorem spells_of_read {s t : Bytes} {v : Value} (h : read s = .ok v t) :
    v.depth ≤ depthBudget ∧ ∃ front, s = front ++ t ∧ Spells True [v] front := by
  simp only [read, bind_eq_ok, peek_eq_ok] at h
  obtain ⟨_, _, ⟨rfl, _⟩, h⟩ := h
  exact soundWithin depthBudget _ v t h

/-- An outermost value begins with a marker, and only inside it may a nil be the reserved byte. -/
theorem cut_of_read {s t : Bytes} {v : Value} (h : read s = .ok v t) :
    v.depth ≤ depthBudget ∧ ∃ front, s = front ++ t
      ∧ Cut (⟨v, false⟩ :: (partsItems v.children).map (⟨·, true⟩)) front := by
  obtain ⟨hdepth, front, rfl, hspells⟩ := spells_of_read h
  simp only [read, bind_eq_ok, peek_eq_ok] at h
  obtain ⟨_, _, ⟨_, b, r, hs, hb⟩, _⟩ := h
  refine ⟨hdepth, front, rfl, ?_⟩
  obtain _ | ⟨opening, inside, rest⟩ := hspells
  obtain rfl := Spells.nil_iff.1 rest
  rw [List.append_nil]
  rcases opening.wellFormed_or with opening | ⟨_, _, rfl⟩
  · exact .cons (opening.mono False.elim) (.inside inside)
  · obtain rfl := (List.cons.inj hs).1
    rw [(Marker.ofByte_eq_none_iff _).2 rfl] at hb
    cases hb

theorem read_of_spells {v : Value} (hdepth : v.depth ≤ depthBudget) {front : Bytes}
    (h : Spells False [v] front) (t : Bytes) : read (front ++ t) = .ok v t := by
  have hread := completeWithin depthBudget v front t hdepth h
  obtain ⟨b, marker, r, rfl, hb, _⟩ := h.begins
  simp only [read, bind_eq_ok, peek_eq_ok]
  exact ⟨marker, _, ⟨rfl, b, r ++ t, rfl, hb⟩, hread⟩

end Value

/-! ### Spellings end where they must -/

namespace Spells

/-- A value and where it ends are settled by the bytes, whatever comes after it. -/
theorem cancel {v w : Value} {a b r s : Bytes} (hv : Spells False [v] a)
    (hw : Spells False [w] b) (h : a ++ r = b ++ s) : v = w ∧ r = s := by
  have hread := Value.completeWithin (max v.depth w.depth) v a r (Nat.le_max_left ..) hv
  have hread' := Value.completeWithin (max v.depth w.depth) w b s (Nat.le_max_right ..) hw
  rw [h, hread'] at hread
  obtain ⟨rfl, rfl⟩ := EStateM.Result.ok.inj hread
  exact ⟨rfl, rfl⟩

/-- The same of as many values in order. -/
theorem cancel_list {vs ws : List Value} (hlength : vs.length = ws.length) {a b r s : Bytes}
    (hvs : Spells False vs a) (hws : Spells False ws b) (h : a ++ r = b ++ s) :
    vs = ws ∧ r = s := by
  induction vs generalizing ws a b with
  | nil =>
      obtain rfl := List.length_eq_zero_iff.1 hlength.symm
      rw [nil_iff.1 hvs, nil_iff.1 hws] at h
      exact ⟨rfl, h⟩
  | cons v vs ih =>
      obtain ⟨w, ws, rfl⟩ := List.exists_cons_of_length_eq_add_one hlength.symm
      obtain ⟨a, c, rfl, hv, hback⟩ := cons_iff.1 hvs
      obtain ⟨b, d, rfl, hw, hback'⟩ := cons_iff.1 hws
      rw [List.append_assoc, List.append_assoc] at h
      obtain ⟨rfl, hrest⟩ := cancel hv hw h
      obtain ⟨rfl, rfl⟩ := ih (Nat.succ.inj hlength) hback hback' hrest
      exact ⟨rfl, rfl⟩

end Spells

end DataGateway.MessagePack

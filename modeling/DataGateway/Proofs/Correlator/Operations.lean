import DataGateway.Proofs.Correlator.Lines

/-!
# Operations of a correlator

Each operation keeps the tickets in order, with the roots that it leaves, and has no effect on the
tickets of other lines. Tearing is the one that walks along a line: it takes the line away and marks
the id at its end. `Resumed` says which of them a request puts together when it goes on.
-/

namespace DataGateway

namespace Correlator

variable {c c' : Correlator} {roots a b : List Nat} {s t n x : Nat}

/-- Waiters may go as long as nothing else changes. -/
theorem Sound.of_waiters (hc : c.Sound roots) (hserved : c'.served = c.served)
    (hdrawn : c.drawn ≤ c'.drawn)
    (hsub : ∀ i w, c'.waiters.get? i = some w → c.waiters.get? i = some w) : c'.Sound roots := by
  have hheld : ∀ n, c'.Held roots n ↔ c.Held roots n := by
    intro n
    rw [Held, Held, hserved]
  constructor
  · exact hc.roots_nodup
  · rw [hserved]
    exact hc.served_unique
  · intro i j v w hv hw
    exact hc.waiter_unique (hsub i v hv) (hsub j w hw)
  · intro i w r hw
    rw [hserved]
    exact hc.waiter_unserved (hsub i w hw)
  · rw [hserved]
    exact hc.holder_unique
  · rw [hserved]
    exact hc.root_free
  · rw [hserved]
    exact hc.forward
  · intro i w hw
    exact (hc.waiter_drawn (hsub i w hw)).trans_le hdrawn
  · intro n hn
    exact (hc.held_drawn ((hheld n).1 hn)).trans_le hdrawn
  · intro t r hr
    rw [hserved] at hr
    exact (hheld t).2 (hc.served_held hr)
  · intro i w hw
    rw [hheld]
    exact hc.waiter_held (hsub i w hw)

theorem get?_release (c : Correlator) (id i : String) :
    (c.release id).waiters.get? i
      = if i = id then (c.waiters.get? id).filter (!·.torn) else c.waiters.get? i := by
  unfold Correlator.release
  split
  · rename_i ticket h
    rw [h]
    exact Dict.get?_erase c.waiters id i
  · rename_i h
    by_cases hi : i = id
    · rw [if_pos hi, hi]
      cases hw : c.waiters.get? id with
      | none => rfl
      | some w =>
          obtain ⟨ticket, torn⟩ := w
          cases torn with
          | false => rfl
          | true => exact absurd hw (h ticket)
    · rw [if_neg hi]

/-- Only waiters are released. -/
theorem release_eq (c : Correlator) (id : String) :
    c.release id = { c with waiters := (c.release id).waiters } := by
  unfold Correlator.release
  split <;> rfl

theorem release_served (c : Correlator) (id : String) : (c.release id).served = c.served := by
  rw [release_eq]

theorem release_drawn (c : Correlator) (id : String) : (c.release id).drawn = c.drawn := by
  rw [release_eq]

theorem get?_of_get?_release {id i : String} {w : Waiter}
    (h : (c.release id).waiters.get? i = some w) : c.waiters.get? i = some w := by
  rw [get?_release] at h
  by_cases hi : i = id
  · rw [if_pos hi] at h
    rw [hi]
    exact (Option.filter_eq_some_iff.1 h).1
  · rwa [if_neg hi] at h

theorem Sound.release (hc : c.Sound roots) (id : String) : (c.release id).Sound roots :=
  hc.of_waiters (release_served c id) (release_drawn c id).ge fun _ _ => get?_of_get?_release

/-- What is held is not torn, so it is not released. -/
theorem Sound.agree_release (hc : c.Sound roots) (id : String) (hx : c.Held roots x) :
    Agree c (c.release id) x := by
  constructor
  · intro r
    rw [release_served]
  · rintro i w rfl
    refine ⟨get?_of_get?_release, fun h => ?_⟩
    rw [get?_release]
    by_cases hi : i = id
    · rw [if_pos hi, ← hi, h]
      simp [(hc.waiter_held h).1 hx]
    · rwa [if_neg hi]

/-! ### Registering -/

theorem register_of_none {id : String} (h : c.waiters.get? id = none) :
    c.register id = .ok (c.drawn, { c with
      waiters := c.waiters.insert id { ticket := c.drawn }, drawn := c.drawn + 1 }) := by
  rw [register, h]

theorem register_of_some {id : String} {w : Waiter} (h : c.waiters.get? id = some w) :
    c.register id = .error (.duplicateId id) := by
  rw [register, h]

theorem Sound.waiter_ne (hc : c.Sound roots) {i : String} {w : Waiter}
    (h : c.waiters.get? i = some w) : w.ticket ≠ c.drawn :=
  (hc.waiter_drawn h).ne

theorem Sound.not_served_drawn (hc : c.Sound roots) (r : Resolution) :
    (c.drawn, r) ∉ c.served :=
  fun h => (hc.held_drawn (hc.served_held h)).ne rfl

theorem get?_insert_cases {waiters : Dict String Waiter} {id i : String} {v w : Waiter}
    (h : (waiters.insert id v).get? i = some w) :
    i = id ∧ w = v ∨ i ≠ id ∧ waiters.get? i = some w := by
  rw [Dict.get?_insert] at h
  by_cases hi : i = id
  · rw [if_pos hi] at h
    exact .inl ⟨hi, (Option.some.inj h).symm⟩
  · rw [if_neg hi] at h
    exact .inr ⟨hi, h⟩

theorem held_register_iff {waiters : Dict String Waiter} : Held { c with
    waiters, drawn := c.drawn + 1 } (roots ++ [c.drawn]) n ↔ c.Held roots n ∨ n = c.drawn := by
  simp only [Held, List.mem_append, List.mem_singleton]
  tauto

/-- The ticket that is drawn for an id is a root of its own. -/
theorem Sound.register (hc : c.Sound roots) (id : String) :
    Sound { c with waiters := c.waiters.insert id { ticket := c.drawn }, drawn := c.drawn + 1 }
      (roots ++ [c.drawn]) where
  roots_nodup := by
    refine List.nodup_append.2 ⟨hc.roots_nodup, List.nodup_singleton _, ?_⟩
    intro n hn m hm
    rw [List.mem_singleton.1 hm]
    exact (hc.held_drawn (.inl hn)).ne
  served_unique := hc.served_unique
  waiter_unique hv hw hticket := by
    rcases get?_insert_cases hv with ⟨hi, rfl⟩ | ⟨_, hv⟩ <;>
      rcases get?_insert_cases hw with ⟨hj, rfl⟩ | ⟨_, hw⟩
    · rw [hi, hj]
    · exact absurd hticket.symm (hc.waiter_ne hw)
    · exact absurd hticket (hc.waiter_ne hv)
    · exact hc.waiter_unique hv hw hticket
  waiter_unserved hw := by
    rcases get?_insert_cases hw with ⟨_, rfl⟩ | ⟨_, hw⟩
    · exact hc.not_served_drawn _
    · exact hc.waiter_unserved hw
  holder_unique := hc.holder_unique
  root_free hholds hn := by
    rcases List.mem_append.1 hn with hn | hn
    · exact hc.root_free hholds hn
    · exact (hc.held_drawn (.inr ⟨_, hholds⟩)).ne (List.mem_singleton.1 hn)
  forward := hc.forward
  waiter_drawn hw := by
    show _ < c.drawn + 1
    rcases get?_insert_cases hw with ⟨_, rfl⟩ | ⟨_, hw⟩
    · exact Nat.lt_succ_self _
    · exact (hc.waiter_drawn hw).trans (Nat.lt_succ_self _)
  held_drawn hn := by
    show _ < c.drawn + 1
    rcases held_register_iff.1 hn with hn | rfl
    · exact (hc.held_drawn hn).trans (Nat.lt_succ_self _)
    · exact Nat.lt_succ_self _
  served_held hr := held_register_iff.2 (.inl (hc.served_held hr))
  waiter_held hw := by
    rw [held_register_iff]
    rcases get?_insert_cases hw with ⟨_, rfl⟩ | ⟨_, hw⟩
    · simp
    · rw [← hc.waiter_held hw]
      simp [hc.waiter_ne hw]

theorem Sound.agree_register (hc : c.Sound roots) {id : String} (h : c.waiters.get? id = none)
    (hx : c.Held roots x) :
    Agree c { c with
      waiters := c.waiters.insert id { ticket := c.drawn }, drawn := c.drawn + 1 } x := by
  refine ⟨fun r => Iff.rfl, fun i w hw => ?_⟩
  rw [Dict.get?_insert]
  by_cases hi : i = id
  · have hne : w ≠ { ticket := c.drawn } := by
      rintro rfl
      exact (hc.held_drawn hx).ne hw.symm
    simp [hi, h, hne.symm]
  · rw [if_neg hi]

/-! ### Tearing -/

/-- The waiter, torn if its ticket is one of these. -/
def mark (gone : List Nat) (w : Waiter) : Waiter :=
  if w.ticket ∈ gone then { w with torn := true } else w

@[simp] theorem mark_ticket (gone : List Nat) (w : Waiter) : (mark gone w).ticket = w.ticket := by
  unfold mark
  split <;> rfl

theorem mark_of_mem {gone : List Nat} {w : Waiter} (h : w.ticket ∈ gone) :
    mark gone w = { w with torn := true } :=
  if_pos h

theorem mark_of_not_mem {gone : List Nat} {w : Waiter} (h : w.ticket ∉ gone) : mark gone w = w :=
  if_neg h

theorem mark_cons (t : Nat) (gone : List Nat) (w : Waiter) :
    mark gone (mark [t] w) = mark (t :: gone) w := by
  by_cases ht : w.ticket = t <;> by_cases hgone : w.ticket ∈ gone <;> simp [mark, ht, hgone]

/-- No two ids wait under one ticket. -/
def Distinct (waiters : Dict String Waiter) : Prop :=
  ∀ {i j v w}, waiters.get? i = some v → waiters.get? j = some w → v.ticket = w.ticket → i = j

theorem get?_tearIn {waiters : Dict String Waiter} (hd : Distinct waiters) (t : Nat) (i : String) :
    (tearIn t waiters).get? i = (waiters.get? i).map (mark [t]) := by
  unfold tearIn
  split
  · rename_i id w hfind
    have hw := Dict.mem_entries_iff.1 (List.mem_of_find?_eq_some hfind)
    have ht : w.ticket = t := by simpa using List.find?_some hfind
    rw [Dict.get?_insert]
    by_cases hi : i = id
    · rw [if_pos hi, hi, hw, Option.map_some, mark_of_mem (by simp [ht])]
    · rw [if_neg hi]
      cases hv : waiters.get? i with
      | none => rfl
      | some v =>
          rw [Option.map_some, mark_of_not_mem]
          intro hmem
          exact hi (hd hv hw ((List.mem_singleton.1 hmem).trans ht.symm))
  · rename_i hfind
    cases hv : waiters.get? i with
    | none => rfl
    | some v =>
        have hne := List.find?_eq_none.1 hfind _ (Dict.mem_entries_iff.2 hv)
        rw [Option.map_some, mark_of_not_mem]
        simpa using hne

theorem Distinct.tearIn {waiters : Dict String Waiter} (hd : Distinct waiters) (t : Nat) :
    Distinct (tearIn t waiters) := by
  intro i j v w hv hw hticket
  rw [get?_tearIn hd] at hv hw
  obtain ⟨v', hv', rfl⟩ := Option.map_eq_some_iff.1 hv
  obtain ⟨w', hw', rfl⟩ := Option.map_eq_some_iff.1 hw
  exact hd hv' hw' (by simpa using hticket)

theorem get?_foldl_tearIn {waiters : Dict String Waiter} (hd : Distinct waiters) (gone : List Nat)
    (i : String) :
    (gone.foldl (fun waiters t => tearIn t waiters) waiters).get? i
      = (waiters.get? i).map (mark gone) := by
  induction gone generalizing waiters with
  | nil =>
      have hmark : mark [] = id := funext fun w => mark_of_not_mem List.not_mem_nil
      rw [hmark, Option.map_id]
      rfl
  | cons t gone ih =>
      rw [List.foldl_cons, ih (hd.tearIn t), get?_tearIn hd, Option.map_map]
      congr 1
      funext w
      exact mark_cons t gone w

theorem Sound.distinct (hc : c.Sound roots) : Distinct c.waiters := hc.waiter_unique

theorem Sound.get?_tear (hc : c.Sound roots) (t : Nat) (i : String) :
    (c.tear t).waiters.get? i
      = (c.waiters.get? i).map (mark (chain c.served t c.served.length)) :=
  get?_foldl_tearIn hc.distinct _ i

theorem Sound.mem_tear_served (hc : c.Sound roots) {r : Resolution} :
    (x, r) ∈ (c.tear t).served ↔ (x, r) ∈ c.served ∧ ¬Leads c.served t x := by
  rw [← hc.mem_chain_iff]
  show (x, r) ∈ c.served.filter _ ↔ _
  simp

/-- What is found after tearing was there before, and its ticket is torn if it is in the line. -/
theorem Sound.of_get?_tear (hc : c.Sound roots) {i : String} {w : Waiter}
    (h : (c.tear t).waiters.get? i = some w) :
    ∃ v, c.waiters.get? i = some v ∧ w.ticket = v.ticket
      ∧ (Leads c.served t v.ticket ∧ w.torn = true ∨ ¬Leads c.served t v.ticket ∧ w = v) := by
  rw [hc.get?_tear] at h
  obtain ⟨v, hv, rfl⟩ := Option.map_eq_some_iff.1 h
  refine ⟨v, hv, mark_ticket _ v, ?_⟩
  by_cases hmem : v.ticket ∈ chain c.served t c.served.length
  · rw [mark_of_mem hmem]
    exact .inl ⟨hc.mem_chain_iff.1 hmem, rfl⟩
  · rw [mark_of_not_mem hmem]
    exact .inr ⟨fun h => hmem (hc.mem_chain_iff.2 h), rfl⟩

/-- What is not in the line stays as it is. -/
theorem Sound.agree_tear (hc : c.Sound roots) (hx : ¬Leads c.served t x) :
    Agree c (c.tear t) x := by
  constructor
  · intro r
    rw [hc.mem_tear_served]
    exact and_iff_left hx
  · rintro i w rfl
    constructor
    · intro h
      obtain ⟨v, hv, hticket, hcase⟩ := hc.of_get?_tear h
      rw [hticket] at hx
      rcases hcase with ⟨hleads, _⟩ | ⟨_, rfl⟩
      · exact absurd hleads hx
      · exact hv
    · intro h
      rw [hc.get?_tear, h, Option.map_some, mark_of_not_mem]
      exact fun hmem => hx (hc.mem_chain_iff.1 hmem)

/-- A request's line goes when its ticket is torn, and what nobody holds then is exactly that. -/
theorem Sound.held_tear (hc : c.Sound (a ++ t :: b)) :
    (c.tear t).Held (a ++ b) n ↔ c.Held (a ++ t :: b) n ∧ ¬Leads c.served t n := by
  have hnodup := List.nodup_middle.1 hc.roots_nodup
  have ht : t ∈ a ++ t :: b := by simp
  have hmem : n ∈ a ++ t :: b ↔ n = t ∨ n ∈ a ++ b := by simp; tauto
  constructor
  · rintro (hn | ⟨s, r, hr, hn⟩)
    · have hn' := hmem.2 (.inr hn)
      refine ⟨.inl hn', fun hleads => ?_⟩
      rw [hc.eq_of_leads_root hleads hn'] at hnodup
      exact (List.nodup_cons.1 hnodup).1 hn
    · obtain ⟨hr, hs⟩ := hc.mem_tear_served.1 hr
      have hholds : Holds c.served s n := ⟨r, hr, hn⟩
      refine ⟨.inr ⟨s, hholds⟩, fun hleads => hs ?_⟩
      exact hc.leads_of_holds hleads hholds fun heq => hc.root_free hholds (heq ▸ ht)
  · rintro ⟨hn | ⟨s, hholds⟩, hleads⟩
    · rcases hmem.1 hn with rfl | hn
      · exact absurd .refl hleads
      · exact .inl hn
    · refine .inr ⟨s, hholds.mono fun r hr => hc.mem_tear_served.2 ⟨hr, fun hs => ?_⟩⟩
      exact hleads (hs.tail hholds)

theorem Sound.tear (hc : c.Sound (a ++ t :: b)) : (c.tear t).Sound (a ++ b) := by
  have hholds {s n : Nat} (h : Holds (c.tear t).served s n) : Holds c.served s n :=
    h.mono fun r hr => (hc.mem_tear_served.1 hr).1
  constructor
  · exact (List.nodup_cons.1 (List.nodup_middle.1 hc.roots_nodup)).2
  · intro s r r' hr hr'
    exact hc.served_unique (hc.mem_tear_served.1 hr).1 (hc.mem_tear_served.1 hr').1
  · intro i j v w hv hw hticket
    obtain ⟨v', hv', hvt, _⟩ := hc.of_get?_tear hv
    obtain ⟨w', hw', hwt, _⟩ := hc.of_get?_tear hw
    exact hc.waiter_unique hv' hw' (by rw [← hvt, ← hwt, hticket])
  · intro i w r hw hr
    obtain ⟨w', hw', hticket, _⟩ := hc.of_get?_tear hw
    rw [hticket] at hr
    exact hc.waiter_unserved hw' (hc.mem_tear_served.1 hr).1
  · intro s s' n h h'
    exact hc.holder_unique (hholds h) (hholds h')
  · intro s n h hn
    apply hc.root_free (hholds h)
    simp only [List.mem_append, List.mem_cons] at hn ⊢
    tauto
  · intro s n h
    exact hc.forward (hholds h)
  · intro i w hw
    obtain ⟨w', hw', hticket, _⟩ := hc.of_get?_tear hw
    rw [hticket]
    exact hc.waiter_drawn hw'
  · intro n hn
    exact hc.held_drawn (hc.held_tear.1 hn).1
  · intro s r hr
    obtain ⟨hr, hs⟩ := hc.mem_tear_served.1 hr
    exact hc.held_tear.2 ⟨hc.served_held hr, hs⟩
  · intro i w hw
    obtain ⟨w', hw', hticket, hcase⟩ := hc.of_get?_tear hw
    rw [hc.held_tear, hticket, hc.waiter_held hw']
    rcases hcase with ⟨hleads, htorn⟩ | ⟨hleads, rfl⟩
    · simp [hleads, htorn]
    · simp [hleads]

/-- A request whose ticket will never be served holds nothing. -/
theorem Sound.drop (hc : c.Sound (a ++ t :: b)) (hserved : ∀ r, (t, r) ∉ c.served)
    (hwaiters : ∀ i w, c.waiters.get? i = some w → w.ticket ≠ t) : c.Sound (a ++ b) := by
  have hnodup := List.nodup_cons.1 (List.nodup_middle.1 hc.roots_nodup)
  have hheld : ∀ n, c.Held (a ++ t :: b) n ↔ n = t ∨ c.Held (a ++ b) n := by
    intro n
    simp only [Held, List.mem_append, List.mem_cons]
    tauto
  constructor
  · exact hnodup.2
  · exact hc.served_unique
  · exact hc.waiter_unique
  · exact hc.waiter_unserved
  · exact hc.holder_unique
  · intro s n hholds hn
    apply hc.root_free hholds
    simp only [List.mem_append, List.mem_cons] at hn ⊢
    tauto
  · exact hc.forward
  · exact hc.waiter_drawn
  · intro n hn
    exact hc.held_drawn ((hheld n).2 (.inr hn))
  · intro s r hr
    refine ((hheld s).1 (hc.served_held hr)).resolve_left ?_
    rintro rfl
    exact hserved r hr
  · intro i w hw
    rw [← hc.waiter_held hw, hheld]
    exact (or_iff_right (hwaiters i w hw)).symm

/-! ### Fetching -/

theorem mem_fetched_served {r : Resolution} :
    (x, r) ∈ (c.fetched t).served ↔ (x, r) ∈ c.served ∧ x ≠ t := by
  simp [fetched]

theorem agree_fetched (hx : x ≠ t) : Agree c (c.fetched t) x := by
  refine ⟨fun r => ?_, fun i w _ => Iff.rfl⟩
  rw [mem_fetched_served]
  exact and_iff_left hx

theorem holds_fetched : Holds (c.fetched t).served s n ↔ Holds c.served s n ∧ s ≠ t := by
  constructor
  · rintro ⟨r, hr, hn⟩
    obtain ⟨hr, hs⟩ := mem_fetched_served.1 hr
    exact ⟨⟨r, hr, hn⟩, hs⟩
  · rintro ⟨⟨r, hr, hn⟩, hs⟩
    exact ⟨r, mem_fetched_served.2 ⟨hr, hs⟩, hn⟩

theorem Sound.mem_followUp (hc : c.Sound roots) {r : Resolution} (hr : (t, r) ∈ c.served) :
    n ∈ r.followUp.toList ↔ Holds c.served t n := by
  rw [Option.mem_toList]
  refine ⟨fun h => ⟨r, hr, h⟩, fun ⟨r', hr', hn⟩ => ?_⟩
  rw [hc.served_unique hr hr']
  exact hn

/-- A request that fetches a message gives its ticket up for the one that the message holds. -/
theorem Sound.held_fetched (hc : c.Sound (a ++ t :: b)) {r : Resolution} (hr : (t, r) ∈ c.served) :
    (c.fetched t).Held (a ++ r.followUp.toList ++ b) n ↔ c.Held (a ++ t :: b) n ∧ n ≠ t := by
  have hnodup := List.nodup_cons.1 (List.nodup_middle.1 hc.roots_nodup)
  have hroot : t ∈ a ++ t :: b := by simp
  have hmem : n ∈ a ++ t :: b ↔ n = t ∨ n ∈ a ++ b := by simp; tauto
  have hmem' : n ∈ a ++ r.followUp.toList ++ b ↔ n ∈ a ++ b ∨ Holds c.served t n := by
    rw [← hc.mem_followUp hr]
    simp only [List.mem_append]
    tauto
  constructor
  · rintro (hn | ⟨s, hs⟩)
    · rcases hmem'.1 hn with hn | hn
      · exact ⟨.inl (hmem.2 (.inr hn)), fun heq => hnodup.1 (heq ▸ hn)⟩
      · exact ⟨.inr ⟨t, hn⟩, (hc.forward hn).ne'⟩
    · have hs := (holds_fetched.1 hs).1
      exact ⟨.inr ⟨s, hs⟩, fun heq => hc.root_free hs (heq ▸ hroot)⟩
  · rintro ⟨hn | ⟨s, hs⟩, hne⟩
    · exact .inl (hmem'.2 (.inl ((hmem.1 hn).resolve_left hne)))
    · by_cases heq : s = t
      · exact .inl (hmem'.2 (.inr (heq ▸ hs)))
      · exact .inr ⟨s, holds_fetched.2 ⟨hs, heq⟩⟩

theorem Sound.fetched (hc : c.Sound (a ++ t :: b)) {r : Resolution} (hr : (t, r) ∈ c.served) :
    (c.fetched t).Sound (a ++ r.followUp.toList ++ b) := by
  have hnodup := List.nodup_cons.1 (List.nodup_middle.1 hc.roots_nodup)
  have hmem {m : Nat} (hm : m ∈ a ++ b) : m ∈ a ++ t :: b := by
    simp only [List.mem_append, List.mem_cons] at hm ⊢
    tauto
  constructor
  · rw [List.append_assoc]
    cases hfollow : r.followUp with
    | none => exact hnodup.2
    | some m =>
        refine List.nodup_middle.2 (List.nodup_cons.2 ⟨fun hm => ?_, hnodup.2⟩)
        exact hc.root_free ⟨r, hr, hfollow⟩ (hmem hm)
  · intro u r₁ r₂ h₁ h₂
    exact hc.served_unique (mem_fetched_served.1 h₁).1 (mem_fetched_served.1 h₂).1
  · exact hc.waiter_unique
  · intro i w r' hw h
    exact hc.waiter_unserved hw (mem_fetched_served.1 h).1
  · intro u v m hu hv
    exact hc.holder_unique (holds_fetched.1 hu).1 (holds_fetched.1 hv).1
  · intro u m hu hm
    obtain ⟨hu, hne⟩ := holds_fetched.1 hu
    rw [List.mem_append, List.mem_append, hc.mem_followUp hr] at hm
    rcases hm with (hm | hm) | hm
    · exact hc.root_free hu (hmem (List.mem_append_left b hm))
    · exact hne (hc.holder_unique hu hm)
    · exact hc.root_free hu (hmem (List.mem_append_right a hm))
  · intro u m hu
    exact hc.forward (holds_fetched.1 hu).1
  · exact hc.waiter_drawn
  · intro m hm
    exact hc.held_drawn ((hc.held_fetched hr).1 hm).1
  · intro u r' h
    obtain ⟨h, hne⟩ := mem_fetched_served.1 h
    exact (hc.held_fetched hr).2 ⟨hc.served_held h, hne⟩
  · intro i w hw
    rw [hc.held_fetched hr, ← hc.waiter_held hw]
    refine and_iff_left ?_
    rintro rfl
    exact hc.waiter_unserved hw hr

/-! ### What a request that goes on does -/

/-- Nothing lies under the ticket that is drawn next. -/
theorem Sound.leads_drawn (hc : c.Sound roots) (h : Leads c.served c.drawn x) : x = c.drawn := by
  rcases Relation.ReflTransGen.cases_head h with heq | ⟨m, ⟨r, hr, _⟩, _⟩
  · exact heq.symm
  · exact absurd hr (hc.not_served_drawn r)

/-- Tearing the ticket that was drawn last marks it and nothing else. -/
theorem Sound.tear_drawn (hc : c.Sound roots) (id : String) :
    ({ c with waiters := c.waiters.insert id { ticket := c.drawn }, drawn := c.drawn + 1 } :
      Correlator).tear c.drawn
      = { c with
          waiters := c.waiters.insert id { ticket := c.drawn, torn := true }
          drawn := c.drawn + 1 } := by
  have hk := hc.register id
  set k : Correlator := { c with
    waiters := c.waiters.insert id { ticket := c.drawn }, drawn := c.drawn + 1 } with hkdef
  have hgone {y : Nat} : y ∈ chain k.served c.drawn k.served.length ↔ y = c.drawn := by
    refine ⟨fun hy => hc.leads_drawn (hk.leads_of_mem_chain hy), fun hy => ?_⟩
    rw [hy]
    exact mem_chain_self _ _ _
  have hwaiters : (k.tear c.drawn).waiters
      = c.waiters.insert id { ticket := c.drawn, torn := true } := by
    apply Dict.ext_get?
    intro i
    rw [hk.get?_tear, Dict.get?_insert, Dict.get?_insert]
    by_cases hi : i = id
    · rw [if_pos hi, if_pos hi, Option.map_some, mark_of_mem (hgone.2 rfl)]
    · rw [if_neg hi, if_neg hi]
      cases hw : c.waiters.get? i with
      | none => rfl
      | some w =>
          rw [Option.map_some, mark_of_not_mem]
          exact fun hmem => hc.waiter_ne hw (hgone.1 hmem)
  have hserved : (k.tear c.drawn).served = c.served := by
    show c.served.filter _ = _
    rw [List.filter_eq_self]
    intro e he
    have hne : e.1 ≠ c.drawn := by
      intro heq
      exact hc.not_served_drawn e.2 (heq ▸ he)
    simpa [hgone] using hne
  rw [← hwaiters, ← hserved]
  rfl

/-- Registering an id and taking that back leaves nothing but a ticket that nobody has. -/
theorem Sound.tear_register (hc : c.Sound roots) {id : String} (h : c.waiters.get? id = none) :
    (({ c with waiters := c.waiters.insert id { ticket := c.drawn }, drawn := c.drawn + 1 } :
      Correlator).tear c.drawn).release id = { c with drawn := c.drawn + 1 } := by
  have hwaiters : ((c.waiters.insert id { ticket := c.drawn, torn := true }).erase id)
      = c.waiters := by
    apply Dict.ext_get?
    intro i
    rw [Dict.get?_erase, Dict.get?_insert]
    by_cases hi : i = id
    · rw [if_pos hi, hi, h]
    · rw [if_neg hi, if_neg hi]
  rw [hc.tear_drawn]
  unfold Correlator.release
  dsimp only
  rw [Dict.get?_insert_self]
  dsimp only
  rw [hwaiters]

/-- What a request under an id does with the ticket it holds when it goes on, and the ticket that it
holds then, if it goes on waiting. Only one that `spills` leaves the id registered for a message
that it throws away. -/
inductive Resumed (c : Correlator) (t : Nat) (id : String) (spills : Prop) :
    Option Nat → Correlator → Prop
  /-- Its time is over. -/
  | withdrawn : Resumed c t id spills none ((c.tear t).release id)
  /-- The session has ended. -/
  | hopeless (unserved : ∀ r, (t, r) ∉ c.served)
      (unregistered : ∀ i w, c.waiters.get? i = some w → w.ticket ≠ t) :
      Resumed c t id spills none c
  | settled {r : Resolution} (ready : (t, r) ∈ c.served) (last : r.followUp = none) :
      Resumed c t id spills none (c.fetched t)
  | freed {r : Resolution} (ready : (t, r) ∈ c.served) (last : r.followUp = none) :
      Resumed c t id spills none ((c.fetched t).release id)
  /-- It waits for the message that was announced. -/
  | kept {r : Resolution} {next : Nat} (ready : (t, r) ∈ c.served)
      (announced : r.followUp = some next) : Resumed c t id spills (some next) (c.fetched t)
  | released {r : Resolution} {next : Nat} (ready : (t, r) ∈ c.served)
      (announced : r.followUp = some next) :
      Resumed c t id spills none (((c.fetched t).tear next).release id)
  | spilled {r : Resolution} {next : Nat} (spill : spills) (ready : (t, r) ∈ c.served)
      (announced : r.followUp = some next) :
      Resumed c t id spills none ((c.fetched t).tear next)

variable {id : String} {spills : Prop} {out : Option Nat}

theorem Resumed.sound (h : c.Resumed t id spills out c') (hc : c.Sound (a ++ t :: b)) :
    c'.Sound (a ++ out.toList ++ b) := by
  have hfetched {r : Resolution} {m : Nat} (ready : (t, r) ∈ c.served)
      (announced : r.followUp = some m) : (c.fetched t).Sound (a ++ m :: b) := by
    simpa [announced] using hc.fetched ready
  cases h with
  | withdrawn => simpa using hc.tear.release id
  | hopeless unserved unregistered => simpa using hc.drop unserved unregistered
  | settled ready last => simpa [last] using hc.fetched ready
  | freed ready last => simpa [last] using (hc.fetched ready).release id
  | kept ready announced => simpa using hfetched ready announced
  | released ready announced => simpa using (hfetched ready announced).tear.release id
  | spilled _ ready announced => simpa using (hfetched ready announced).tear

/-- Other lines are not concerned. -/
theorem Resumed.agree (h : c.Resumed t id spills out c') (hc : c.Sound (a ++ t :: b))
    (hx : c.Held (a ++ t :: b) x) (hline : ¬Leads c.served t x) : Agree c c' x := by
  have hne : x ≠ t := by
    rintro rfl
    exact hline .refl
  have htorn {r : Resolution} {m : Nat} (ready : (t, r) ∈ c.served)
      (announced : r.followUp = some m) :
      (c.fetched t).Sound (a ++ m :: b) ∧ (c.fetched t).Held (a ++ m :: b) x
        ∧ ¬Leads (c.fetched t).served m x := by
    refine ⟨?_, ?_, fun hleads => hline ?_⟩
    · simpa [announced] using hc.fetched ready
    · simpa [announced] using (hc.held_fetched ready).2 ⟨hx, hne⟩
    · refine .head ⟨r, ready, announced⟩ ?_
      refine Relation.ReflTransGen.mono (fun u v huv => ?_) m x hleads
      exact (holds_fetched.1 huv).1
  cases h with
  | withdrawn =>
      have hheld := hc.held_tear.2 ⟨hx, hline⟩
      exact (hc.agree_tear hline).trans (hc.tear.agree_release id hheld)
  | hopeless => exact ⟨fun _ => Iff.rfl, fun _ _ _ => Iff.rfl⟩
  | settled | kept => exact agree_fetched hne
  | freed ready _ =>
      have hheld := (hc.held_fetched ready).2 ⟨hx, hne⟩
      exact (agree_fetched hne).trans ((hc.fetched ready).agree_release id hheld)
  | released ready announced =>
      obtain ⟨hk, hheld, hleads⟩ := htorn ready announced
      have htear := (agree_fetched hne).trans (hk.agree_tear hleads)
      exact htear.trans (hk.tear.agree_release id (hk.held_tear.2 ⟨hheld, hleads⟩))
  | spilled _ ready announced =>
      obtain ⟨hk, _, hleads⟩ := htorn ready announced
      exact (agree_fetched hne).trans (hk.agree_tear hleads)

/-- A request that goes on registers nothing. -/
theorem Resumed.registered (h : c.Resumed t id spills out c') (hc : c.Sound (a ++ t :: b))
    {i : String} {w : Waiter} (hw : c'.waiters.get? i = some w) :
    ∃ v, c.waiters.get? i = some v := by
  have htorn {r : Resolution} {m : Nat} (ready : (t, r) ∈ c.served)
      (announced : r.followUp = some m) {v : Waiter}
      (hv : ((c.fetched t).tear m).waiters.get? i = some v) : ∃ v, c.waiters.get? i = some v := by
    have hk : (c.fetched t).Sound (a ++ m :: b) := by
      simpa [announced] using hc.fetched ready
    obtain ⟨u, hu, _⟩ := hk.of_get?_tear hv
    exact ⟨u, hu⟩
  cases h with
  | withdrawn =>
      obtain ⟨v, hv, _⟩ := hc.of_get?_tear (get?_of_get?_release hw)
      exact ⟨v, hv⟩
  | hopeless | settled | kept => exact ⟨w, hw⟩
  | freed =>
      have hw := get?_of_get?_release hw
      exact ⟨w, hw⟩
  | released ready announced => exact htorn ready announced (get?_of_get?_release hw)
  | spilled _ ready announced => exact htorn ready announced hw

end Correlator

end DataGateway

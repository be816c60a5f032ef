import DataGateway.Proofs.Correlator.Operations

/-!
# Messages for a correlator

What a message does to the tickets is told by `Taken`, whatever the message and the waiter that
takes it: it ends a line, or makes it longer by the ticket that is drawn for a second message.
Either keeps the tickets in order and has no effect on other lines.
-/

namespace DataGateway

namespace Correlator

variable {c c' : Correlator} {roots a b : List Nat} {s t n x : Nat}

/-- A waiter has taken a message: laid out unless the ticket was torn, and with the id registered
anew, in the same condition, if a second message is announced. -/
structure Taken (c : Correlator) (w : Waiter) (r : Resolution) (c' : Correlator) : Prop where
  waiters : ∀ i, c'.waiters.get? i = if i = r.header.messageId
    then r.followUp.map ({ ticket := ·, torn := w.torn }) else c.waiters.get? i
  served : c'.served = c.served ++ if w.torn then [] else [(w.ticket, r)]
  announced : r.followUp = none ∧ c'.drawn = c.drawn
    ∨ r.followUp = some c.drawn ∧ c'.drawn = c.drawn + 1
  log : c'.log = c.log

theorem receive_of_none {h : Header} (hw : c.waiters.get? h.messageId = none) (p : Payload) :
    c.receive h p = c.dispatch h p := by
  unfold receive
  dsimp only
  rw [hw]

theorem dispatch_eq (c : Correlator) (h : Header) (p : Payload) :
    ∃ log, c.dispatch h p = { c with log } := by
  unfold dispatch
  split
  · exact ⟨c.log, rfl⟩
  · exact ⟨_, rfl⟩

theorem Sound.receive_of_some (hc : c.Sound roots) {h : Header} {w : Waiter}
    (hw : c.waiters.get? h.messageId = some w) (p : Payload) :
    ∃ followUp, (followUp.isSome ↔ expectsFollowUp p)
      ∧ c.Taken w { header := h, payload := p, followUp } (c.receive h p) := by
  unfold receive
  dsimp only
  rw [hw]
  dsimp only
  obtain ⟨ticket, torn⟩ := w
  cases hexpects : expectsFollowUp p with
  | false =>
      rw [if_neg Bool.false_ne_true]
      refine ⟨none, by simp, ?_⟩
      cases torn with
      | false => exact ⟨fun i => Dict.get?_erase _ _ i, rfl, .inl ⟨rfl, rfl⟩, rfl⟩
      | true =>
          refine ⟨fun i => Dict.get?_erase _ _ i, ?_, .inl ⟨rfl, rfl⟩, rfl⟩
          exact (List.append_nil _).symm
  | true =>
      rw [if_pos rfl]
      refine ⟨some c.drawn, by simp, ?_⟩
      cases torn with
      | false => exact ⟨fun i => Dict.get?_insert _ _ i _, rfl, .inr ⟨rfl, rfl⟩, rfl⟩
      | true =>
          show Taken c _ _ (Correlator.tear _ c.drawn)
          rw [hc.tear_drawn]
          refine ⟨fun i => Dict.get?_insert _ _ i _, ?_, .inr ⟨rfl, rfl⟩, rfl⟩
          exact (List.append_nil _).symm

section Taken

variable {r : Resolution} {w : Waiter}

theorem Taken.eq_drawn (h : c.Taken w r c') (hn : r.followUp = some n) :
    n = c.drawn ∧ c'.drawn = c.drawn + 1 := by
  rcases h.announced with ⟨hnone, _⟩ | ⟨hsome, hdrawn⟩
  · rw [hnone] at hn
    cases hn
  · rw [hsome] at hn
    exact ⟨(Option.some.inj hn).symm, hdrawn⟩

theorem Taken.drawn_le (h : c.Taken w r c') : c.drawn ≤ c'.drawn := by
  rcases h.announced with ⟨_, hdrawn⟩ | ⟨_, hdrawn⟩ <;> omega

theorem Taken.mem_served (h : c.Taken w r c') {r' : Resolution} : (t, r') ∈ c'.served
    ↔ (t, r') ∈ c.served ∨ w.torn = false ∧ t = w.ticket ∧ r' = r := by
  rw [h.served]
  cases w.torn <;> simp

theorem Taken.holds_iff (h : c.Taken w r c') : Holds c'.served t n
    ↔ Holds c.served t n ∨ w.torn = false ∧ t = w.ticket ∧ r.followUp = some n := by
  unfold Holds
  simp only [h.mem_served]
  grind

theorem Taken.held_iff (h : c.Taken w r c') : c'.Held roots n
    ↔ c.Held roots n ∨ w.torn = false ∧ r.followUp = some n := by
  unfold Held
  simp only [h.holds_iff]
  grind

theorem Taken.of_get? (h : c.Taken w r c') {i : String} {v : Waiter}
    (hv : c'.waiters.get? i = some v) :
    i = r.header.messageId ∧ r.followUp = some v.ticket ∧ v.torn = w.torn
      ∨ i ≠ r.header.messageId ∧ c.waiters.get? i = some v := by
  rw [h.waiters] at hv
  by_cases hi : i = r.header.messageId
  · rw [if_pos hi] at hv
    obtain ⟨m, hm, rfl⟩ := Option.map_eq_some_iff.1 hv
    exact .inl ⟨hi, hm, rfl⟩
  · rw [if_neg hi] at hv
    exact .inr ⟨hi, hv⟩

/-- A waiter that has taken a message leaves the tickets in order. -/
theorem Taken.sound (h : c.Taken w r c') (hc : c.Sound roots)
    (hw : c.waiters.get? r.header.messageId = some w) : c'.Sound roots where
  roots_nodup := hc.roots_nodup
  served_unique h₁ h₂ := by
    rcases h.mem_served.1 h₁ with h₁ | ⟨_, rfl, rfl⟩ <;>
      rcases h.mem_served.1 h₂ with h₂ | ⟨_, heq, rfl⟩
    · exact hc.served_unique h₁ h₂
    · exact absurd (heq ▸ h₁) (hc.waiter_unserved hw)
    · exact absurd h₂ (hc.waiter_unserved hw)
    · rfl
  waiter_unique hv hu hticket := by
    rcases h.of_get? hv with ⟨hi, hm, _⟩ | ⟨hi, hv⟩ <;>
      rcases h.of_get? hu with ⟨hj, hm', _⟩ | ⟨hj, hu⟩
    · rw [hi, hj]
    · exact absurd (hticket.symm.trans (h.eq_drawn hm).1) (hc.waiter_ne hu)
    · exact absurd (hticket.trans (h.eq_drawn hm').1) (hc.waiter_ne hv)
    · exact hc.waiter_unique hv hu hticket
  waiter_unserved hv hr' := by
    rcases h.of_get? hv with ⟨hi, hm, _⟩ | ⟨hi, hv⟩ <;>
      rcases h.mem_served.1 hr' with hr' | ⟨_, heq, _⟩
    · rw [(h.eq_drawn hm).1] at hr'
      exact hc.not_served_drawn _ hr'
    · exact hc.waiter_ne hw (heq ▸ (h.eq_drawn hm).1)
    · exact hc.waiter_unserved hv hr'
    · exact hi (hc.waiter_unique hv hw heq)
  holder_unique hu hu' := by
    rcases h.holds_iff.1 hu with hu | ⟨_, hu, hm⟩ <;>
      rcases h.holds_iff.1 hu' with hu' | ⟨_, hu', hm'⟩
    · exact hc.holder_unique hu hu'
    · exact absurd (h.eq_drawn hm').1 (hc.held_drawn (.inr ⟨_, hu⟩)).ne
    · exact absurd (h.eq_drawn hm).1 (hc.held_drawn (.inr ⟨_, hu'⟩)).ne
    · rw [hu, hu']
  root_free hu hm := by
    rcases h.holds_iff.1 hu with hu | ⟨_, _, hnext⟩
    · exact hc.root_free hu hm
    · exact (hc.held_drawn (.inl hm)).ne (h.eq_drawn hnext).1
  forward hu := by
    rcases h.holds_iff.1 hu with hu | ⟨_, rfl, hm⟩
    · exact hc.forward hu
    · rw [(h.eq_drawn hm).1]
      exact hc.waiter_drawn hw
  waiter_drawn hv := by
    rcases h.of_get? hv with ⟨_, hm, _⟩ | ⟨_, hv⟩
    · obtain ⟨hticket, hdrawn⟩ := h.eq_drawn hm
      omega
    · exact (hc.waiter_drawn hv).trans_le h.drawn_le
  held_drawn hm := by
    rcases h.held_iff.1 hm with hm | ⟨_, hm⟩
    · exact (hc.held_drawn hm).trans_le h.drawn_le
    · obtain ⟨hticket, hdrawn⟩ := h.eq_drawn hm
      omega
  served_held hr' := by
    rcases h.mem_served.1 hr' with hr' | ⟨htorn, rfl, _⟩
    · exact h.held_iff.2 (.inl (hc.served_held hr'))
    · exact h.held_iff.2 (.inl ((hc.waiter_held hw).2 htorn))
  waiter_held {i v} hv := by
    rw [h.held_iff]
    rcases h.of_get? hv with ⟨_, hm, htorn⟩ | ⟨_, hv⟩
    · have hfresh : ¬c.Held roots v.ticket := by
        rw [(h.eq_drawn hm).1]
        exact fun h => (hc.held_drawn h).ne rfl
      simp [hfresh, hm, htorn]
    · have hold : r.followUp ≠ some v.ticket := fun hm => hc.waiter_ne hv (h.eq_drawn hm).1
      simp [hold, hc.waiter_held hv]

theorem Taken.agree (h : c.Taken w r c') (hc : c.Sound roots)
    (hw : c.waiters.get? r.header.messageId = some w) (hx : c.Held roots x)
    (hne : x ≠ w.ticket) : Agree c c' x := by
  constructor
  · intro r'
    rw [h.served]
    cases w.torn <;> simp [hne]
  · rintro i v rfl
    rw [h.waiters]
    by_cases hi : i = r.header.messageId
    · have hv : c.waiters.get? i ≠ some v := by
        intro hv
        rw [hi, hw] at hv
        exact hne (congrArg Waiter.ticket (Option.some.inj hv)).symm
      have hnew : r.followUp ≠ some v.ticket := by
        have := (hc.held_drawn hx).ne
        rcases h.announced with ⟨hnone, _⟩ | ⟨hsome, _⟩
        · simp [hnone]
        · simp [hsome, this.symm]
      rw [if_pos hi]
      refine iff_of_false (fun hv' => ?_) hv
      obtain ⟨m, hm, rfl⟩ := Option.map_eq_some_iff.1 hv'
      exact hnew hm
    · rw [if_neg hi]

end Taken

theorem Sound.receive (hc : c.Sound roots) (h : Header) (p : Payload) :
    (c.receive h p).Sound roots := by
  cases hw : c.waiters.get? h.messageId with
  | none =>
      rw [receive_of_none hw]
      obtain ⟨log, heq⟩ := dispatch_eq c h p
      rw [heq]
      exact hc.of_waiters rfl le_rfl fun _ _ h => h
  | some w =>
      obtain ⟨_, _, htaken⟩ := hc.receive_of_some hw p
      exact htaken.sound hc hw

/-- A message has no effect on a ticket that does not wait under its id. -/
theorem Sound.agree_receive (hc : c.Sound roots) (h : Header) (p : Payload) (hx : c.Held roots x)
    (hne : ∀ w, c.waiters.get? h.messageId = some w → x ≠ w.ticket) :
    Agree c (c.receive h p) x := by
  cases hw : c.waiters.get? h.messageId with
  | none =>
      rw [receive_of_none hw]
      obtain ⟨log, heq⟩ := dispatch_eq c h p
      rw [heq]
      exact ⟨fun _ => Iff.rfl, fun _ _ _ => Iff.rfl⟩
  | some w =>
      obtain ⟨_, _, htaken⟩ := hc.receive_of_some hw p
      exact htaken.agree hc hw hx (hne w hw)

end Correlator

end DataGateway

import DataGateway.Proofs.Assembler.Bounds

/-!
# Messages do not meet in an assembler

What the operations on one message come to is told by these operations alone, in their order: those
on other messages may come before, between and after them, or not at all. The one thing that
messages share is the number of places, so this holds as long as no first slice is refused for want
of one. The proof runs an assembler that performs all operations beside one that performs only those
of one message (`Mirrors`), in which there is always a place once there is any.
-/

namespace DataGateway.Assembler

/-- The answer refuses a first slice because too many other messages are incomplete. -/
def Answer.isRefusal : Answer → Bool
  | .pushed (.error (.invalid _ (.tooManyIncomplete _ _))) => true
  | _ => false

/-- There was a place for every first slice. -/
def Roomy (log : List (Operation × Answer)) : Prop := ∀ e ∈ log, e.2.isRefusal = false

/-- The operations on a message. -/
def on (id : String) (ops : List Operation) : List Operation :=
  ops.filter fun op => op.id = id

/-- The operations on a message, with their answers. -/
def about (id : String) (log : List (Operation × Answer)) : List (Operation × Answer) :=
  log.filter fun e => e.1.id = id

variable {a b : Assembler} {s : Slice} {id : String} {op : Operation} {ops : List Operation}

theorem not_crowded_of_isRefusal (h : (a.perform (.push s)).1.isRefusal = false) :
    ¬Crowded (a.push s).1 := by
  rintro ⟨count, id, herror⟩
  rw [perform, herror] at h
  cases h

theorem get?_perform_of_ne (a : Assembler) (h : id ≠ op.id) :
    (a.perform op).2.pending.get? id = a.pending.get? id := by
  cases op with
  | push s => exact get?_push_of_ne a h
  | discard other =>
      rw [perform, Assembler.discard, drop, Dict.get?_erase]
      exact if_neg h

/-! ### Side by side -/

/-- The second assembler has the same of one message as the first, has nothing else, and has places
if the first has. -/
structure Mirrors (id : String) (a b : Assembler) : Prop where
  maxPayload : b.maxPayload = a.maxPayload
  get? : b.pending.get? id = a.pending.get? id
  alone : ∀ other, other ≠ id → b.pending.get? other = none
  places : 0 < a.maxPending → 0 < b.maxPending

theorem mirrors_start (id : String) {maxPayload maxPending places : Nat}
    (h : 0 < maxPending → 0 < places) :
    Mirrors id { maxPayload, maxPending } { maxPayload, maxPending := places } :=
  ⟨rfl, rfl, fun _ _ => rfl, h⟩

/-- An assembler that has nothing but of one message has nothing without it. -/
theorem Mirrors.drop_eq_empty (h : Mirrors id a b) : (b.drop id).pending = .empty := by
  apply Dict.ext_get?
  intro other
  rw [drop, Dict.get?_erase, Dict.get?_empty]
  split
  · rfl
  · exact h.alone other ‹_›

theorem Mirrors.admits (h : Mirrors s.header.messageId a b) (ha : a.Admits s) : b.Admits s := by
  intro last offset size hs hsize
  have hplace := ha last offset size hs (h.maxPayload ▸ hsize)
  rw [h.drop_eq_empty]
  exact h.places (Nat.zero_lt_of_lt hplace)

theorem Mirrors.perform_other (h : Mirrors id a b) (hop : op.id ≠ id) :
    Mirrors id (a.perform op).2 b := by
  obtain ⟨hpayload, hpending⟩ := perform_limits a op
  refine ⟨?_, ?_, h.alone, ?_⟩
  · rw [h.maxPayload, hpayload]
  · rw [h.get?, get?_perform_of_ne a hop.symm]
  · rw [hpending]
    exact h.places

/-- What both perform comes to the same in both. -/
theorem Mirrors.perform_own (h : Mirrors op.id a b) (hroom : (a.perform op).1.isRefusal = false) :
    (b.perform op).1 = (a.perform op).1 ∧ Mirrors op.id (a.perform op).2 (b.perform op).2 := by
  obtain ⟨hpayload, hpending⟩ := perform_limits a op
  obtain ⟨hpayload', hpending'⟩ := perform_limits b op
  have hsame : (b.perform op).1 = (a.perform op).1
      ∧ (b.perform op).2.pending.get? op.id = (a.perform op).2.pending.get? op.id := by
    cases op with
    | push s =>
        have ha := admits_of_not_crowded (not_crowded_of_isRefusal hroom)
        obtain ⟨houtcome, hget⟩ := push_congr h.maxPayload h.get? (h.admits ha) ha
        exact ⟨congrArg Answer.pushed houtcome, hget⟩
    | discard id =>
        have hget : b.pending.get? id = a.pending.get? id := h.get?
        simp only [perform, Assembler.discard, drop, hget, Operation.id, Dict.get?_erase_self,
          and_self]
  refine ⟨hsame.1, ?_, hsame.2, fun other hother => ?_, ?_⟩
  · rw [hpayload', hpayload, h.maxPayload]
  · rw [get?_perform_of_ne b hother, h.alone other hother]
  · rw [hpending, hpending']
    exact h.places

theorem Mirrors.performAll (h : Mirrors id a b) (ops : List Operation)
    (hroom : Roomy (a.performAll ops).1) :
    (b.performAll (on id ops)).1 = about id (a.performAll ops).1
      ∧ Mirrors id (a.performAll ops).2 (b.performAll (on id ops)).2 := by
  induction ops generalizing a b with
  | nil => exact ⟨rfl, h⟩
  | cons op ops ih =>
      rw [performAll_cons] at hroom ⊢
      obtain ⟨hfirst, hrest⟩ := List.forall_mem_cons.1 hroom
      by_cases hop : op.id = id
      · subst hop
        obtain ⟨hanswer, hmirrors⟩ := h.perform_own hfirst
        obtain ⟨hlog, hafter⟩ := ih hmirrors hrest
        have hon : on op.id (op :: ops) = op :: on op.id ops := by simp [on]
        rw [hon, performAll_cons, hanswer, hlog]
        exact ⟨by simp [about], hafter⟩
      · have hon : on id (op :: ops) = on id ops := by simp [on, hop]
        obtain ⟨hlog, hafter⟩ := ih (h.perform_other hop) hrest
        rw [hon, hlog]
        exact ⟨by simp [about, hop], hafter⟩

/-- The operations on a message come to the same alone. -/
theorem separate {maxPayload maxPending : Nat} {log : List (Operation × Answer)}
    (h : performAll { maxPayload, maxPending } ops = (log, a)) (hroom : Roomy log) (id : String)
    (places : Nat) (hplaces : 0 < maxPending → 0 < places) : ∃ b,
      performAll { maxPayload, maxPending := places } (on id ops) = (about id log, b)
        ∧ b.pending.get? id = a.pending.get? id := by
  have hstart : Mirrors id { maxPayload, maxPending } { maxPayload, maxPending := places } :=
    mirrors_start id hplaces
  obtain ⟨hlog, hafter⟩ := hstart.performAll ops (by rwa [h])
  rw [h] at hlog hafter
  exact ⟨_, Prod.ext hlog rfl, hafter.get?⟩

/-- Messages reassemble independently. The operations on a message come to the same, and leave the
same of it, as if there were no other message, however many places there are then. So two orders
that agree on the operations on each message come to the same for each. -/
theorem performAll_separates {maxPayload maxPending : Nat} {log : List (Operation × Answer)}
    (h : performAll { maxPayload, maxPending } ops = (log, a)) (hroom : Roomy log) :
    (∀ id places, (0 < maxPending → 0 < places) → ∃ b,
      performAll { maxPayload, maxPending := places } (on id ops) = (about id log, b)
        ∧ b.pending.get? id = a.pending.get? id)
    ∧ ∀ places ops' log' b, performAll { maxPayload, maxPending := places } ops' = (log', b) →
      Roomy log' → (∀ id, on id ops' = on id ops) →
      (∀ id, about id log' = about id log) ∧ b.pending = a.pending := by
  refine ⟨fun id places hplaces => separate h hroom id places hplaces, ?_⟩
  intro places ops' log' b h' hroom' hon
  -- Each message is brought to the run of its own operations with one place.
  have hsame (id : String) :
      about id log' = about id log ∧ b.pending.get? id = a.pending.get? id := by
    obtain ⟨c, hc, hget⟩ := separate h hroom id 1 fun _ => Nat.one_pos
    obtain ⟨d, hd, hget'⟩ := separate h' hroom' id 1 fun _ => Nat.one_pos
    rw [hon, hc] at hd
    obtain ⟨hlog, rfl⟩ := Prod.mk.inj hd
    exact ⟨hlog.symm, hget'.symm.trans hget⟩
  exact ⟨fun id => (hsame id).1, Dict.ext_get? fun id => (hsame id).2⟩

/-- A message is completed while another is under way, and a third is given up. -/
def woven : List Operation :=
  [pushOf "m" (.slice true false 0 3) [0x91], pushOf "n" (.slice true false 0 9) [2],
    .discard "o", pushOf "m" (.slice false true 1 3) [0xa1, 0x78],
    pushOf "n" (.slice false false 1 9) [3]]

/-- The same operations, one message after the other. -/
def unwoven : List Operation := on "o" woven ++ on "m" woven ++ on "n" woven

theorem performAll_separates_woven : ∃ log a log' b,
    performAll { maxPayload := 64, maxPending := 2 } woven = (log, a)
      ∧ performAll { maxPayload := 64, maxPending := 1 } unwoven = (log', b)
      ∧ (∃ c, performAll { maxPayload := 64, maxPending := 2 } (on "m" woven) = (about "m" log, c)
        ∧ c.pending.get? "m" = a.pending.get? "m")
      ∧ (∀ id, about id log' = about id log) ∧ b.pending = a.pending := by
  have hroom : Roomy (performAll { maxPayload := 64, maxPending := 2 } woven).1 := by
    unfold Roomy
    decide +kernel
  have hroom' : Roomy (performAll { maxPayload := 64, maxPending := 1 } unwoven).1 := by
    unfold Roomy
    decide +kernel
  have hon : ∀ id, on id unwoven = on id woven := by
    intro id
    by_cases hm : "m" = id
    · subst hm
      rfl
    · by_cases hn : "n" = id
      · subst hn
        rfl
      · by_cases ho : "o" = id
        · subst ho
          rfl
        · simp [on, unwoven, woven, pushOf, Operation.id, hm, hn, ho]
  obtain ⟨halone, hreordered⟩ := performAll_separates Prod.mk.eta.symm hroom
  obtain ⟨hlog, hpending⟩ := hreordered 1 unwoven _ _ Prod.mk.eta.symm hroom' hon
  exact ⟨_, _, _, _, rfl, rfl, halone "m" 2 id, hlog, hpending⟩

end DataGateway.Assembler

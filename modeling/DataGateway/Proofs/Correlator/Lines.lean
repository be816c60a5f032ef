import DataGateway.Client.Correlator
import DataGateway.Proofs.Dictionary
import Mathlib.Logic.Relation
import Mathlib.Tactic.Common

/-!
# Tickets and who holds them

A ticket is held by the request that waits for it, or by the message laid out under an earlier one,
which announced it. So the tickets that a request comes by form a line, from the one it holds along
what is laid out. `Sound` says that each ticket has one place and at most one holder, and that those
which nobody holds are torn; then the lines of two requests have no ticket in common, and a request
that stops waiting takes exactly its own line away. A correlator's operations keep it `Sound`, each
with the roots that it leaves, and `Agree` says on which tickets an operation has no effect.
-/

namespace DataGateway

namespace Correlator

open Relation (ReflTransGen)

variable {c c' : Correlator} {roots a b : List Nat} {s t n x : Nat}

/-- What is laid out under the first ticket holds the second. -/
def Holds (served : List (Nat × Resolution)) (t n : Nat) : Prop :=
  ∃ r, (t, r) ∈ served ∧ r.followUp = some n

/-- The line of tickets from the first one comes to the second. -/
def Leads (served : List (Nat × Resolution)) : Nat → Nat → Prop := ReflTransGen (Holds served)

/-- Somebody holds the ticket. -/
def Held (c : Correlator) (roots : List Nat) (n : Nat) : Prop :=
  n ∈ roots ∨ ∃ t, Holds c.served t n

/-- The tickets of a correlator are in order, given those that requests hold. -/
structure Sound (c : Correlator) (roots : List Nat) : Prop where
  roots_nodup : roots.Nodup
  served_unique : ∀ {t r r'}, (t, r) ∈ c.served → (t, r') ∈ c.served → r = r'
  waiter_unique : ∀ {i j v w}, c.waiters.get? i = some v → c.waiters.get? j = some w →
    v.ticket = w.ticket → i = j
  waiter_unserved : ∀ {i w r}, c.waiters.get? i = some w → (w.ticket, r) ∉ c.served
  holder_unique : ∀ {s t n}, Holds c.served s n → Holds c.served t n → s = t
  root_free : ∀ {t n}, Holds c.served t n → n ∉ roots
  forward : ∀ {t n}, Holds c.served t n → t < n
  waiter_drawn : ∀ {i w}, c.waiters.get? i = some w → w.ticket < c.drawn
  held_drawn : ∀ {n}, c.Held roots n → n < c.drawn
  served_held : ∀ {t r}, (t, r) ∈ c.served → c.Held roots t
  waiter_held : ∀ {i w}, c.waiters.get? i = some w → (c.Held roots w.ticket ↔ w.torn = false)

theorem sound_new (fallback : Option Listener) : Sound { fallback } [] where
  roots_nodup := List.nodup_nil
  served_unique h := nomatch h
  waiter_unique h := nomatch h
  waiter_unserved _ h := nomatch h
  holder_unique h := nomatch h.choose_spec.1
  root_free _ h := nomatch h
  forward h := nomatch h.choose_spec.1
  waiter_drawn h := nomatch h
  held_drawn h := by rcases h with h | ⟨_, _, h, _⟩ <;> cases h
  served_held h := nomatch h
  waiter_held h := nomatch h

/-! ### Lines -/

theorem Holds.mono {served served' : List (Nat × Resolution)} (h : Holds served t n)
    (hsub : ∀ r, (t, r) ∈ served → (t, r) ∈ served') : Holds served' t n := by
  obtain ⟨r, hr, hn⟩ := h
  exact ⟨r, hsub r hr, hn⟩

theorem Sound.lookup_eq_some (hc : c.Sound roots) {r : Resolution} :
    c.served.lookup t = some r ↔ (t, r) ∈ c.served := by
  constructor
  · intro h
    obtain ⟨before, after, heq, _⟩ := List.lookup_eq_some_iff.1 h
    rw [heq]
    exact List.mem_append_right _ List.mem_cons_self
  · intro h
    cases hlookup : c.served.lookup t with
    | none => simpa using List.lookup_eq_none_iff.1 hlookup (t, r) h
    | some r' =>
        obtain ⟨before, after, heq, _⟩ := List.lookup_eq_some_iff.1 hlookup
        have h' : (t, r') ∈ c.served := by
          rw [heq]
          exact List.mem_append_right _ List.mem_cons_self
        rw [hc.served_unique h h']

theorem Sound.lookup_eq_none (hc : c.Sound roots) :
    c.served.lookup t = none ↔ ∀ r, (t, r) ∉ c.served := by
  rw [Option.eq_none_iff_forall_ne_some]
  exact forall_congr' fun r => not_congr hc.lookup_eq_some

/-- Tickets grow along a line. -/
theorem Sound.le_of_leads (hc : c.Sound roots) (h : Leads c.served s t) : s ≤ t := by
  induction h with
  | refl => exact le_rfl
  | tail _ hholds ih => exact ih.trans (hc.forward hholds).le

/-- No line passes through a ticket that a request holds. -/
theorem Sound.eq_of_leads_root (hc : c.Sound roots) (h : Leads c.served s t) (ht : t ∈ roots) :
    s = t := by
  rcases ReflTransGen.cases_tail h with rfl | ⟨m, _, hholds⟩
  · rfl
  · exact absurd ht (hc.root_free hholds)

theorem Held.of_leads (ht : c.Held roots t) (h : Leads c.served t x) : c.Held roots x := by
  rcases ReflTransGen.cases_tail h with rfl | ⟨m, _, hholds⟩
  · exact ht
  · exact .inr ⟨m, hholds⟩

/-- The line that comes to a held ticket comes to what holds it. -/
theorem Sound.leads_of_holds (hc : c.Sound roots) (h : Leads c.served t n)
    (hholds : Holds c.served s n) (hne : t ≠ n) : Leads c.served t s := by
  rcases ReflTransGen.cases_tail h with rfl | ⟨m, hleads, hholds'⟩
  · exact absurd rfl hne
  · rw [hc.holder_unique hholds hholds']
    exact hleads

/-- The lines of two requests have no ticket in common. -/
theorem Sound.eq_of_leads (hc : c.Sound roots) (hs : s ∈ roots) (ht : t ∈ roots)
    (hsx : Leads c.served s x) (htx : Leads c.served t x) : s = t := by
  induction hsx with
  | refl => exact (hc.eq_of_leads_root htx hs).symm
  | tail _ hholds ih =>
      apply ih
      apply hc.leads_of_holds htx hholds
      intro heq
      exact hc.root_free hholds (heq ▸ ht)

/-- Whoever holds a ticket, its line begins with a request. -/
theorem Sound.root_of_held (hc : c.Sound roots) (h : c.Held roots n) :
    ∃ t ∈ roots, Leads c.served t n := by
  induction n using Nat.strong_induction_on with
  | h n ih =>
      rcases h with h | ⟨s, r, hr, hn⟩
      · exact ⟨n, h, .refl⟩
      · have hholds : Holds c.served s n := ⟨r, hr, hn⟩
        obtain ⟨t, ht, hleads⟩ := ih s (hc.forward hholds) (hc.served_held hr)
        exact ⟨t, ht, hleads.tail hholds⟩

theorem mem_chain_self (served : List (Nat × Resolution)) (t fuel : Nat) :
    t ∈ chain served t fuel := by
  cases fuel with
  | zero => exact List.mem_singleton_self t
  | succ fuel =>
      unfold chain
      split
      · exact List.mem_cons_self
      · exact List.mem_singleton_self t

theorem Sound.follow_eq_some (hc : c.Sound roots) :
    (c.served.lookup t).bind (·.followUp) = some n ↔ Holds c.served t n := by
  rw [Option.bind_eq_some_iff]
  exact exists_congr fun r => and_congr_left' hc.lookup_eq_some

theorem Sound.leads_of_mem_chain (hc : c.Sound roots) {fuel : Nat}
    (h : x ∈ chain c.served t fuel) : Leads c.served t x := by
  induction fuel generalizing t with
  | zero =>
      rw [List.mem_singleton.1 h]
      exact .refl
  | succ fuel ih =>
      unfold chain at h
      split at h
      · rename_i n hn
        rcases List.mem_cons.1 h with rfl | h
        · exact .refl
        · exact .head (hc.follow_eq_some.1 hn) (ih h)
      · rw [List.mem_singleton.1 h]
        exact .refl

/-- Tickets grow along a line, so a walk that has as many steps as there are messages laid out under
this ticket and later ones comes to its end. -/
theorem Sound.mem_chain (hc : c.Sound roots) {fuel : Nat} (h : Leads c.served t x)
    (hfuel : (c.served.filter (t ≤ ·.1)).length ≤ fuel) : x ∈ chain c.served t fuel := by
  induction h using ReflTransGen.head_induction_on generalizing fuel with
  | refl => exact mem_chain_self c.served x fuel
  | @head t n hholds _ ih =>
      have ⟨r, hr, _⟩ := hholds
      have hlt := hc.forward hholds
      have hshorter : (c.served.filter (n ≤ ·.1)).length < (c.served.filter (t ≤ ·.1)).length := by
        have hsub : c.served.filter (n ≤ ·.1) = (c.served.filter (t ≤ ·.1)).filter (n ≤ ·.1) := by
          rw [List.filter_filter]
          apply List.filter_congr
          intro e _
          have : n ≤ e.1 → t ≤ e.1 := by omega
          simpa using this
        rw [hsub]
        apply List.length_filter_lt_length_iff_exists.2
        refine ⟨(t, r), ?_, ?_⟩
        · simpa using hr
        · simpa using hlt
      cases fuel with
      | zero => omega
      | succ fuel =>
          unfold chain
          rw [hc.follow_eq_some.2 hholds]
          apply List.mem_cons_of_mem
          apply ih
          omega

theorem Sound.mem_chain_iff (hc : c.Sound roots) :
    x ∈ chain c.served t c.served.length ↔ Leads c.served t x :=
  ⟨hc.leads_of_mem_chain, fun h => hc.mem_chain h (List.length_filter_le _ _)⟩

/-! ### Standing -/

theorem Sound.standing_ready (hc : c.Sound roots) {r : Resolution} (h : (t, r) ∈ c.served) :
    c.standing t = .ready r := by
  rw [standing, hc.lookup_eq_some.2 h]

theorem Sound.standing_waiting (hc : c.Sound roots) {i : String} {w : Waiter}
    (h : c.waiters.get? i = some w) : c.standing w.ticket = .waiting := by
  have hmem := Dict.mem_entries_iff.2 h
  rw [standing, hc.lookup_eq_none.2 fun r => hc.waiter_unserved h]
  dsimp only
  rw [if_pos (List.any_eq_true.2 ⟨_, hmem, by simp⟩)]

theorem Sound.standing_hopeless (hc : c.Sound roots) (hserved : ∀ r, (t, r) ∉ c.served)
    (hwaiters : ∀ i w, c.waiters.get? i = some w → w.ticket ≠ t) : c.standing t = .hopeless := by
  rw [standing, hc.lookup_eq_none.2 hserved]
  dsimp only
  rw [if_neg]
  intro hany
  obtain ⟨⟨i, w⟩, hmem, hticket⟩ := List.any_eq_true.1 hany
  exact hwaiters i w (Dict.mem_entries_iff.1 hmem) (by simpa using hticket)

/-- A ticket is served, waits, or is nowhere. -/
theorem Sound.standing_cases (hc : c.Sound roots) (t : Nat) :
    (∃ r, (t, r) ∈ c.served ∧ c.standing t = .ready r)
      ∨ (∃ i w, c.waiters.get? i = some w ∧ w.ticket = t ∧ c.standing t = .waiting)
      ∨ (∀ r, (t, r) ∉ c.served) ∧ (∀ i w, c.waiters.get? i = some w → w.ticket ≠ t)
        ∧ c.standing t = .hopeless := by
  by_cases hserved : ∃ r, (t, r) ∈ c.served
  · obtain ⟨r, hr⟩ := hserved
    exact .inl ⟨r, hr, hc.standing_ready hr⟩
  · by_cases hwaiting : ∃ i w, c.waiters.get? i = some w ∧ w.ticket = t
    · obtain ⟨i, w, hw, rfl⟩ := hwaiting
      exact .inr (.inl ⟨i, w, hw, rfl, hc.standing_waiting hw⟩)
    · have hserved' : ∀ r, (t, r) ∉ c.served := fun r hr => hserved ⟨r, hr⟩
      have hwaiters : ∀ i w, c.waiters.get? i = some w → w.ticket ≠ t :=
        fun i w hw ht => hwaiting ⟨i, w, hw, ht⟩
      exact .inr (.inr ⟨hserved', hwaiters, hc.standing_hopeless hserved' hwaiters⟩)

/-- The second correlator treats the ticket as the first one does. -/
structure Agree (c c' : Correlator) (x : Nat) : Prop where
  served : ∀ r, (x, r) ∈ c'.served ↔ (x, r) ∈ c.served
  waiter : ∀ i w, w.ticket = x → (c'.waiters.get? i = some w ↔ c.waiters.get? i = some w)

theorem Agree.trans {d : Correlator} (h : Agree c c' x) (h' : Agree c' d x) : Agree c d x :=
  ⟨fun r => (h'.served r).trans (h.served r),
    fun i w hw => (h'.waiter i w hw).trans (h.waiter i w hw)⟩

theorem Agree.standing (hc : c.Sound roots) {roots' : List Nat} (hc' : c'.Sound roots')
    (h : Agree c c' x) : c'.standing x = c.standing x := by
  rcases hc.standing_cases x with ⟨r, hr, heq⟩ | ⟨i, w, hw, hticket, heq⟩
    | ⟨hserved, hwaiters, heq⟩
  · rw [heq, hc'.standing_ready ((h.served r).2 hr)]
  · rw [heq, ← hticket, hc'.standing_waiting ((h.waiter i w hticket).2 hw)]
  · rw [heq, hc'.standing_hopeless]
    · intro r hr
      exact hserved r ((h.served r).1 hr)
    · intro i w hw hticket
      exact hwaiters i w ((h.waiter i w hticket).1 hw) hticket

end Correlator

end DataGateway

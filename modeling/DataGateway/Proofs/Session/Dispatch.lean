import DataGateway.Proofs.Message.Legible
import DataGateway.Proofs.Session.Delivery

/-!
# Only valid messages are handed over

Whatever bytes arrive at a session, and however they are cut into frames and slices, what it hands
to its handler has an id, is announced by its header, and is valid at every level: the one message
came out of a single frame, and the other out of a payload that was decoded once it was complete.
So it could be sent on as it is.
-/

namespace DataGateway

open Session (Move dues due)

theorem Session.dues_cons (a : Assembler) (p : Phase) (frame : Bytes)
    (taken : List (Phase × Bytes)) : dues a ((p, frame) :: taken)
      = (due p (a.accept frame).1).toList ++ dues (a.accept frame).2 taken := by
  rw [← List.singleton_append, dues_append, dues_singleton]
  rfl

theorem Session.genuine_of_dues {a : Assembler} (ha : a.Sendable) (taken : List (Phase × Bytes)) :
    ∀ m ∈ dues a taken, Message.Genuine m.1 m.2 := by
  induction taken generalizing a with
  | nil => exact fun _ hm => absurd hm List.not_mem_nil
  | cons t taken ih =>
      obtain ⟨p, frame⟩ := t
      obtain ⟨hnext, hgenuine⟩ := ha.accept frame
      rw [dues_cons]
      refine List.forall_mem_append.2 ⟨fun m hm => ?_, ih hnext⟩
      rw [Option.mem_toList] at hm
      unfold due at hm
      split at hm
      · rename_i m' houtcome
        obtain ⟨-, rfl⟩ := Option.ite_some_none_eq_some.1 hm
        exact hgenuine m' houtcome
      · cases hm

namespace Attended.Run

variable {η : Type} {handler : Handler η} {moves : List Move} {taken : List (Phase × Bytes)}

/-- Whatever a handler is called with, in any run of a new session, is announced by a header of its
own, is valid at every level, and is encoded without an error. -/
theorem dispatches_valid {config : Config} {link : Link} {time : Int64} {serial : Nat} {state : η}
    {a : Attended η} (h : Run handler ⟨{ config, link, time, serial }, state, []⟩ moves taken a)
    {header : Header} {payload : Payload} (hcall : (header, payload) ∈ a.calls) :
    header.isSlice = false ∧ header.messageId ≠ "" ∧ header.dataType = payload.type
      ∧ payload.Checked ∧ payload.Valid ∧ ∃ bytes, Message.encode header payload = .ok bytes := by
  have hempty : Assembler.Sendable {} := fun _ _ hp => by cases hp
  rw [h.calls_eq.2] at hcall
  have hgenuine := Session.genuine_of_dues hempty taken _ hcall
  have hchecked := hgenuine.legible.checked
  exact ⟨hgenuine.whole, hgenuine.sendable.messageId_ne, hgenuine.announced, hchecked,
    payload.checked_iff.1 hchecked, hgenuine.exists_encode⟩

/-- A login is accepted, and the same frame comes once more. -/
theorem dispatches_valid_greeting : ∃ moves taken a header payload,
    Run ⟨fun _ _ _ => (.ok (), ())⟩ ⟨Session.fresh, (), []⟩ moves taken a
      ∧ (header, payload) ∈ a.calls
      ∧ header.isSlice = false ∧ header.messageId ≠ "" ∧ header.dataType = payload.type
      ∧ payload.Checked ∧ payload.Valid ∧ ∃ bytes, Message.encode header payload = .ok bytes := by
  have hstart : Run ⟨fun _ _ _ => (.ok (), ())⟩ ⟨Session.fresh, (), []⟩ [] []
    ⟨Session.fresh, (), []⟩ := .start
  obtain ⟨a, ha, hrun⟩ := hstart.next (Session.Step.connect rfl)
  obtain ⟨b, hb, hrun⟩ := hrun.next (Session.Step.signal .opened)
  obtain ⟨c, hc, hrun⟩ := hrun.next (Session.Step.signal (.binary Session.greeting))
  obtain ⟨d, hd, hrun⟩ := hrun.next (Session.Step.signal (.binary Session.greeting))
  rw [ha] at hb
  rw [hb] at hc
  have hlength : d.calls.length = 1 := by
    rw [hrun.calls_eq.2, ha, hb, hc]
    decide +kernel
  obtain ⟨⟨header, payload⟩, hcall⟩ := List.exists_mem_of_length_pos (by omega : 0 < d.calls.length)
  exact ⟨_, _, d, header, payload, hrun, hcall, hrun.dispatches_valid hcall⟩

end Attended.Run

end DataGateway

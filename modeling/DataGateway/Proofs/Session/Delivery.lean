import DataGateway.Proofs.Arrival
import DataGateway.Proofs.Session.Outcome

/-!
# What a handler receives

A session takes every frame that arrives through its assembler, whatever its phase, and hands over
the messages that come out while it is logged in. So what its handler receives is told by the frames
and the phases in which they were taken (`dues`), and by nothing else: not by what the handler makes
of it, and not by what the session did between two frames. A frame that comes to an error leaves the
session as it was, up to what is buffered of the frame's own message, unless the frame is no message
at all and a login is under way.
-/

namespace DataGateway

namespace Session

/-- What a session hands over, going by the journal. -/
def deliveries (journal : List Note) : List (Header × Payload) :=
  journal.filterMap fun
    | .received header payload => some (header, payload)
    | _ => none

/-- The frame that a move hands to a session, with the phase in which it is taken. -/
def Move.taken (p : Phase) : Move → List (Phase × Bytes)
  | .signal (.binary frame) => [(p, frame)]
  | _ => []

def due (p : Phase) : Except ProtocolError (Option Message) → Option (Header × Payload)
  | .ok (some m) => if p = .loggedIn then some (m.header, m.payload) else none
  | _ => none

/-- What is to be handed over of frames that are taken, each in its phase. -/
def dues (a : Assembler) (taken : List (Phase × Bytes)) : List (Header × Payload) :=
  (taken.zip (a.acceptAll (taken.map (·.2))).1).filterMap fun (t, outcome) => due t.1 outcome

theorem dues_append (a : Assembler) (before after : List (Phase × Bytes)) :
    dues a (before ++ after)
      = dues a before ++ dues (a.acceptAll (before.map (·.2))).2 after := by
  unfold dues
  rw [List.map_append, Assembler.acceptAll_append, List.zip_append, List.filterMap_append]
  rw [Assembler.length_acceptAll, List.length_map]

/-! ### Frames -/

section

variable {s s' : Session} {frame : Bytes}

theorem settle_assembler (s : Session) (outcome : Except LoginFailure ConnectionAck) :
    (s.settle outcome).assembler = s.assembler := by
  unfold settle
  split <;> rfl

theorem fail_assembler (s : Session) (failure : LoginFailure) :
    (s.fail failure).assembler = s.assembler := by
  show ({ s with phase := .failed }.closeLink.settle (.error failure)).assembler = _
  rw [settle_assembler]
  rfl

theorem onMessage_assembler (s : Session) (m : Message) :
    (s.onMessage m).assembler = s.assembler := by
  have answered (ack : ConnectionAck) : (s.onLoginAck ack).assembler = s.assembler := by
    unfold onLoginAck
    dsimp only
    split
    · rw [fail_assembler]
    · show (settle _ _).assembler = _
      rw [settle_assembler]
  unfold onMessage
  split
  · exact answered _
  · exact answered _
  · rfl
  · rfl

def onOutcome (s : Session) : Except ProtocolError (Option Message) → Session
  | .ok (some m) => s.onMessage m
  | _ => s

theorem onOutcome_assembler (s : Session) (outcome : Except ProtocolError (Option Message)) :
    (s.onOutcome outcome).assembler = s.assembler := by
  unfold onOutcome
  split
  · exact onMessage_assembler _ _
  · rfl

theorem onBinary_of_undecodable {e : ProtocolError} (h : Inbound.decode frame = .error e) :
    s.onBinary frame
      = if s.phase.isHandshaking then
          s.fail (.transport ("undecodable login reply: " ++ e.message))
        else s := by
  rw [onBinary, h]

/-- A frame is taken according to what it comes to, unless it is no message and fails a login. -/
theorem onBinary_of_accept {outcome : Except ProtocolError (Option Message)}
    {assembler : Assembler} (h : s.assembler.accept frame = (outcome, assembler))
    (hopen : ¬s.phase.isHandshaking ∨ ∃ inbound, Inbound.decode frame = .ok inbound) :
    s.onBinary frame = { s with assembler }.onOutcome outcome := by
  cases hdecode : Inbound.decode frame with
  | error e =>
      rw [Assembler.accept_of_error _ hdecode] at h
      cases h
      have hphase : ¬s.phase.isHandshaking := by
        apply hopen.resolve_right
        rintro ⟨inbound, hinbound⟩
        rw [hdecode] at hinbound
        cases hinbound
      rw [onBinary_of_undecodable hdecode, if_neg hphase]
      rfl
  | ok inbound =>
      cases inbound with
      | message m =>
          rw [Assembler.accept_of_message _ hdecode] at h
          cases h
          rw [onBinary, hdecode]
          rfl
      | slice slice =>
          rw [Assembler.accept_of_slice _ hdecode] at h
          rw [onBinary, hdecode]
          dsimp only
          rw [h]
          match outcome with
          | .ok (some m) | .ok none | .error e => rfl

theorem onBinary_assembler (s : Session) (frame : Bytes) :
    (s.onBinary frame).assembler = (s.assembler.accept frame).2 := by
  cases hdecode : Inbound.decode frame with
  | error e =>
      rw [onBinary_of_undecodable hdecode, Assembler.accept_of_error _ hdecode]
      split
      · rw [fail_assembler]
      · rfl
  | ok inbound =>
      rw [onBinary_of_accept Prod.mk.eta.symm (.inr ⟨inbound, hdecode⟩), onOutcome_assembler]

theorem deliveries_append (a b : List Note) :
    deliveries (a ++ b) = deliveries a ++ deliveries b :=
  List.filterMap_append

theorem deliveries_sent (frames : List Bytes) : deliveries (frames.map .sent) = [] := by
  unfold deliveries
  rw [List.filterMap_map]
  exact List.filterMap_eq_nil_iff.2 fun _ _ => rfl

theorem deliveries_of_loggedIn (h : s.phase = .loggedIn) (frame : Bytes) :
    deliveries (s.onBinary frame).journal
      = deliveries s.journal ++ (due .loggedIn (s.assembler.accept frame).1).toList := by
  rw [onBinary_of_accept Prod.mk.eta.symm (.inl (by rw [h]; decide))]
  match (s.assembler.accept frame).1 with
  | .ok (some m) =>
      rw [onOutcome, onMessage, h]
      exact deliveries_append _ _
  | .ok none | .error e => exact (List.append_nil _).symm

/-! ### Steps -/

theorem Step.assembler_eq {m : Move} (h : Step m s s')
    (hm : ∀ frame, m ≠ .signal (.binary frame)) : s'.assembler = s.assembler := by
  cases h with
  | connect free =>
      rcases connect_eq s with ⟨_, heq⟩ | ⟨_, e, _, heq⟩ | ⟨_, _, link, heq⟩
        | ⟨_, _, link, failure, _, heq⟩
      · rw [heq]
      · rw [heq]
      · rw [heq]
      · rw [heq]
        exact fail_assembler _ _
  | close free =>
      unfold Session.close
      dsimp only
      split
      · rfl
      · split
        · exact settle_assembler { s with phase := .disconnected }.closeLink (.error .closed)
        · rfl
  | collect settled =>
      obtain ⟨_, _, _, rfl⟩ := outcome_eq_some settled
      rfl
  | expire awaited => exact fail_assembler _ _
  | leave waiting => rfl
  | signal x =>
      cases x with
      | opened =>
          show s.onOpened.assembler = _
          by_cases hphase : s.phase = .connecting
          · rcases onOpened_of_connecting hphase with ⟨failure, _, heq⟩ | ⟨frame, link, _, heq⟩
            · rw [heq, fail_assembler]
              rfl
            · rw [heq]
              rfl
          · rw [onOpened, if_pos hphase]
      | binary frame => exact absurd rfl (hm frame)
      | closed =>
          show s.onClosed.assembler = _
          unfold onClosed
          dsimp only
          split
          · rfl
          · split
            · exact settle_assembler _ _
            · rfl
      | failed reason =>
          show (s.onFailed reason).assembler = _
          unfold onFailed
          split
          · exact fail_assembler _ _
          · rfl
  | send header payload =>
      rcases send_eq s header payload with ⟨_, frames, link, _, heq⟩ | ⟨e, heq⟩ <;> rw [heq]
  | sendPayload payload =>
      rw [sendPayload_session]
      rcases send_eq s.freshId.2 (s.freshId.2.header s.freshId.1 payload.type) payload with
        ⟨_, frames, link, _, heq⟩ | ⟨e, heq⟩ <;> rw [heq] <;> rfl
  | outside link time serial => rfl

theorem Effect.deliveries_eq_nil {m : Move} {notes : List Note} (h : s.Effect m notes s')
    (hm : s.phase ≠ .loggedIn ∨ ∀ frame, m ≠ .signal (.binary frame)) :
    deliveries notes = [] := by
  cases h with
  | sent => exact deliveries_sent _
  | reacted hreaction =>
      cases hreaction with
      | @received frame m _ hloggedIn =>
          rcases hm with hphase | hother
          · exact absurd hloggedIn hphase
          · exact absurd rfl (hother frame)
      | failed _ hnotes => rcases hnotes with rfl | rfl <;> rfl
      | _ => rfl
  | _ => rfl

theorem dues_singleton (a : Assembler) (p : Phase) (frame : Bytes) :
    dues a [(p, frame)] = (due p (a.accept frame).1).toList := by
  unfold dues
  cases h : due p (a.accept frame).1 <;> simp [Assembler.acceptAll, h]

theorem due_of_not_loggedIn {p : Phase} (h : p ≠ .loggedIn)
    (outcome : Except ProtocolError (Option Message)) : due p outcome = none := by
  unfold due
  split
  · exact if_neg h
  · rfl

/-- A step takes a frame at most, and hands over what is due for it. -/
theorem Step.delivers_dues {m : Move} (h : Step m s s') :
    s'.assembler = (s.assembler.acceptAll ((m.taken s.phase).map (·.2))).2
      ∧ deliveries s'.journal = deliveries s.journal ++ dues s.assembler (m.taken s.phase) := by
  obtain ⟨notes, heffect, _, hjournal, _⟩ := h.effect
  have hquiet (hm : s.phase ≠ .loggedIn ∨ ∀ frame, m ≠ .signal (.binary frame)) :
      deliveries s'.journal = deliveries s.journal := by
    rw [hjournal, deliveries_append, heffect.deliveries_eq_nil hm, List.append_nil]
  by_cases hm : ∃ frame, m = .signal (.binary frame)
  · obtain ⟨frame, rfl⟩ := hm
    cases h with
    | signal =>
        refine ⟨onBinary_assembler s frame, ?_⟩
        show _ = _ ++ dues s.assembler [(s.phase, frame)]
        rw [dues_singleton]
        by_cases hphase : s.phase = .loggedIn
        · rw [hphase]
          exact deliveries_of_loggedIn hphase frame
        · rw [due_of_not_loggedIn hphase, hquiet (.inl hphase)]
          exact (List.append_nil _).symm
  · have hother : ∀ frame, m ≠ .signal (.binary frame) := fun frame heq => hm ⟨frame, heq⟩
    have htaken : m.taken s.phase = [] := by
      unfold Move.taken
      split
      · exact absurd rfl (hother _)
      · rfl
    rw [htaken, hquiet (.inr hother)]
    exact ⟨h.assembler_eq hother, (List.append_nil _).symm⟩

end

end Session

/-! ### Handlers -/

/-- What takes the messages of a session in. It may fail at any of them. -/
structure Handler (η : Type) where
  onMessage : η → Header → Payload → Except ClientError Unit × η

structure Attended (η : Type) where
  session : Session
  state : η
  calls : List (Header × Payload) := []

namespace Attended

open Session (Move Step deliveries dues)

variable {η : Type}

/-- Calls the handler. That it fails is its own affair. -/
def call (handler : Handler η) (a : Attended η) (m : Header × Payload) : Attended η :=
  match handler.onMessage a.state m.1 m.2 with
  | (.ok (), state) => { a with state, calls := a.calls ++ [m] }
  | (.error _, state) => { a with state, calls := a.calls ++ [m] }

/-- A session takes steps, and its handler is called with what each step hands over; with the moves,
and the frames that were taken. -/
inductive Run (handler : Handler η) (start : Attended η) :
    List Move → List (Phase × Bytes) → Attended η → Prop
  | start : Run handler start [] [] start
  | step {moves : List Move} {taken : List (Phase × Bytes)} {a : Attended η} {m : Move}
      {s : Session} {notes : List Note} (run : Run handler start moves taken a)
      (step : Step m a.session s) (journal : s.journal = a.session.journal ++ notes) :
      Run handler start (moves ++ [m]) (taken ++ m.taken a.session.phase)
        ((deliveries notes).foldl (call handler) { a with session := s })

theorem call_eq (handler : Handler η) (a : Attended η) (m : Header × Payload) :
    ∃ state, a.call handler m = { a with state, calls := a.calls ++ [m] } := by
  unfold call
  split <;> exact ⟨_, rfl⟩

theorem foldl_call (handler : Handler η) (a : Attended η) (messages : List (Header × Payload)) :
    ∃ state, messages.foldl (call handler) a
      = { a with state, calls := a.calls ++ messages } := by
  induction messages generalizing a with
  | nil => exact ⟨a.state, by rw [List.append_nil]; rfl⟩
  | cons m messages ih =>
      obtain ⟨state, hcall⟩ := a.call_eq handler m
      obtain ⟨state', hrest⟩ := ih (a.call handler m)
      refine ⟨state', ?_⟩
      rw [List.foldl_cons, hrest, hcall]
      simp

namespace Run

variable {handler : Handler η} {start a : Attended η} {moves : List Move}
  {taken : List (Phase × Bytes)}

theorem next (h : Run handler start moves taken a) {m : Move} {s : Session}
    (hstep : Step m a.session s) : ∃ b, b.session = s
      ∧ Run handler start (moves ++ [m]) (taken ++ m.taken a.session.phase) b := by
  obtain ⟨notes, _, _, hjournal, _⟩ := hstep.effect
  refine ⟨_, ?_, h.step hstep hjournal⟩
  obtain ⟨state, hcalls⟩ := foldl_call handler { a with session := s } (deliveries notes)
  rw [hcalls]

theorem calls_eq (h : Run handler start moves taken a) :
    a.session.assembler = (start.session.assembler.acceptAll (taken.map (·.2))).2
      ∧ a.calls = start.calls ++ dues start.session.assembler taken := by
  induction h with
  | start => exact ⟨rfl, (List.append_nil _).symm⟩
  | @step moves taken a m s notes _ hstep hjournal ih =>
      obtain ⟨hassembler, hcalls⟩ := ih
      obtain ⟨hassembler', hdeliveries⟩ := hstep.delivers_dues
      rw [hjournal, Session.deliveries_append] at hdeliveries
      obtain ⟨state, hfold⟩ := foldl_call handler { a with session := s } (deliveries notes)
      rw [hfold, List.map_append, Assembler.acceptAll_append, Session.dues_append, ← hassembler]
      refine ⟨hassembler', ?_⟩
      show a.calls ++ deliveries notes = _
      rw [hcalls, List.append_cancel_left hdeliveries, List.append_assoc]

end Run

end Attended

end DataGateway

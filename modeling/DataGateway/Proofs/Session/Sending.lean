import DataGateway.Proofs.Message.Legible
import DataGateway.Proofs.Session.Delivery
import DataGateway.Proofs.Splitting

/-!
# Sending what was read

The unit under which a session cuts payloads is set when a login is accepted and at no other time.
It is never empty, so a payload can be cut. A session that is logged in, over a link that is open,
sends every message whose payload was read and whose header can be sent, in one frame or in slices;
slices only have to be able to announce the size of the payload.
-/

namespace DataGateway.Session

variable {s s' : Session}

/-! ### The agreed unit -/

theorem agreedUnit_pos (agreed : Connection) : ∀ unit ∈ agreedUnit agreed, 0 < unit := by
  intro unit hunit
  unfold agreedUnit at hunit
  split at hunit
  · rename_i n _
    obtain ⟨⟨_, hpos⟩, hsome⟩ := Option.ite_none_right_eq_some.1 hunit
    cases hsome
    refine Nat.pos_of_ne_zero fun hzero => ?_
    have hn : n.toUInt64 = (0 : Int64).toUInt64 := UInt64.toNat_inj.1 hzero
    rw [show n = 0 from congrArg Int64.ofUInt64 hn] at hpos
    exact absurd hpos (by decide)
  · cases hunit

theorem settle_unit (s : Session) (outcome : Except LoginFailure ConnectionAck) :
    (s.settle outcome).unit = s.unit := by
  unfold settle
  split <;> rfl

theorem fail_unit (s : Session) (failure : LoginFailure) : (s.fail failure).unit = s.unit := by
  show (settle _ _).unit = _
  rw [settle_unit]
  rfl

/-- The unit that holds once a login is accepted, where one held before. -/
def granted (before : Option Nat) (ack : ConnectionAck) : Option Nat :=
  match ack.body with
  | some (.accepted agreed) => agreedUnit agreed
  | _ => before

theorem granted_pos {before : Option Nat} (hbefore : ∀ unit ∈ before, 0 < unit)
    (ack : ConnectionAck) : ∀ unit ∈ granted before ack, 0 < unit := by
  unfold granted
  split
  · exact agreedUnit_pos _
  · exact hbefore

/-- A note that accepts no login; a frame is the login, or one that a message takes. -/
def Ordinary (s : Session) : Note → Prop
  | .published (.loggedIn _) => False
  | .sent frame => IsLogin s.config frame
      ∨ ∃ header payload frames, s.framesOf header payload = .ok frames ∧ frame ∈ frames
  | _ => True

/-- The unit is as it was, and what has been noted meanwhile is ordinary. -/
def Keeps (s s' : Session) : Prop :=
  s'.unit = s.unit ∧ ∃ notes, s'.journal = s.journal ++ notes ∧ ∀ n ∈ notes, s.Ordinary n

/-- A login is accepted, and sets the unit. -/
def Accepts (s s' : Session) : Prop :=
  ∃ ack, (s.phase = .connected ∨ s.phase = .loggingIn)
    ∧ s'.journal = s.journal ++ [.published (.loggedIn ack)] ∧ s'.unit = granted s.unit ack

theorem Keeps.of_journal (hunit : s'.unit = s.unit) (hjournal : s'.journal = s.journal) :
    s.Keeps s' :=
  ⟨hunit, [], hjournal.trans (List.append_nil _).symm, fun _ h => nomatch h⟩

theorem Keeps.of_continues {notes : List Note} (hunit : s'.unit = s.unit)
    (hcontinues : s.Continues notes s') (hnotes : ∀ n ∈ notes, s.Ordinary n) : s.Keeps s' :=
  ⟨hunit, notes, hcontinues.journal, hnotes⟩

theorem fail_keeps (s : Session) (failure : LoginFailure) : s.Keeps (s.fail failure) :=
  .of_continues (fail_unit s failure) (fail_continues s failure) (by simp [Ordinary])

theorem onOpened_keeps (s : Session) : s.Keeps s.onOpened := by
  by_cases hphase : s.phase = .connecting
  · rcases onOpened_of_connecting hphase with ⟨failure, _, heq⟩ | ⟨frame, link, hlogin, heq⟩
    · rw [heq]
      exact fail_keeps { s with phase := .connected }.freshId.2 failure
    · rw [heq]
      exact ⟨rfl, _, rfl, List.forall_mem_singleton.2 (.inl hlogin)⟩
  · rw [onOpened, if_pos hphase]
    exact .of_journal rfl rfl

theorem onLoginAck_unit (hphase : s.phase = .connected ∨ s.phase = .loggingIn)
    (ack : ConnectionAck) : s.Keeps (s.onLoginAck ack) ∨ s.Accepts (s.onLoginAck ack) := by
  unfold onLoginAck
  dsimp only
  split
  · exact .inl (fail_keeps { s with phase := .loggingIn } _)
  · refine .inr ⟨ack, hphase, ?_, settle_unit _ _⟩
    show _ ++ _ = _
    rw [(settle_continues _ _).journal, List.append_nil]

theorem onMessage_unit (s : Session) (m : Message) :
    s.Keeps (s.onMessage m) ∨ s.Accepts (s.onMessage m) := by
  unfold onMessage
  split
  · rename_i hphase _
    exact onLoginAck_unit (.inl hphase) _
  · rename_i hphase _
    exact onLoginAck_unit (.inr hphase) _
  · exact .inl ⟨rfl, _, rfl, List.forall_mem_singleton.2 trivial⟩
  · exact .inl (.of_journal rfl rfl)

theorem onBinary_unit (s : Session) (frame : Bytes) :
    s.Keeps (s.onBinary frame) ∨ s.Accepts (s.onBinary frame) := by
  unfold onBinary
  split
  · split
    · exact .inl (fail_keeps s _)
    · exact .inl (.of_journal rfl rfl)
  · exact onMessage_unit s _
  · split
    · exact onMessage_unit { s with assembler := _ } _
    · exact .inl (.of_journal rfl rfl)

theorem onFailed_keeps (s : Session) (reason : String) : s.Keeps (s.onFailed reason) := by
  unfold onFailed
  split
  · exact fail_keeps s _
  · exact .of_journal rfl rfl

theorem onClosed_keeps (s : Session) : s.Keeps s.onClosed := by
  unfold onClosed
  dsimp only
  split
  · exact ⟨rfl, _, List.append_assoc .., by simp [Ordinary]⟩
  · split
    · exact ⟨settle_unit _ _, _,
        (failClosed_continues { s with link := s.link.deafen } .closed).journal,
        by simp [Ordinary]⟩
    · exact .of_journal rfl rfl

theorem close_unit (s : Session) : s.close.unit = s.unit := by
  unfold close
  dsimp only
  split
  · rfl
  · split
    · exact settle_unit { s with phase := .disconnected }.closeLink _
    · rfl

theorem close_keeps (s : Session) : s.Keeps s.close := by
  have hunit := close_unit s
  by_cases hphase : s.phase = .loggedIn
  · exact .of_continues hunit (close_of_loggedIn hphase).2.2 (by simp [Ordinary])
  · by_cases hhand : s.phase.isHandshaking
    · exact .of_continues hunit (close_of_handshaking hhand).2.2 (by simp [Ordinary])
    · exact .of_continues hunit (close_of_other hphase hhand).2.2 (by simp)

theorem send_keeps (s : Session) (h : Header) (p : Payload) : s.Keeps (s.send h p).2 := by
  rcases send_eq s h p with ⟨_, frames, link, hframes, heq⟩ | ⟨e, heq⟩
  · rw [heq]
    exact ⟨rfl, _, rfl, List.forall_mem_map.2 fun frame hframe =>
      .inr ⟨h, p, frames, hframes, hframe⟩⟩
  · rw [heq]
    exact .of_journal rfl rfl

/-- A step keeps the unit, unless it accepts a login. -/
theorem Step.unit {m : Move} (h : Step m s s') : s.Keeps s' ∨ s.Accepts s' := by
  cases h with
  | signal x =>
      cases x with
      | opened => exact .inl (onOpened_keeps s)
      | binary frame => exact onBinary_unit s frame
      | closed => exact .inl (onClosed_keeps s)
      | failed reason => exact .inl (onFailed_keeps s reason)
  | connect free =>
      left
      rcases connect_eq s with ⟨_, heq⟩ | ⟨_, e, _, heq⟩ | ⟨_, _, link, heq⟩
        | ⟨_, _, link, failure, _, heq⟩
      · rw [heq]
        exact .of_journal rfl rfl
      · rw [heq]
        exact .of_journal rfl rfl
      · rw [heq]
        exact .of_journal rfl rfl
      · rw [heq]
        exact fail_keeps { s with used := true, phase := .connecting, login := .awaited, link } _
  | close free => exact .inl (close_keeps s)
  | collect settled =>
      obtain ⟨_, _, _, rfl⟩ := outcome_eq_some settled
      exact .inl (.of_journal rfl rfl)
  | expire awaited => exact .inl (fail_keeps s .timedOut)
  | leave waiting => exact .inl (.of_journal rfl rfl)
  | send header payload => exact .inl (send_keeps s header payload)
  | sendPayload payload =>
      rw [sendPayload_session]
      exact .inl (send_keeps s.freshId.2 _ payload)
  | outside link time serial => exact .inl (.of_journal rfl rfl)

/-- A transmission unit that has been agreed is not empty. -/
def Sliceable (s : Session) : Prop := ∀ unit ∈ s.unit, 0 < unit

theorem Step.sliceable {m : Move} (h : Step m s s') (hs : s.Sliceable) : s'.Sliceable := by
  rcases h.unit with ⟨hunit, _⟩ | ⟨ack, _, _, hunit⟩
  · rw [Sliceable, hunit]
    exact hs
  · rw [Sliceable, hunit]
    exact granted_pos hs ack

/-! ### Frames -/

/-- A payload that was read has frames, if the header can be sent and the size announced. -/
theorem Sliceable.exists_framesOf (hs : s.Sliceable) {h : Header} {p : Payload}
    (hsend : h.Sendable) (hpair : Message.checkPair h p = .ok ()) (hp : p.Legible)
    (hsize : s.unit ≠ none → ∀ bytes, p.encode = .ok bytes → bytes.length < 2 ^ 32) :
    ∃ frames, s.framesOf h p = .ok frames := by
  obtain ⟨frame, hframe⟩ := Message.exists_encode hsend hpair hp
  unfold framesOf
  cases hunit : s.unit with
  | none =>
      rw [hframe]
      exact ⟨_, rfl⟩
  | some unit =>
      obtain ⟨bytes, hbytes⟩ := hp.exists_encode
      have hlength := hsize (by rw [hunit]; exact Option.some_ne_none unit) bytes hbytes
      exact (Message.exists_split_iff (hs unit hunit)).2
        ⟨⟨frame, hframe⟩, bytes, hbytes, .inr (by omega)⟩

theorem transmitAll_of_open (hopen : s.link.attached ∧ s.link.served) (frames : List Bytes) :
    (s.transmitAll frames).1 = .ok () := by
  induction frames generalizing s with
  | nil => rfl
  | cons frame frames ih =>
      rw [transmitAll, transmit_of_open hopen]
      exact ih hopen

theorem send_of_open {h : Header} {p : Payload} {frames : List Bytes} (hphase : s.phase = .loggedIn)
    (hopen : s.link.attached ∧ s.link.served) (hframes : s.framesOf h p = .ok frames) :
    (s.send h p).1 = .ok () := by
  rw [send_of_ok hphase hframes]
  exact transmitAll_of_open hopen frames

end DataGateway.Session

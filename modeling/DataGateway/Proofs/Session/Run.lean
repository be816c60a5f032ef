import DataGateway.Client.Session
import Mathlib.Logic.Relation
import Mathlib.Tactic.Common

/-!
# Runs of a session

A session changes in steps: a call on it goes on as far as it can without waiting, it takes a
signal, or what is around it changes. Signals may be of any kind and come at any time, and the link
and the clock may come to be anything between two steps, so a run stands for whatever a transport
and a service do. A call that connects has its turn until it has its outcome or is given up, and no
other call connects or closes meanwhile; the turn is free while no login is kept for a call.

What taking a signal can amount to is said once, by `Reaction`, and `handle_reacts` says that it
amounts to nothing else. The other steps do less and are read off their definitions.
-/

namespace DataGateway

namespace Session

/-- What can happen to a session in one step. -/
inductive Move
  /-- A call that connects has its turn. -/
  | connect
  /-- A call that closes has its turn. -/
  | close
  /-- The call that connects takes the outcome of its login. -/
  | collect
  /-- The call that connects has waited long enough. -/
  | expire
  /-- The call that connects is given up while it waits. -/
  | leave
  | signal (x : Signal)
  | send (header : Header) (payload : Payload)
  | sendPayload (payload : Payload)
  /-- The link, the clock and the supply of ids come to be these. -/
  | outside (link : Link) (time : Int64) (serial : Nat)

/-- One step of a session. -/
inductive Step : Move → Session → Session → Prop
  | connect {s : Session} (free : s.login = .idle) : Step .connect s s.connect.2
  | close {s : Session} (free : s.login = .idle) : Step .close s s.close
  | collect {s s' : Session} {r : Except ClientError ConnectionAck}
      (settled : s.outcome = some (r, s')) : Step .collect s s'
  | expire {s : Session} (awaited : s.login = .awaited) : Step .expire s s.expire.2
  | leave {s : Session} (waiting : s.login ≠ .idle) : Step .leave s s.leave
  | signal {s : Session} (x : Signal) : Step (.signal x) s (s.handle x)
  | send {s : Session} (header : Header) (payload : Payload) :
      Step (.send header payload) s (s.send header payload).2
  | sendPayload {s : Session} (payload : Payload) :
      Step (.sendPayload payload) s (s.sendPayload payload).2
  | outside {s : Session} (link : Link) (time : Int64) (serial : Nat) :
      Step (.outside link time serial) s { s with link, time, serial }

/-- Steps lead from one session to the other. -/
def Run : Session → Session → Prop := Relation.ReflTransGen fun s s' => ∃ m, Step m s s'

/-- The sessions that a new one comes to be. -/
inductive Reachable : Session → Prop
  | new (config : Config) (link : Link) (time : Int64) (serial : Nat) :
      Reachable { config, link, time, serial }
  | step {s s' : Session} {m : Move} (hs : Reachable s) (h : Step m s s') : Reachable s'

/-- The frames that the link has taken, going by the journal. -/
def sentFrames (journal : List Note) : List Bytes :=
  journal.filterMap fun
    | .sent frame => some frame
    | _ => none

@[simp] theorem sentFrames_nil : sentFrames [] = [] := rfl

@[simp] theorem sentFrames_append (a b : List Note) :
    sentFrames (a ++ b) = sentFrames a ++ sentFrames b :=
  List.filterMap_append

@[simp] theorem sentFrames_sent (frames : List Bytes) :
    sentFrames (frames.map .sent) = frames := by
  induction frames with
  | nil => rfl
  | cons frame frames ih => exact congrArg (frame :: ·) ih

/-- The frame carries the login that the settings describe. -/
def IsLogin (config : Config) (frame : Bytes) : Prop :=
  ∃ header, header.userName = config.userName ∧ header.dataType = .connection
    ∧ Message.encode header ⟨.connection, config.connection⟩ = .ok frame

/-- The frame is a message, or the slice that completes one. -/
def Arrives (s : Session) (frame : Bytes) (m : Message) : Prop :=
  Inbound.decode frame = .ok (.message m) ∨
    ∃ slice assembler, Inbound.decode frame = .ok (.slice slice)
      ∧ s.assembler.push slice = (.ok (some m), assembler)

/-! ### What a signal amounts to -/

/-- A login that was awaited is settled, and any other is left as it was. -/
def Settles (s s' : Session) : Prop := s'.login ≠ .awaited ∧ (s'.login = .idle ↔ s.login = .idle)

/-- What a session can make of a signal, with what it notes. -/
inductive Reaction (s : Session) : Signal → List Note → Session → Prop
  /-- Nothing that can be seen: the signal has no meaning now, or a slice is kept. -/
  | idle {x : Signal} {s' : Session} (phase : s'.phase = s.phase) (login : s'.login = s.login) :
      Reaction s x [] s'
  | received {frame : Bytes} {m : Message} {s' : Session} (loggedIn : s.phase = .loggedIn)
      (arrives : s.Arrives frame m) (phase : s'.phase = .loggedIn) (login : s'.login = s.login) :
      Reaction s (.binary frame) [.received m.header m.payload] s'
  /-- The login has gone out. -/
  | introduced {frame : Bytes} {s' : Session} (connecting : s.phase = .connecting)
      (isLogin : IsLogin s.config frame) (phase : s'.phase = .connected)
      (login : s'.login = s.login) : Reaction s .opened [.sent frame] s'
  | accepted {frame : Bytes} {m : Message} {ack : ConnectionAck} {s' : Session}
      (answerable : s.phase = .connected ∨ s.phase = .loggingIn) (arrives : s.Arrives frame m)
      (body : m.payload.body? .connectionAck = some ack) (success : ack.isSuccess)
      (phase : s'.phase = .loggedIn) (login : s.Settles s')
      (outcome : s.login = .awaited → s'.login = .settled (.ok ack)) :
      Reaction s (.binary frame) [.published (.loggedIn ack)] s'
  | failed {x : Signal} {failure : LoginFailure} {notes : List Note} {s' : Session}
      (handshaking : s.phase.isHandshaking)
      (notes_eq : notes = [.closed, .published (.loginFailed failure)]
        ∨ notes = [.published (.loginFailed failure)])
      (phase : s'.phase = .failed) (login : s.Settles s')
      (outcome : s.login = .awaited → s'.login = .settled (.error failure))
      (cause : failure = .closed ↔ x = .closed)
      (spared : notes = [.published (.loginFailed failure)] ↔ x = .closed) : Reaction s x notes s'
  | ended {s' : Session} (loggedIn : s.phase = .loggedIn) (phase : s'.phase = .disconnected)
      (login : s'.login = s.login) :
      Reaction s .closed [.ended, .published .disconnected] s'

/-- The second session has the settings and the past of the first, and the notes beside. -/
structure Continues (s : Session) (notes : List Note) (s' : Session) : Prop where
  config : s'.config = s.config
  used : s'.used = s.used
  journal : s'.journal = s.journal ++ notes

theorem Continues.refl (s : Session) : s.Continues [] s :=
  ⟨rfl, rfl, (List.append_nil _).symm⟩

theorem Continues.trans {s t u : Session} {a b : List Note} (h : s.Continues a t)
    (h' : t.Continues b u) : s.Continues (a ++ b) u := by
  refine ⟨h'.config.trans h.config, h'.used.trans h.used, ?_⟩
  rw [h'.journal, h.journal, List.append_assoc]

theorem settle_login (s : Session) (outcome : Except LoginFailure ConnectionAck) :
    s.Settles (s.settle outcome) := by
  unfold settle
  split
  · rename_i h
    refine ⟨fun h => (nomatch h), fun h => (nomatch h), fun hidle => ?_⟩
    rw [h] at hidle
    cases hidle
  · exact ⟨by assumption, Iff.rfl⟩

theorem settle_of_awaited {s : Session} (h : s.login = .awaited)
    (outcome : Except LoginFailure ConnectionAck) :
    (s.settle outcome).login = .settled outcome := by
  rw [settle, h]

theorem settle_phase (s : Session) (outcome : Except LoginFailure ConnectionAck) :
    (s.settle outcome).phase = s.phase := by
  unfold settle
  split <;> rfl

theorem settle_continues (s : Session) (outcome : Except LoginFailure ConnectionAck) :
    s.Continues [] (s.settle outcome) := by
  unfold settle
  split
  · exact ⟨rfl, rfl, (List.append_nil _).symm⟩
  · exact ⟨rfl, rfl, (List.append_nil _).symm⟩

theorem fail_continues (s : Session) (failure : LoginFailure) :
    s.Continues [.closed, .published (.loginFailed failure)] (s.fail failure) := by
  obtain ⟨hconfig, hused, hjournal⟩ :=
    settle_continues { s with phase := .failed }.closeLink (.error failure)
  refine ⟨hconfig, hused, ?_⟩
  show _ ++ _ = _
  rw [hjournal]
  simp [closeLink, note]

theorem fail_phase (s : Session) (failure : LoginFailure) : (s.fail failure).phase = .failed :=
  settle_phase _ _

theorem fail_login (s : Session) (failure : LoginFailure) : s.Settles (s.fail failure) :=
  settle_login { s with phase := .failed }.closeLink (.error failure)

theorem failClosed_continues (s : Session) (failure : LoginFailure) :
    s.Continues [.published (.loginFailed failure)] (s.failClosed failure) := by
  obtain ⟨hconfig, hused, hjournal⟩ :=
    settle_continues { s with phase := .failed } (.error failure)
  refine ⟨hconfig, hused, ?_⟩
  show _ ++ _ = _
  rw [hjournal, List.append_nil]

theorem transmit_eq (s : Session) (frame : Bytes) :
    (∃ link, s.transmit frame = (.ok (), { s with link }.note (.sent frame)))
      ∨ ∃ e, s.transmit frame = (.error e, s) := by
  unfold transmit
  cases s.link.send frame with
  | ok link => exact .inl ⟨link, rfl⟩
  | error e => exact .inr ⟨_, rfl⟩

/-- The login goes out, or fails. -/
theorem onOpened_of_connecting {s : Session} (h : s.phase = .connecting) :
    (∃ failure, failure ≠ .closed
        ∧ s.onOpened = (({ s with phase := .connected }.freshId).2).fail failure)
      ∨ ∃ frame link, IsLogin s.config frame ∧ s.onOpened
        = { ({ s with phase := .connected }.freshId).2 with link }.note (.sent frame) := by
  unfold onOpened
  rw [if_neg (not_not.2 h)]
  dsimp only
  split
  · exact .inl ⟨.transport _, (fun h => nomatch h), rfl⟩
  · rename_i frame hencode
    rcases transmit_eq ({ s with phase := .connected }.freshId).2 frame with
      ⟨link, heq⟩ | ⟨e, heq⟩
    · rw [heq]
      exact .inr ⟨frame, link, ⟨_, rfl, rfl, hencode⟩, rfl⟩
    · rw [heq]
      exact .inl ⟨.transport _, (fun h => nomatch h), rfl⟩

/-- What is made of a signal, and that settings and past are kept. -/
def Reacts (s : Session) (x : Signal) (s' : Session) : Prop :=
  ∃ notes, s.Reaction x notes s' ∧ s.Continues notes s'

theorem Reacts.idle {s s' : Session} {x : Signal} (hphase : s'.phase = s.phase)
    (hlogin : s'.login = s.login) (hcontinues : s.Continues [] s') : s.Reacts x s' :=
  ⟨[], .idle hphase hlogin, hcontinues⟩

/-- A session that has changed in nothing that matters here fails for the first one. -/
theorem fail_reacts {s t : Session} {x : Signal} {failure : LoginFailure}
    (hhand : s.phase.isHandshaking) (hx : x ≠ .closed) (hfailure : failure ≠ .closed)
    (ht : s.Continues [] t) (hlogin : t.login = s.login) : s.Reacts x (t.fail failure) := by
  obtain ⟨hsettled, hidle⟩ := fail_login t failure
  rw [hlogin] at hidle
  refine ⟨[.closed, .published (.loginFailed failure)],
    .failed hhand (.inl rfl) (fail_phase t failure) ⟨hsettled, hidle⟩ ?_
      (iff_of_false hfailure hx) (iff_of_false (fun h => nomatch h) hx),
    ht.trans (fail_continues t failure)⟩
  intro hawaited
  exact settle_of_awaited (s := { t with phase := .failed }.closeLink) (hlogin.trans hawaited) _

theorem onOpened_reacts (s : Session) : s.Reacts .opened s.onOpened := by
  by_cases hphase : s.phase = .connecting
  · rcases onOpened_of_connecting hphase with
      ⟨failure, hfailure, heq⟩ | ⟨frame, link, hlogin, heq⟩
    · rw [heq]
      apply fail_reacts
      · rw [hphase]
        rfl
      · exact fun h => nomatch h
      · exact hfailure
      · exact ⟨rfl, rfl, (List.append_nil _).symm⟩
      · rfl
    · rw [heq]
      exact ⟨_, .introduced hphase hlogin rfl rfl, rfl, rfl, rfl⟩
  · rw [onOpened, if_pos hphase]
    exact .idle rfl rfl (.refl s)

/-! A message that a slice completes finds the session with another assembler. -/

theorem onLoginAck_reacts {s : Session} {frame : Bytes} {m : Message} {ack : ConnectionAck}
    (assembler : Assembler) (hphase : s.phase = .connected ∨ s.phase = .loggingIn)
    (harrives : s.Arrives frame m) (hbody : m.payload.body? .connectionAck = some ack) :
    s.Reacts (.binary frame) ({ s with assembler }.onLoginAck ack) := by
  have hhand : s.phase.isHandshaking := by
    rcases hphase with h | h <;> rw [h] <;> rfl
  unfold onLoginAck
  cases hsuccess : ack.isSuccess with
  | false =>
      exact fail_reacts hhand (fun h => nomatch h) (fun h => nomatch h)
        ⟨rfl, rfl, (List.append_nil _).symm⟩ rfl
  | true =>
      refine ⟨_, .accepted hphase harrives hbody hsuccess (settle_phase _ _) (settle_login _ _)
        (settle_of_awaited (s := { s with assembler, phase := .loggedIn, unit := _ }) · _), ?_⟩
      obtain ⟨hconfig, hused, hjournal⟩ := settle_continues _ _
      refine ⟨hconfig, hused, ?_⟩
      show _ ++ _ = _
      rw [hjournal, List.append_nil]

theorem onMessage_reacts {s : Session} {frame : Bytes} {m : Message} (assembler : Assembler)
    (harrives : s.Arrives frame m) :
    s.Reacts (.binary frame) ({ s with assembler }.onMessage m) := by
  have hsame : s.Continues [] { s with assembler } := ⟨rfl, rfl, (List.append_nil _).symm⟩
  unfold onMessage
  split
  · rename_i hphase hbody
    exact onLoginAck_reacts assembler (.inl hphase) harrives hbody
  · rename_i hphase hbody
    exact onLoginAck_reacts assembler (.inr hphase) harrives hbody
  · rename_i hphase
    exact ⟨_, .received hphase harrives hphase rfl, rfl, rfl, rfl⟩
  · exact .idle rfl rfl hsame

theorem onBinary_reacts (s : Session) (frame : Bytes) :
    s.Reacts (.binary frame) (s.onBinary frame) := by
  unfold onBinary
  split
  · split
    · rename_i hhand
      exact fail_reacts hhand (fun h => nomatch h) (fun h => nomatch h) (.refl s) rfl
    · exact .idle rfl rfl (.refl s)
  · rename_i m hdecode
    exact onMessage_reacts s.assembler (.inl hdecode)
  · rename_i slice hdecode
    split
    · rename_i m assembler hpush
      exact onMessage_reacts assembler (.inr ⟨slice, assembler, hdecode, hpush⟩)
    · exact .idle rfl rfl ⟨rfl, rfl, (List.append_nil _).symm⟩

theorem onFailed_reacts (s : Session) (reason : String) :
    s.Reacts (.failed reason) (s.onFailed reason) := by
  unfold onFailed
  split
  · rename_i hhand
    exact fail_reacts hhand (fun h => nomatch h) (fun h => nomatch h) (.refl s) rfl
  · exact .idle rfl rfl (.refl s)

theorem onClosed_reacts (s : Session) : s.Reacts .closed s.onClosed := by
  have hdeaf : s.Continues [] { s with link := s.link.deafen } :=
    ⟨rfl, rfl, (List.append_nil _).symm⟩
  unfold onClosed
  dsimp only
  split
  · rename_i hphase
    refine ⟨_, .ended hphase rfl rfl, rfl, rfl, ?_⟩
    show s.journal ++ [_] ++ [_] = _
    rw [List.append_assoc, List.singleton_append]
  · split
    · rename_i hhand
      exact ⟨[.published (.loginFailed .closed)],
        .failed hhand (.inr rfl) (settle_phase _ _) (settle_login _ _)
          (settle_of_awaited (s := { s with link := s.link.deafen, phase := .failed }) · _)
          (iff_of_true rfl rfl) (iff_of_true rfl rfl),
        hdeaf.trans (failClosed_continues _ _)⟩
    · exact .idle rfl rfl hdeaf

/-- Taking a signal amounts to one of the reactions. -/
theorem handle_reacts (s : Session) (x : Signal) : s.Reacts x (s.handle x) := by
  cases x with
  | opened => exact onOpened_reacts s
  | binary frame => exact onBinary_reacts s frame
  | closed => exact onClosed_reacts s
  | failed reason => exact onFailed_reacts s reason

/-! ### What is sent -/

/-- The frames that a message takes under the agreed unit. -/
def framesOf (s : Session) (header : Header) (payload : Payload) :
    Except ProtocolError (List Bytes) :=
  match s.unit with
  | some unit => Message.split header payload unit
  | none => (fun frame => [frame]) <$> Message.encode header payload

theorem transmit_of_open {s : Session} (h : s.link.attached ∧ s.link.served) (frame : Bytes) :
    s.transmit frame = (.ok (),
      { s with
        link.frames := s.link.frames ++ [frame]
        journal := s.journal ++ [.sent frame] }) := by
  obtain ⟨hattached, hserved⟩ := h
  simp [transmit, Link.send, hattached, hserved, note]

theorem transmit_of_not_open {s : Session} (h : ¬(s.link.attached ∧ s.link.served))
    (frame : Bytes) : ∃ e, s.transmit frame = (.error e, s) := by
  rw [transmit, Link.send]
  by_cases hattached : s.link.attached = true
  · have hserved : s.link.served = false := by
      rw [← Bool.not_eq_true]
      exact fun hserved => h ⟨hattached, hserved⟩
    exact ⟨.transport LinkError.serviceGone.message, by simp [hattached, hserved]⟩
  · exact ⟨.transport LinkError.notConnected.message, by simp [hattached]⟩

/-- Between two frames of a message nothing happens to the link, so it takes all of them or none. -/
theorem transmitAll_eq (s : Session) (frames : List Bytes) :
    (∃ link, s.transmitAll frames
        = (.ok (), { s with link, journal := s.journal ++ frames.map .sent }))
      ∨ ∃ e, s.transmitAll frames = (.error e, s) := by
  by_cases hopen : s.link.attached ∧ s.link.served
  · left
    induction frames generalizing s with
    | nil => exact ⟨s.link, by simp [transmitAll]⟩
    | cons frame frames ih =>
        obtain ⟨link, heq⟩ := ih { s with
          link.frames := s.link.frames ++ [frame], journal := s.journal ++ [.sent frame] } hopen
        refine ⟨link, ?_⟩
        rw [transmitAll, transmit_of_open hopen]
        dsimp only
        rw [heq, List.append_assoc, List.map_cons, List.singleton_append]
  · cases frames with
    | nil => exact .inl ⟨s.link, by simp [transmitAll]⟩
    | cons frame frames =>
        right
        obtain ⟨e, heq⟩ := transmit_of_not_open hopen frame
        exact ⟨e, by rw [transmitAll, heq]⟩

theorem send_of_not_loggedIn {s : Session} (h : s.phase ≠ .loggedIn) (header : Header)
    (payload : Payload) : s.send header payload = (.error (.notLoggedIn s.phase), s) := by
  rw [send, if_pos h]

theorem sendPayload_of_not_loggedIn {s : Session} (h : s.phase ≠ .loggedIn) (payload : Payload) :
    (s.sendPayload payload).1 = .error (.notLoggedIn s.phase) := by
  have hfresh : s.freshId.2.phase ≠ .loggedIn := h
  unfold Session.sendPayload
  dsimp only
  rw [send_of_not_loggedIn hfresh]
  rfl

theorem send_of_error {s : Session} (hphase : s.phase = .loggedIn) {header : Header}
    {payload : Payload} {e : ProtocolError} (h : s.framesOf header payload = .error e) :
    s.send header payload = (.error (.protocol e), s) := by
  unfold framesOf at h
  rw [send, if_neg (not_not.2 hphase)]
  cases hunit : s.unit with
  | none | some =>
      rw [hunit] at h
      dsimp only at h ⊢
      rw [h]

theorem send_of_ok {s : Session} (hphase : s.phase = .loggedIn) {header : Header}
    {payload : Payload} {frames : List Bytes} (h : s.framesOf header payload = .ok frames) :
    s.send header payload = s.transmitAll frames := by
  unfold framesOf at h
  rw [send, if_neg (not_not.2 hphase)]
  cases hunit : s.unit with
  | none | some =>
      rw [hunit] at h
      dsimp only at h ⊢
      rw [h]

/-- A message goes out whole, or nothing has happened. -/
theorem send_eq (s : Session) (header : Header) (payload : Payload) :
    (s.phase = .loggedIn ∧ ∃ frames link, s.framesOf header payload = .ok frames
        ∧ s.send header payload
          = (.ok (), { s with link, journal := s.journal ++ frames.map .sent }))
      ∨ ∃ e, s.send header payload = (.error e, s) := by
  by_cases hphase : s.phase = .loggedIn
  · cases hframes : s.framesOf header payload with
    | error e => exact .inr ⟨_, send_of_error hphase hframes⟩
    | ok frames =>
        rw [send_of_ok hphase hframes]
        rcases transmitAll_eq s frames with ⟨link, heq⟩ | ⟨e, heq⟩
        · exact .inl ⟨hphase, frames, link, rfl, heq⟩
        · exact .inr ⟨e, heq⟩
  · exact .inr ⟨_, send_of_not_loggedIn hphase header payload⟩

/-- A session sends a payload as a message under a header of its own. -/
theorem sendPayload_session (s : Session) (payload : Payload) :
    (s.sendPayload payload).2
      = (s.freshId.2.send (s.freshId.2.header s.freshId.1 payload.type) payload).2 := by
  unfold Session.sendPayload
  dsimp only
  split <;> rename_i h <;> rw [h]

/-! ### The other calls -/

/-- A call that connects begins a login, fails at once, or leaves all but the flag as it was. -/
theorem connect_eq (s : Session) :
    (s.used = true ∧ s.connect = (.error .alreadyUsed, s))
      ∨ (s.used = false ∧ ∃ e, s.config.check = .error e
        ∧ s.connect = (.error (.config e), { s with used := true }))
      ∨ (s.used = false ∧ s.config.check = .ok () ∧ ∃ link, s.connect
          = (.ok (), { s with used := true, phase := .connecting, login := .awaited, link }))
      ∨ (s.used = false ∧ s.config.check = .ok () ∧ ∃ link failure, failure ≠ .closed
        ∧ s.connect = (.error (.connectionFailed failure),
          { ({ s with used := true, phase := .connecting, login := .awaited, link }.fail failure)
            with login := .idle })) := by
  unfold connect
  cases hused : s.used with
  | true => exact .inl ⟨rfl, rfl⟩
  | false =>
      right
      rw [if_neg Bool.false_ne_true]
      dsimp only
      cases s.config.check with
      | error e => exact .inl ⟨rfl, e, rfl, rfl⟩
      | ok u =>
          right
          dsimp only
          cases s.link.listen.connect with
          | ok link => exact .inl ⟨rfl, rfl, link, rfl⟩
          | error e => exact .inr ⟨rfl, rfl, _, .transport _, (fun h => nomatch h), rfl⟩

theorem close_of_loggedIn {s : Session} (h : s.phase = .loggedIn) :
    s.close.phase = .disconnected ∧ s.close.login = s.login
      ∧ s.Continues [.closed, .ended, .published .disconnected] s.close := by
  unfold close
  rw [if_pos h]
  refine ⟨rfl, rfl, rfl, rfl, ?_⟩
  show s.journal ++ [_] ++ [_] ++ [_] = _
  rw [List.append_assoc, List.append_assoc]
  rfl

theorem close_of_handshaking {s : Session} (h : s.phase.isHandshaking) :
    s.close.phase = .disconnected ∧ s.Settles s.close ∧ s.Continues [.closed] s.close := by
  have hphase : s.phase ≠ .loggedIn := by
    intro hphase
    rw [hphase] at h
    cases h
  unfold close
  rw [if_neg hphase, if_pos h]
  obtain ⟨hconfig, hused, hjournal⟩ :=
    settle_continues { s with phase := .disconnected }.closeLink (.error .closed)
  refine ⟨settle_phase _ _,
    settle_login { s with phase := .disconnected }.closeLink (.error .closed), hconfig, hused, ?_⟩
  exact hjournal.trans (List.append_nil _)

theorem close_of_other {s : Session} (h : s.phase ≠ .loggedIn) (h' : ¬s.phase.isHandshaking) :
    s.close.phase = s.phase ∧ s.close.login = s.login ∧ s.Continues [] s.close := by
  unfold close
  rw [if_neg h, if_neg h']
  exact ⟨rfl, rfl, rfl, rfl, (List.append_nil _).symm⟩

/-- A signal settles a login at most. -/
theorem Reaction.idle_iff {s s' : Session} {x : Signal} {notes : List Note}
    (h : s.Reaction x notes s') : s'.login = .idle ↔ s.login = .idle := by
  cases h with
  | idle _ hlogin | received _ _ _ hlogin | introduced _ _ _ hlogin | ended _ _ hlogin =>
      rw [hlogin]
  | accepted _ _ _ _ _ hlogin _ | failed _ _ _ hlogin _ _ _ => exact hlogin.2

/-! ### What a step amounts to -/

/-- What a step of a session can amount to, with what it notes. -/
inductive Effect (s : Session) : Move → List Note → Session → Prop
  /-- The phase stays, and no call comes to wait for a login. -/
  | none {m : Move} {s' : Session} (phase : s'.phase = s.phase)
      (login : s'.login = s.login ∨ s'.login = .idle) : Effect s m [] s'
  | sent {m : Move} {frames : List Bytes} {s' : Session} (loggedIn : s.phase = .loggedIn)
      (phase : s'.phase = .loggedIn) (login : s'.login = s.login) :
      Effect s m (frames.map .sent) s'
  | begun {s' : Session} (unused : s.used = false) (used : s'.used = true)
      (phase : s'.phase = .connecting) (login : s'.login = .awaited) : Effect s .connect [] s'
  | refused {failure : LoginFailure} {s' : Session} (unused : s.used = false)
      (used : s'.used = true) (phase : s'.phase = .failed) (login : s'.login = .idle)
      (cause : failure ≠ .closed) :
      Effect s .connect [.closed, .published (.loginFailed failure)] s'
  | expired {s' : Session} (awaited : s.login = .awaited) (phase : s'.phase = .failed)
      (login : s'.login = .idle) :
      Effect s .expire [.closed, .published (.loginFailed .timedOut)] s'
  | reacted {x : Signal} {notes : List Note} {s' : Session} (reaction : s.Reaction x notes s') :
      Effect s (.signal x) notes s'
  | ended {s' : Session} (loggedIn : s.phase = .loggedIn) (phase : s'.phase = .disconnected)
      (login : s'.login = s.login) :
      Effect s .close [.closed, .ended, .published .disconnected] s'
  | abandoned {s' : Session} (handshaking : s.phase.isHandshaking)
      (phase : s'.phase = .disconnected) (login : s'.login = .idle) :
      Effect s .close [.closed] s'

/-- A step amounts to one of the effects; settings stay, the journal only grows, and who has been
asked to connect has been asked for good. -/
theorem Step.effect {m : Move} {s s' : Session} (h : Step m s s') :
    ∃ notes, s.Effect m notes s' ∧ s'.config = s.config ∧ s'.journal = s.journal ++ notes
      ∧ (s.used = true → s'.used = true) := by
  have quiet {t : Session} (hphase : t.phase = s.phase) (hcontinues : s.Continues [] t)
      (hlogin : t.login = s.login ∨ t.login = .idle) :
      ∃ notes, s.Effect m notes t ∧ t.config = s.config ∧ t.journal = s.journal ++ notes
        ∧ (s.used = true → t.used = true) :=
    ⟨[], .none hphase hlogin, hcontinues.config, hcontinues.journal, hcontinues.used.trans⟩
  cases h with
  | connect free =>
      rcases connect_eq s with ⟨_, heq⟩ | ⟨hunused, e, _, heq⟩ | ⟨hunused, _, link, heq⟩
        | ⟨hunused, _, link, failure, hfailure, heq⟩
      · rw [heq]
        exact quiet rfl (.refl s) (.inl rfl)
      · rw [heq]
        exact ⟨[], .none rfl (.inl rfl), rfl, (List.append_nil _).symm, fun _ => rfl⟩
      · rw [heq]
        exact ⟨[], .begun hunused rfl rfl rfl, rfl, (List.append_nil _).symm, fun _ => rfl⟩
      · rw [heq]
        obtain ⟨hconfig, hused, hjournal⟩ := fail_continues
          { s with used := true, phase := .connecting, login := .awaited, link } failure
        exact ⟨[.closed, .published (.loginFailed failure)],
          .refused hunused hused (fail_phase _ _) rfl hfailure, hconfig, hjournal, fun _ => hused⟩
  | close free =>
      by_cases hphase : s.phase = .loggedIn
      · obtain ⟨hphase', hlogin, hconfig, hused, hjournal⟩ := close_of_loggedIn hphase
        exact ⟨_, .ended hphase hphase' hlogin, hconfig, hjournal, hused.trans⟩
      · by_cases hhand : s.phase.isHandshaking
        · obtain ⟨hphase', hlogin, hconfig, hused, hjournal⟩ := close_of_handshaking hhand
          exact ⟨_, .abandoned hhand hphase' (hlogin.2.2 free), hconfig, hjournal, hused.trans⟩
        · obtain ⟨hphase', hlogin, hcontinues⟩ := close_of_other hphase hhand
          exact quiet hphase' hcontinues (.inl hlogin)
  | collect settled =>
      unfold outcome at settled
      split at settled
      · cases settled
        exact quiet rfl ⟨rfl, rfl, (List.append_nil _).symm⟩ (.inr rfl)
      · cases settled
        exact quiet rfl ⟨rfl, rfl, (List.append_nil _).symm⟩ (.inr rfl)
      · cases settled
  | expire awaited =>
      obtain ⟨hconfig, hused, hjournal⟩ := fail_continues s .timedOut
      exact ⟨[.closed, .published (.loginFailed .timedOut)],
        .expired awaited (fail_phase s _) rfl, hconfig, hjournal, hused.trans⟩
  | leave waiting =>
      exact quiet rfl ⟨rfl, rfl, (List.append_nil _).symm⟩ (.inr rfl)
  | signal x =>
      obtain ⟨notes, hreaction, hconfig, hused, hjournal⟩ := handle_reacts s x
      exact ⟨notes, .reacted hreaction, hconfig, hjournal, hused.trans⟩
  | send header payload =>
      rcases send_eq s header payload with ⟨hphase, frames, link, _, heq⟩ | ⟨e, heq⟩
      · rw [heq]
        exact ⟨_, .sent hphase hphase rfl, rfl, rfl, id⟩
      · rw [heq]
        exact quiet rfl (.refl s) (.inl rfl)
  | sendPayload payload =>
      rw [sendPayload_session]
      rcases send_eq s.freshId.2 (s.freshId.2.header s.freshId.1 payload.type) payload with
        ⟨hphase, frames, link, _, heq⟩ | ⟨e, heq⟩
      · rw [heq]
        exact ⟨_, .sent hphase hphase rfl, rfl, rfl, id⟩
      · rw [heq]
        exact quiet rfl ⟨rfl, rfl, (List.append_nil _).symm⟩ (.inl rfl)
  | outside link time serial =>
      exact quiet rfl ⟨rfl, rfl, (List.append_nil _).symm⟩ (.inl rfl)

end Session

end DataGateway

import DataGateway.Proofs.Session.Run

/-!
# The life of a session

The phase of a session only moves forward: through the handshake to a login, from a handshake to
failure, from a login to its end, and by closing from a handshake to its end. Nothing leads out of
the two terminal phases. A session comes to be logged in by a successful answer to the one login it
has sent, and sends nothing else until then. This holds although a login that fails sets the phase
without a look at it: a login is only ever awaited during a handshake, which is part of the
invariant `Sound`. What has been sent is told by the phase, which is `Introduced`.
-/

namespace DataGateway

/-- One move of a phase. Only closing breaks a handshake off without failure. -/
inductive Phase.Next (closing : Prop) : Phase → Phase → Prop
  | prepared : Next closing .notConnected .initializing
  | started : Next closing .initializing .connecting
  | opened : Next closing .connecting .connected
  | answered : Next closing .connected .loggingIn
  | accepted : Next closing .loggingIn .loggedIn
  | failed {p : Phase} (handshaking : p.isHandshaking) : Next closing p .failed
  | ended : Next closing .loggedIn .disconnected
  | abandoned {p : Phase} (close : closing) (handshaking : p.isHandshaking) :
      Next closing p .disconnected

/-- Moves lead from one phase to the other. -/
def Phase.Leads (closing : Prop) : Phase → Phase → Prop :=
  Relation.ReflTransGen (Phase.Next closing)

namespace Phase

open Relation (ReflTransGen)

variable {closing : Prop} {p q : Phase}

theorem not_isTerminal_of_isHandshaking (h : p.isHandshaking) : ¬p.isTerminal := by
  cases p with
  | initializing | connecting | connected | loggingIn => decide
  | _ => cases h

theorem Next.not_isTerminal (h : Next closing p q) : ¬p.isTerminal := by
  cases h with
  | failed hhand | abandoned _ hhand => exact not_isTerminal_of_isHandshaking hhand
  | _ => exact Bool.false_ne_true

theorem Leads.eq_of_isTerminal (h : Leads closing p q) (hp : p.isTerminal) : q = p := by
  induction h with
  | refl => rfl
  | tail _ hnext ih =>
      rw [ih] at hnext
      exact absurd hp hnext.not_isTerminal

/-- From a login nothing leads but to its end. -/
theorem Leads.eq_or_of_loggedIn (h : Leads closing .loggedIn q) :
    q = .loggedIn ∨ q = .disconnected := by
  induction h with
  | refl => exact .inl rfl
  | tail _ hnext ih =>
      rcases ih with ih | ih
      · rw [ih] at hnext
        cases hnext with
        | failed hhand | abandoned _ hhand => cases hhand
        | ended => exact .inr rfl
      · rw [ih] at hnext
        exact absurd rfl hnext.not_isTerminal

theorem Leads.of_closing (h : Leads closing p q) : Leads True p q := by
  refine ReflTransGen.mono (fun a b hnext => ?_) p q h
  cases hnext with
  | prepared => exact .prepared
  | started => exact .started
  | opened => exact .opened
  | answered => exact .answered
  | accepted => exact .accepted
  | failed hhand => exact .failed hhand
  | ended => exact .ended
  | abandoned _ hhand => exact .abandoned trivial hhand

end Phase

namespace Session

open Relation (ReflTransGen)

/-- A session that has not been asked to connect is not connected, one that keeps a login for a call
is in its handshake, and the phases within one step are not seen. -/
structure Sound (s : Session) : Prop where
  unused : s.used = false → s.phase = .notConnected
  awaited : s.login = .awaited → s.phase = .connecting ∨ s.phase = .connected
  visible : s.phase ≠ .initializing ∧ s.phase ≠ .loggingIn

theorem Sound.isHandshaking {s : Session} (hs : s.Sound) (h : s.login = .awaited) :
    s.phase.isHandshaking := by
  rcases hs.awaited h with hphase | hphase <;> rw [hphase] <;> rfl

/-- A phase that is seen and keeps no login. -/
theorem Sound.of_phase {s : Session} {p : Phase} (hused : s.used = true) (hphase : s.phase = p)
    (hlogin : s.login ≠ .awaited) (hvisible : p ≠ .initializing ∧ p ≠ .loggingIn) : s.Sound := by
  refine ⟨fun h => ?_, fun h => absurd h hlogin, hphase ▸ hvisible⟩
  rw [hused] at h
  cases h

theorem Sound.login_of_loggedIn {s : Session} (hs : s.Sound) (h : s.phase = .loggedIn) :
    s.login ≠ .awaited := by
  intro hlogin
  have hhand := hs.isHandshaking hlogin
  rw [h] at hhand
  cases hhand

theorem Sound.used_of_isHandshaking {s : Session} (hs : s.Sound) (h : s.phase.isHandshaking) :
    s.used = true := by
  by_contra hused
  rw [hs.unused (by simpa using hused)] at h
  cases h

theorem Sound.used_of_loggedIn {s : Session} (hs : s.Sound) (h : s.phase = .loggedIn) :
    s.used = true := by
  by_contra hused
  rw [hs.unused (by simpa using hused)] at h
  cases h

theorem Reaction.sound {s s' : Session} {x : Signal} {notes : List Note} (hs : s.Sound)
    (h : s.Reaction x notes s') (hused : s.used = true → s'.used = true) : s'.Sound := by
  cases h with
  | idle hphase hlogin =>
      refine ⟨fun h => ?_, fun h => ?_, hphase ▸ hs.visible⟩
      · rw [hphase]
        exact hs.unused (by simpa using mt hused (by simpa using h))
      · rw [hphase]
        exact hs.awaited (hlogin ▸ h)
  | received hloggedIn _ hphase hlogin =>
      refine .of_phase (hused (hs.used_of_loggedIn hloggedIn)) hphase ?_ (by decide)
      rw [hlogin]
      exact hs.login_of_loggedIn hloggedIn
  | introduced hconnecting _ hphase _ =>
      have hhand : s.phase.isHandshaking := by
        rw [hconnecting]
        rfl
      refine ⟨fun h => ?_, fun _ => .inr hphase, by rw [hphase]; decide⟩
      rw [hused (hs.used_of_isHandshaking hhand)] at h
      cases h
  | accepted hanswerable _ _ _ hphase hlogin =>
      have hhand : s.phase.isHandshaking := by
        rcases hanswerable with h | h <;> rw [h] <;> rfl
      exact .of_phase (hused (hs.used_of_isHandshaking hhand)) hphase hlogin.1 (by decide)
  | failed hhand _ hphase hlogin =>
      exact .of_phase (hused (hs.used_of_isHandshaking hhand)) hphase hlogin.1 (by decide)
  | ended hloggedIn hphase hlogin =>
      refine .of_phase (hused (hs.used_of_loggedIn hloggedIn)) hphase ?_ (by decide)
      rw [hlogin]
      exact hs.login_of_loggedIn hloggedIn

theorem Step.sound {m : Move} {s s' : Session} (hs : s.Sound) (h : Step m s s') : s'.Sound := by
  obtain ⟨notes, heffect, _, _, hused⟩ := h.effect
  cases heffect with
  | none hphase hlogin =>
      refine ⟨fun h => ?_, fun h => ?_, hphase ▸ hs.visible⟩
      · rw [hphase]
        exact hs.unused (by simpa using mt hused (by simpa using h))
      · rw [hphase]
        exact hs.awaited ((hlogin.resolve_right fun hidle => nomatch hidle.symm.trans h) ▸ h)
  | sent hloggedIn hphase hlogin =>
      refine .of_phase (hused (hs.used_of_loggedIn hloggedIn)) hphase ?_ (by decide)
      rw [hlogin]
      exact hs.login_of_loggedIn hloggedIn
  | begun _ hused' hphase =>
      refine ⟨fun h => ?_, fun _ => .inl hphase, by rw [hphase]; decide⟩
      rw [hused'] at h
      cases h
  | refused _ hused' hphase hlogin _ =>
      exact .of_phase hused' hphase (fun h => nomatch hlogin.symm.trans h) (by decide)
  | expired hawaited hphase hlogin =>
      have hused' := hused (hs.used_of_isHandshaking (hs.isHandshaking hawaited))
      exact .of_phase hused' hphase (fun h => nomatch hlogin.symm.trans h) (by decide)
  | reacted hreaction => exact hreaction.sound hs hused
  | ended hloggedIn hphase hlogin =>
      refine .of_phase (hused (hs.used_of_loggedIn hloggedIn)) hphase ?_ (by decide)
      rw [hlogin]
      exact hs.login_of_loggedIn hloggedIn
  | abandoned hhand hphase hlogin =>
      exact .of_phase (hused (hs.used_of_isHandshaking hhand)) hphase
        (fun h => nomatch hlogin.symm.trans h) (by decide)

theorem Reachable.sound {s : Session} (hs : Reachable s) : s.Sound := by
  induction hs with
  | new config link time serial =>
      exact ⟨fun _ => rfl, (fun h => nomatch h), (fun h => nomatch h), (fun h => nomatch h)⟩
  | step _ h ih => exact h.sound ih

/-! ### Forward -/

theorem Reaction.leads {s s' : Session} {x : Signal} {notes : List Note}
    (h : s.Reaction x notes s') (closing : Prop) : Phase.Leads closing s.phase s'.phase := by
  cases h with
  | idle hphase _ =>
      rw [hphase]
      exact .refl
  | received hloggedIn _ hphase _ =>
      rw [hphase, hloggedIn]
      exact .refl
  | introduced hconnecting _ hphase _ =>
      rw [hphase, hconnecting]
      exact .single .opened
  | accepted hanswerable _ _ _ hphase _ =>
      rw [hphase]
      rcases hanswerable with h | h <;> rw [h]
      · exact .tail (.single .answered) .accepted
      · exact .single .accepted
  | failed hhand _ hphase _ =>
      rw [hphase]
      exact .single (.failed hhand)
  | ended hloggedIn hphase _ =>
      rw [hphase, hloggedIn]
      exact .single .ended

/-- The phase only moves forward. -/
theorem Step.leads {m : Move} {s s' : Session} (hs : s.Sound) (h : Step m s s') :
    Phase.Leads (m = .close) s.phase s'.phase := by
  obtain ⟨notes, heffect, _⟩ := h.effect
  cases heffect with
  | none hphase _ =>
      rw [hphase]
      exact .refl
  | sent hloggedIn hphase _ =>
      rw [hphase, hloggedIn]
      exact .refl
  | begun hunused _ hphase =>
      rw [hphase, hs.unused hunused]
      exact .tail (.single .prepared) .started
  | refused hunused _ hphase _ =>
      rw [hphase, hs.unused hunused]
      exact .tail (.tail (.single .prepared) .started) (.failed rfl)
  | expired hawaited hphase _ =>
      rw [hphase]
      exact .single (.failed (hs.isHandshaking hawaited))
  | reacted hreaction => exact hreaction.leads _
  | ended hloggedIn hphase _ =>
      rw [hphase, hloggedIn]
      exact .single .ended
  | abandoned hhand hphase _ =>
      rw [hphase]
      exact .single (.abandoned rfl hhand)

theorem Run.leads {s t : Session} (hs : s.Sound) (h : Run s t) :
    t.Sound ∧ Phase.Leads True s.phase t.phase := by
  induction h with
  | refl => exact ⟨hs, .refl⟩
  | tail _ hstep ih =>
      obtain ⟨m, hstep⟩ := hstep
      exact ⟨hstep.sound ih.1, ih.2.trans (hstep.leads ih.1).of_closing⟩

/-! ### Login -/

/-- The second session is logged in and the first is not. -/
def Enters (s s' : Session) : Prop := s.phase ≠ .loggedIn ∧ s'.phase = .loggedIn

/-- What a session has sent before it is logged in is told by its phase. -/
structure Introduced (s : Session) : Prop where
  silent : s.phase = .notConnected ∨ s.phase = .connecting → sentFrames s.journal = []
  login : s.phase = .connected →
    ∃ frame, IsLogin s.config frame ∧ sentFrames s.journal = [frame]

/-- Frames that a step sends while nobody is logged in: none, or the login. -/
def SendsLogin (m : Move) (s s' : Session) : Prop :=
  m = .signal .opened ∧ s.phase = .connecting ∧ s'.phase ≠ .loggedIn
    ∧ sentFrames s.journal = []
    ∧ ∃ frame, IsLogin s.config frame ∧ sentFrames s'.journal = [frame]

/-- Until it is logged in, a session sends its login and nothing else. -/
theorem Step.sends {m : Move} {s s' : Session} (hi : s.Introduced) (h : Step m s s')
    (hphase : s.phase ≠ .loggedIn) :
    sentFrames s'.journal = sentFrames s.journal ∨ SendsLogin m s s' := by
  obtain ⟨notes, heffect, _, hjournal, _⟩ := h.effect
  have quiet (hnotes : sentFrames notes = []) :
      sentFrames s'.journal = sentFrames s.journal ∨ SendsLogin m s s' := by
    left
    rw [hjournal, sentFrames_append, hnotes, List.append_nil]
  cases heffect with
  | sent hloggedIn _ _ => exact absurd hloggedIn hphase
  | reacted hreaction =>
      cases hreaction with
      | introduced hconnecting hlogin hphase' _ =>
          have hsilent := hi.silent (.inr hconnecting)
          refine .inr ⟨rfl, hconnecting, ?_, hsilent, _, hlogin, ?_⟩
          · rw [hphase']
            decide
          · rw [hjournal, sentFrames_append, hsilent]
            rfl
      | failed _ hnotes _ _ => rcases hnotes with rfl | rfl <;> exact quiet rfl
      | _ => exact quiet rfl
  | _ => exact quiet rfl

theorem Step.introduced {m : Move} {s s' : Session} (hs : s.Sound) (hi : s.Introduced)
    (h : Step m s s') : s'.Introduced := by
  obtain ⟨notes, heffect, hconfig, hjournal, hused⟩ := h.effect
  have passed (hphase : s'.phase.isTerminal ∨ s'.phase = .loggedIn) : s'.Introduced := by
    constructor
    · intro hbefore
      rcases hbefore with hbefore | hbefore <;> rw [hbefore] at hphase <;>
        exact absurd hphase (by decide)
    · intro hbefore
      rw [hbefore] at hphase
      exact absurd hphase (by decide)
  have same (hphase : s'.phase = s.phase) (hnotes : notes = []) : s'.Introduced := by
    rw [hnotes, List.append_nil] at hjournal
    constructor
    · rw [hphase, hjournal]
      exact hi.silent
    · rw [hphase, hjournal, hconfig]
      exact hi.login
  cases heffect with
  | none hphase _ => exact same hphase rfl
  | sent _ hphase _ => exact passed (.inr hphase)
  | begun hunused _ hphase =>
      constructor
      · intro _
        rw [hjournal, List.append_nil]
        exact hi.silent (.inl (hs.unused hunused))
      · intro hconnected
        rw [hphase] at hconnected
        cases hconnected
  | refused _ _ hphase _ | expired _ hphase _ | ended _ hphase _ | abandoned _ hphase _ =>
      exact passed (.inl (by rw [hphase]; rfl))
  | reacted hreaction =>
      cases hreaction with
      | idle hphase _ => exact same hphase rfl
      | received _ _ hphase _ | accepted _ _ _ _ hphase _ => exact passed (.inr hphase)
      | failed _ _ hphase _ | ended _ hphase _ => exact passed (.inl (by rw [hphase]; rfl))
      | introduced hconnecting hlogin hphase _ =>
          constructor
          · intro hbefore
            rw [hphase] at hbefore
            exact absurd hbefore (by decide)
          · intro _
            refine ⟨_, hconfig ▸ hlogin, ?_⟩
            rw [hjournal, sentFrames_append, hi.silent (.inr hconnecting)]
            rfl

theorem Reachable.introduced {s : Session} (hs : Reachable s) : s.Introduced := by
  induction hs with
  | new config link time serial => exact ⟨fun _ => rfl, fun h => nomatch h⟩
  | step hs h ih => exact h.introduced hs.sound ih

/-- A session is logged in by a successful answer to the login it has sent. -/
theorem Step.enters {m : Move} {s s' : Session} (hs : s.Sound) (hi : s.Introduced)
    (h : Step m s s') (henters : Enters s s') :
    ∃ frame answer ack login, m = .signal (.binary frame) ∧ s.phase = .connected
      ∧ s.Arrives frame answer ∧ answer.payload.body? .connectionAck = some ack ∧ ack.isSuccess
      ∧ IsLogin s.config login ∧ sentFrames s.journal = [login] := by
  obtain ⟨hbefore, hafter⟩ := henters
  obtain ⟨notes, heffect, _⟩ := h.effect
  have impossible {p : Phase} (hphase : s'.phase = p) (hp : p ≠ .loggedIn) : False :=
    hp (hphase.symm.trans hafter)
  cases heffect with
  | none hphase _ => exact absurd (hphase.symm.trans hafter) hbefore
  | sent hloggedIn _ _ => exact absurd hloggedIn hbefore
  | begun _ _ hphase | refused _ _ hphase _ | expired _ hphase _ | ended _ hphase _
    | abandoned _ hphase _ => exact (impossible hphase (by decide)).elim
  | reacted hreaction =>
      cases hreaction with
      | idle hphase _ => exact absurd (hphase.symm.trans hafter) hbefore
      | received hloggedIn _ _ _ => exact absurd hloggedIn hbefore
      | introduced _ _ hphase _ | failed _ _ hphase _ | ended _ hphase _ =>
          exact (impossible hphase (by decide)).elim
      | accepted hanswerable harrives hbody hsuccess _ _ =>
          have hconnected := hanswerable.resolve_right hs.visible.2
          obtain ⟨login, hlogin, hsent⟩ := hi.login hconnected
          exact ⟨_, _, _, login, rfl, hconnected, harrives, hbody, hsuccess, hlogin, hsent⟩

/-- A session is logged in once. -/
theorem Enters.once {s s' t t' : Session} {m : Move} (hs : s'.Sound) (h : Enters s s')
    (hrun : Run s' t) (hstep : Step m t t') : ¬Enters t t' := by
  rintro ⟨hbefore, hafter⟩
  obtain ⟨ht, hleads⟩ := hrun.leads hs
  rw [h.2] at hleads
  have hphase := hleads.eq_or_of_loggedIn.resolve_left hbefore
  have hterminal := (hstep.leads ht).eq_of_isTerminal (by rw [hphase]; rfl)
  rw [hafter, hphase] at hterminal
  cases hterminal

/-- The law of a session's life, of every step of every run. -/
theorem Reachable.lifecycle {s s' : Session} {m : Move} (hs : Reachable s) (h : Step m s s') :
    (Phase.Leads (m = .close) s.phase s'.phase ∧ (s.phase.isTerminal → s'.phase = s.phase))
    ∧ (Enters s s' →
      (∃ frame answer ack login, m = .signal (.binary frame) ∧ s.phase = .connected
        ∧ s.Arrives frame answer ∧ answer.payload.body? .connectionAck = some ack ∧ ack.isSuccess
        ∧ IsLogin s.config login ∧ sentFrames s.journal = [login])
      ∧ ∀ t t' m', Run s' t → Step m' t t' → ¬Enters t t')
    ∧ (s.phase ≠ .loggedIn →
      (sentFrames s'.journal = sentFrames s.journal ∨ SendsLogin m s s')
      ∧ (∀ header payload, s.send header payload = (.error (.notLoggedIn s.phase), s))
      ∧ ∀ payload, (s.sendPayload payload).1 = .error (.notLoggedIn s.phase)) := by
  have hsound := hs.sound
  have hleads := h.leads hsound
  refine ⟨⟨hleads, hleads.eq_of_isTerminal⟩, fun henters => ⟨?_, ?_⟩, fun hphase => ⟨?_, ?_, ?_⟩⟩
  · exact h.enters hsound hs.introduced henters
  · intro t t' m' hrun hstep
    exact henters.once (h.sound hsound) hrun hstep
  · exact h.sends hs.introduced hphase
  · exact send_of_not_loggedIn hphase
  · exact sendPayload_of_not_loggedIn hphase

/-- A new session with the settings that hold where nothing is said. -/
def fresh : Session := { config := {} }

/-- The frame that accepts its login. -/
def greeting : Bytes :=
  let ack : ConnectionAck := .accepted fresh.config.connection
  (Message.encode (fresh.header "login" .connectionAck) ⟨.connectionAck, ack⟩).toOption.getD []

theorem Reachable.lifecycle_fresh : ∃ s, Reachable s ∧ Enters s (s.handle (.binary greeting))
    ∧ (∃ login, IsLogin s.config login ∧ sentFrames s.journal = [login])
    ∧ sentFrames (s.handle (.binary greeting)).journal = sentFrames s.journal
    ∧ ∀ t t' m, Run (s.handle (.binary greeting)) t → Step m t t' → ¬Enters t t' := by
  let s := fresh.connect.2.handle .opened
  have hs : Reachable s := .step (.step (.new _ _ _ _) (.connect rfl)) (.signal .opened)
  have henters : Enters s (s.handle (.binary greeting)) := by
    constructor
    · decide +kernel
    · decide +kernel
  obtain ⟨_, hentry, hsilence⟩ := hs.lifecycle (.signal (.binary greeting))
  obtain ⟨⟨_, _, _, login, _, _, _, _, _, hlogin, hsent⟩, honce⟩ := hentry henters
  obtain ⟨hsends, _⟩ := hsilence henters.1
  refine ⟨s, hs, henters, ⟨login, hlogin, hsent⟩, ?_, honce⟩
  exact hsends.resolve_right fun hlogin => hlogin.2.2.1 henters.2

end Session

end DataGateway

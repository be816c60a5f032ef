import DataGateway.Proofs.Client.Ending

/-!
# Requests that are not sent

A request is registered before it is sent, so one that is not sent has to be taken back. `Refusal`
lists why one is not sent, in the order of the checks: its id is registered, nobody is logged in, it
cannot be put into frames, or the transport does not take one of them. The link of a client takes all
frames of a message or none, but a transport may well take some before it refuses one; so a request
is looked at over any transport (`askOver`), of which the link is one.

Whatever the reason, only a ticket has been drawn. The ids that were registered still are, no call
loses what has come to it, and a call that waits under the very id still goes on with the message
that answers it.
-/

namespace DataGateway

/-- What a transport makes of a frame. -/
abbrev Transport := Link → Bytes → Except LinkError Link

/-- A transport takes frames, or some and then not the next. -/
theorem Transport.takes_or_refuses (take : Transport) (link : Link) (frames : List Bytes) :
    (∃ link', frames.foldlM take link = .ok link')
      ∨ ∃ taken frame rest link' e, frames = taken ++ frame :: rest
        ∧ taken.foldlM take link = .ok link' ∧ take link' frame = .error e := by
  induction frames generalizing link with
  | nil => exact .inl ⟨link, rfl⟩
  | cons frame frames ih =>
      cases htake : take link frame with
      | error e => exact .inr ⟨[], frame, frames, link, e, rfl, rfl, htake⟩
      | ok next =>
          have hcons (taken : List Bytes) :
              (frame :: taken).foldlM take link = taken.foldlM take next := by
            rw [List.foldlM_cons, htake]
            rfl
          rcases ih next with ⟨link', htaken⟩ | ⟨taken, other, rest, link', e, rfl, htaken, he⟩
          · exact .inl ⟨link', (hcons frames).trans htaken⟩
          · exact .inr ⟨frame :: taken, other, rest, link', e, rfl, (hcons taken).trans htaken, he⟩

namespace Session

variable {s : Session} {take : Transport}

/-- Gives frames to a transport up to the first that it does not take. -/
def transmitOver (take : Transport) (s : Session) : List Bytes → Except ClientError Unit × Session
  | [] => (.ok (), s)
  | frame :: frames =>
    match take s.link frame with
    | .ok link => transmitOver take ({ s with link }.note (.sent frame)) frames
    | .error e => (.error (.transport e.message), s)

/-- Sends a message over a transport. -/
def sendOver (take : Transport) (s : Session) (header : Header) (payload : Payload) :
    Except ClientError Unit × Session :=
  if s.phase ≠ .loggedIn then (.error (.notLoggedIn s.phase), s)
  else
    match s.framesOf header payload with
    | .ok frames => s.transmitOver take frames
    | .error e => (.error (.protocol e), s)

theorem transmitOver_link (s : Session) (frames : List Bytes) :
    s.transmitOver Link.send frames = s.transmitAll frames := by
  induction frames generalizing s with
  | nil => rfl
  | cons frame frames ih =>
      rw [transmitOver, transmitAll, transmit]
      cases s.link.send frame with
      | ok link => exact ih _
      | error e => rfl

theorem sendOver_link (s : Session) (header : Header) (payload : Payload) :
    s.sendOver Link.send header payload = s.send header payload := by
  unfold sendOver
  by_cases hphase : s.phase = .loggedIn
  · rw [if_neg (not_not.2 hphase)]
    cases hframes : s.framesOf header payload with
    | error e => rw [send_of_error hphase hframes]
    | ok frames =>
        rw [send_of_ok hphase hframes]
        exact transmitOver_link s frames
  · rw [if_pos hphase, send_of_not_loggedIn hphase]

theorem transmitOver_of_taken {taken : List Bytes} {link : Link}
    (h : taken.foldlM take s.link = .ok link) (rest : List Bytes) :
    s.transmitOver take (taken ++ rest) = transmitOver take
      { s with link, journal := s.journal ++ taken.map .sent } rest := by
  induction taken generalizing s with
  | nil =>
      cases h
      simp
  | cons frame taken ih =>
      rw [List.foldlM_cons] at h
      rw [List.cons_append, transmitOver]
      cases htake : take s.link frame with
      | error e =>
          rw [htake] at h
          cases h
      | ok next =>
          rw [htake] at h
          have hnext : taken.foldlM take ({ s with link := next }.note (.sent frame)).link
              = .ok link := h
          dsimp only
          rw [ih hnext]
          simp [note]

end Session

namespace Client

open Relation (ReflTransGen)

variable {c c' d : Client} {name id : String} {r : Request} {H : List Happening} {take : Transport}
  {payload : Payload} {e : ClientError} {taken : List Bytes} {link : Link}
  {allowed : Move → Client → Prop}

/-! ### Asking over any transport -/

/-- Registers a request's id and sends its message over a transport. -/
def dispatchOver (take : Transport) (c : Client) (id : String) (deadline : Nat) (stage : Stage)
    (payload : Payload) : Except ClientError Request × Client :=
  match c.correlator.register id with
  | .error e => (.error e, c)
  | .ok (ticket, correlator) =>
    let request : Request := { id, ticket, deadline, stage }
    match c.session.sendOver take (c.session.header id payload.type) payload with
    | (.ok (), s) => (.ok request, { c with correlator }.withSession s)
    | (.error e, s) => (.error e, ({ c with correlator }.withSession s).withdraw request)

/-- Asks the service over a transport. -/
def askOver (take : Transport) (c : Client) (name : String) (question : Question)
    (id : Option String) (timeout : Option Duration) : Client :=
  let timeout := timeout.getD c.session.config.requestTimeout
  let (id, c) := match id with
    | some id => (id, c)
    | none =>
      let (id, session) := c.session.freshId
      (id, { c with session })
  match c.dispatchOver take id (c.now + timeoutTicks timeout) question.stage
    (question.payload timeout) with
  | (.ok request, c) => { c with requests := c.requests ++ [(name, request)] }
  | (.error e, c) => c.ended name (.requested (.error e))

theorem dispatchOver_link (c : Client) (id : String) (deadline : Nat) (stage : Stage)
    (payload : Payload) :
    c.dispatchOver Link.send id deadline stage payload = c.dispatch id deadline stage payload := by
  unfold dispatchOver dispatch send
  cases c.correlator.register id with
  | error e => rfl
  | ok entry =>
      dsimp only
      rw [Session.sendOver_link]
      generalize c.session.send (c.session.header id payload.type) payload = x
      obtain ⟨_ | _, s⟩ := x <;> rfl

/-- Over its link a client asks as it does. -/
theorem askOver_link (c : Client) (name : String) (question : Question) (id : Option String)
    (timeout : Option Duration) :
    c.askOver Link.send name question id timeout = c.ask name question id timeout := by
  unfold askOver ask
  cases id with
  | some i =>
      dsimp only
      generalize hdispatch : c.dispatch i _ _ _ = x
      rw [← dispatchOver_link] at hdispatch
      obtain ⟨_ | _, d⟩ := x <;> simp only [hdispatch]
  | none =>
      dsimp only
      generalize hdispatch : Client.dispatch _ c.session.freshId.1 _ _ _ = x
      rw [← dispatchOver_link] at hdispatch
      obtain ⟨_ | _, d⟩ := x <;> simp only [hdispatch]

/-! ### Why a request is not sent -/

/-- Why a request is not sent over a transport, with the frames that the transport has taken of it
and the link after them. -/
inductive Refusal (take : Transport) (c : Client) (id : String) (payload : Payload) :
    ClientError → List Bytes → Link → Prop
  | registered {w : Waiter} (held : c.correlator.waiters.get? id = some w) :
      Refusal take c id payload (.duplicateId id) [] c.session.link
  | notLoggedIn (free : c.correlator.waiters.get? id = none)
      (phase : c.session.phase ≠ .loggedIn) :
      Refusal take c id payload (.notLoggedIn c.session.phase) [] c.session.link
  | unsendable {e : ProtocolError} (free : c.correlator.waiters.get? id = none)
      (phase : c.session.phase = .loggedIn)
      (frames : c.session.framesOf (c.session.header id payload.type) payload = .error e) :
      Refusal take c id payload (.protocol e) [] c.session.link
  | refused {taken rest : List Bytes} {frame : Bytes} {link : Link} {e : LinkError}
      (free : c.correlator.waiters.get? id = none) (phase : c.session.phase = .loggedIn)
      (frames : c.session.framesOf (c.session.header id payload.type) payload
        = .ok (taken ++ frame :: rest))
      (takes : taken.foldlM take c.session.link = .ok link)
      (refuses : take link frame = .error e) :
      Refusal take c id payload (.transport e.message) taken link

/-- Only a transport's refusal comes after frames that it has taken. -/
theorem Refusal.untaken (h : c.Refusal take id payload e taken link)
    (hreason : ∀ reason, e ≠ .transport reason) : taken = [] ∧ link = c.session.link := by
  cases h with
  | registered | notLoggedIn | unsendable => exact ⟨rfl, rfl⟩
  | refused => exact absurd rfl (hreason _)

theorem Refusal.sendOver (h : c.Refusal take id payload e taken link)
    (hfree : c.correlator.waiters.get? id = none) :
    c.session.sendOver take (c.session.header id payload.type) payload
      = (.error e, { c.session with link, journal := c.session.journal ++ taken.map .sent }) := by
  unfold Session.sendOver
  cases h with
  | registered held =>
      rw [hfree] at held
      cases held
  | notLoggedIn _ phase =>
      rw [if_pos phase]
      simp
  | unsendable _ phase frames =>
      rw [if_neg (not_not.2 phase), frames]
      simp
  | refused _ phase frames takes refuses =>
      rw [if_neg (not_not.2 phase), frames]
      dsimp only
      rw [Session.transmitOver_of_taken takes, Session.transmitOver, refuses]

/-- A request that is not sent is taken back: of it there remain the frames that were taken, and a
ticket that nobody has. -/
theorem Refusal.dispatchOver (h : c.Refusal take id payload e taken link) {roots : List Nat}
    (hjournal : c.session.journal = []) (htickets : c.correlator.Sound roots) (deadline : Nat)
    (stage : Stage) : ∃ drawn, c.correlator.drawn ≤ drawn
      ∧ c.dispatchOver take id deadline stage payload
        = (.error e, { c with correlator.drawn := drawn }.sent taken link) := by
  unfold Client.dispatchOver
  cases hget : c.correlator.waiters.get? id with
  | some w =>
      rw [Correlator.register_of_some hget]
      refine ⟨c.correlator.drawn, le_rfl, ?_⟩
      cases h with
      | registered => simp [sent]
      | notLoggedIn free | unsendable free | refused free =>
          rw [hget] at free
          cases free
  | none =>
      rw [Correlator.register_of_none hget]
      refine ⟨c.correlator.drawn + 1, Nat.le_succ _, ?_⟩
      dsimp only
      rw [h.sendOver hget]
      dsimp only
      rw [withSession_sent (by exact hjournal)]
      dsimp only [withdraw, sent]
      rw [htickets.tear_register hget]

/-- A request is registered, or there is a reason why it is not sent. -/
theorem dispatchOver_cases (take : Transport) (c : Client) (id : String) (deadline : Nat)
    (stage : Stage) (payload : Payload) :
    (∃ r d, c.dispatchOver take id deadline stage payload = (.ok r, d)
        ∧ d.endings = c.endings)
      ∨ ∃ e taken link, c.Refusal take id payload e taken link := by
  cases hget : c.correlator.waiters.get? id with
  | some w => exact .inr ⟨_, _, _, .registered hget⟩
  | none =>
      by_cases hphase : c.session.phase = .loggedIn
      · cases hframes : c.session.framesOf (c.session.header id payload.type) payload with
        | error e => exact .inr ⟨_, _, _, .unsendable hget hphase hframes⟩
        | ok frames =>
            rcases take.takes_or_refuses c.session.link frames with
              ⟨link, htaken⟩ | ⟨taken, frame, rest, link, e, rfl, htaken, hrefuses⟩
            · left
              have hsent := Session.transmitOver_of_taken (s := c.session) htaken []
              rw [List.append_nil] at hsent
              unfold dispatchOver Session.sendOver
              rw [Correlator.register_of_none hget, if_neg (not_not.2 hphase), hframes]
              dsimp only
              rw [hsent]
              exact ⟨_, _, rfl, rfl⟩
            · exact .inr ⟨_, _, _, .refused hget hphase hframes htaken hrefuses⟩
      · exact .inr ⟨_, _, _, .notLoggedIn hget hphase⟩

theorem askOver_eq (take : Transport) (c : Client) (name : String) (question : Question)
    (id : Option String) (timeout : Option Duration) :
    ∃ serial, c.askOver take name question id timeout
      = match ({ c with session.serial := serial } : Client).dispatchOver take (c.idOf id)
            (c.now + timeoutTicks (timeout.getD c.session.config.requestTimeout)) question.stage
            (question.payload (timeout.getD c.session.config.requestTimeout)) with
        | (.ok request, c) => { c with requests := c.requests ++ [(name, request)] }
        | (.error e, c) => c.ended name (.requested (.error e)) := by
  cases id with
  | some i => exact ⟨c.session.serial, rfl⟩
  | none => exact ⟨c.session.serial + 1, rfl⟩

/-- The payload of a question that is asked with a timeout, or with the configured one. -/
def payloadOf (c : Client) (question : Question) (timeout : Option Duration) : Payload :=
  question.payload (timeout.getD c.session.config.requestTimeout)

/-- The ids that have been made up do not matter. -/
theorem Refusal.of_session (h : c.Refusal take id payload e taken link) (serial : Nat)
    (hsession : c'.session = { c.session with serial })
    (hcorrelator : c'.correlator = c.correlator) : c'.Refusal take id payload e taken link := by
  obtain ⟨session, correlator, now, connecting, queue, requests, endings, journal⟩ := c'
  dsimp only at hsession hcorrelator
  subst hsession hcorrelator
  cases h with
  | registered held => exact .registered held
  | notLoggedIn free phase => exact .notLoggedIn free phase
  | unsendable free phase frames => exact .unsendable free phase frames
  | refused free phase frames takes refuses => exact .refused free phase frames takes refuses

section

variable {question : Question} {i : Option String} {timeout : Option Duration}

theorem Refusal.askOver (h : c.Refusal take (c.idOf i) (c.payloadOf question timeout) e taken link)
    (hc : c.Sound) (name : String) : ∃ serial drawn, c.correlator.drawn ≤ drawn
      ∧ c.askOver take name question i timeout
        = ({ c with session.serial := serial, correlator.drawn := drawn }.sent taken link).ended name
            (.requested (.error e)) := by
  obtain ⟨serial, heq⟩ := askOver_eq take c name question i timeout
  have h' : Refusal take { c with session.serial := serial } (c.idOf i)
      (c.payloadOf question timeout) e taken link := h.of_session serial rfl rfl
  obtain ⟨drawn, hle, hdispatch⟩ := h'.dispatchOver hc.journal hc.tickets
    (c.now + timeoutTicks (timeout.getD c.session.config.requestTimeout)) question.stage
  refine ⟨serial, drawn, hle, ?_⟩
  unfold payloadOf at hdispatch
  rw [heq, hdispatch]

/-- A call that returns an error at once was not sent. -/
theorem refusal_iff_returned (hc : c.Sound) (unreturned : c.returned name = []) :
    (c.askOver take name question i timeout).returned name = [.error e]
      ↔ ∃ taken link, c.Refusal take (c.idOf i) (c.payloadOf question timeout) e taken link := by
  have returned {e : ClientError} {taken : List Bytes} {link : Link}
      (h : c.Refusal take (c.idOf i) (c.payloadOf question timeout) e taken link) :
      (c.askOver take name question i timeout).returned name = [.error e] := by
    obtain ⟨serial, drawn, _, heq⟩ := h.askOver hc name
    rw [heq]
    exact returned_requested_self (by exact unreturned) _
  constructor
  · intro hreturned
    obtain ⟨serial, heq⟩ := askOver_eq take c name question i timeout
    rcases dispatchOver_cases take { c with session.serial := serial } (c.idOf i)
      (c.now + timeoutTicks (timeout.getD c.session.config.requestTimeout)) question.stage
      (question.payload (timeout.getD c.session.config.requestTimeout)) with
      ⟨r, d, hdispatch, hendings⟩ | ⟨e', taken, link, h⟩
    · -- A call that waits has returned nothing.
      rw [heq, hdispatch] at hreturned
      have hnone : d.returned name = [] := by
        unfold Client.returned at unreturned ⊢
        rw [hendings]
        exact unreturned
      exact absurd (hnone.symm.trans hreturned) (List.cons_ne_nil _ _).symm
    · have h : c.Refusal take (c.idOf i) (c.payloadOf question timeout) e' taken link :=
        h.of_session c.session.serial rfl rfl
      rw [returned h] at hreturned
      cases hreturned
      exact ⟨taken, link, h⟩
  · rintro ⟨taken, link, h⟩
    exact returned h

end

/-! ### What is left of a request that is not sent -/

/-- Steps that are none of the call's own. -/
def Meanwhile (name : String) : Client → Client → Prop :=
  ReflTransGen fun c c' => ∃ m, m ≠ .resume name ∧ Step m c c'

/-- A call that does not go on keeps its history, and what the session notes is added to it. -/
theorem Waits.meanwhile (h : c.Waits name r H) (hc : c.Sound) (hrun : Meanwhile name c d) :
    d.Sound ∧ ∃ notes, d.journal = c.journal ++ notes
      ∧ d.Waits name r (H ++ heard r.id notes) := by
  induction hrun with
  | refl =>
      refine ⟨hc, [], (List.append_nil _).symm, ?_⟩
      rwa [heard_nil, List.append_nil]
  | tail _ hstep ih =>
      obtain ⟨hd, notes, hjournal, hwaits⟩ := ih
      obtain ⟨m, hother, hstep⟩ := hstep
      obtain ⟨_, more, heffect, hmore⟩ := hstep.effect hd
      refine ⟨hstep.sound hd, notes ++ more, ?_, ?_⟩
      · rw [hmore, hjournal, List.append_assoc]
      · have hnext := hwaits.effect hd heffect hother
        rwa [List.append_assoc, ← heard_append] at hnext

/-- Nothing has happened to the calls that wait. The same ids are registered, what has come to a call
still lies there for it, and a call to which nothing has come goes on with the first message that
comes under its id. -/
structure Traceless (c c' : Client) : Prop where
  waiters : c'.correlator.waiters = c.correlator.waiters
  requests : c'.requests = c.requests
  waits : ∀ name r H, c.Waits name r H → c'.Waits name r H
  answers : ∀ name r, c.Waits name r [] → ∀ d notes, Meanwhile name c' d →
    d.journal = c'.journal ++ notes → ∀ header payload H,
      heard r.id notes = .message header payload :: H →
      ∃ followUp, d.pollRequest r
        = some (({ d with correlator := d.correlator.fetched r.ticket } : Client).resolve r
            ⟨header, payload, followUp⟩)

/-- A request that is not sent leaves no trace among those that wait, whatever frames of it were
taken. -/
theorem Refusal.traceless {question : Question} {i : Option String} {timeout : Option Duration}
    (h : c.Refusal take (c.idOf i) (c.payloadOf question timeout) e taken link) (hc : c.Sound)
    (unused : ∀ r, (name, r) ∉ c.requests) (unreturned : c.returned name = []) :
    c.Traceless (c.askOver take name question i timeout) := by
  obtain ⟨serial, drawn, hle, heq⟩ := h.askOver hc name
  generalize c.askOver take name question i timeout = c' at heq
  have heffect : c.Effect (.ask name question i timeout) [] c' := by
    rw [heq]
    exact .refused unused unreturned hle rfl rfl fun n =>
      returned_requested _ name n (.error e)
  have hattends : c'.Attends := by
    rw [heq]
    exact hc.of_session link c.session.time serial rfl rfl hc.quiet
  have hc' : c'.Sound :=
    ⟨hattends, heffect.tickets hc, heffect.names hc, heffect.unreturned hc⟩
  have hwaits : ∀ n r H, c.Waits n r H → c'.Waits n r H := by
    intro n r H hwaits
    have hnext := hwaits.effect hc heffect Move.noConfusion
    rwa [heard_nil, List.append_nil] at hnext
  refine ⟨by rw [heq]; rfl, by rw [heq]; rfl, hwaits, ?_⟩
  intro n r hwaiting d notes hrun hjournal header payload H hheard
  obtain ⟨hd, notes', hjournal', hshows⟩ := (hwaits n r [] hwaiting).meanwhile hc' hrun
  rw [hjournal] at hjournal'
  rw [← List.append_cancel_left hjournal', List.nil_append, hheard] at hshows
  obtain ⟨followUp, hready, _⟩ := hshows.shows.standing_message hd.tickets
  exact ⟨followUp, pollRequest_of_ready hready⟩

/-- An id under which a call awaits a message is registered. -/
theorem Awaits.registered (h : c.Awaits r) : ∃ w, c.correlator.waiters.get? r.id = some w := by
  rcases h with hw | ⟨_, _, _, _, _, hw⟩
  · exact ⟨_, hw⟩
  · exact ⟨_, hw⟩

/-- The law of requests that are not sent, over the link and over any other transport. A call
returns an error at once exactly for the reasons that are listed, and a registered id, such as one
under which another call awaits a message, comes before all others. The calls that wait are not
concerned, and unless it is the transport that refuses, it was given no frame. -/
theorem Reachable.unsent_traceless (hc : Reachable allowed c) (unused : ∀ r, (name, r) ∉ c.requests)
    (unreturned : c.returned name = []) (question : Question) (i : Option String)
    (timeout : Option Duration) :
    c.askOver Link.send name question i timeout = c.ask name question i timeout
    ∧ ∀ take : Transport, let c' := c.askOver take name question i timeout
      ((∃ w, c.correlator.waiters.get? (c.idOf i) = some w)
          ∨ (∃ n r, (n, r) ∈ c.requests ∧ c.Awaits r ∧ r.id = c.idOf i) →
        c'.returned name = [.error (.duplicateId (c.idOf i))])
      ∧ ∀ e, (c'.returned name = [.error e]
          ↔ ∃ taken link, c.Refusal take (c.idOf i) (c.payloadOf question timeout) e taken link)
        ∧ (c'.returned name = [.error e] → c.Traceless c'
          ∧ ((∀ reason, e ≠ .transport reason) →
            c'.journal = c.journal ∧ c'.session.link = c.session.link)) := by
  refine ⟨askOver_link c name question i timeout, fun take => ?_⟩
  have hreturned (e : ClientError) :
      (c.askOver take name question i timeout).returned name = [.error e]
        ↔ ∃ taken link, c.Refusal take (c.idOf i) (c.payloadOf question timeout) e taken link :=
    refusal_iff_returned hc.sound unreturned
  refine ⟨fun hheld => ?_, fun e => ⟨hreturned e, fun herror => ?_⟩⟩
  · obtain ⟨w, hw⟩ : ∃ w, c.correlator.waiters.get? (c.idOf i) = some w := by
      rcases hheld with hw | ⟨_, r, _, hawaits, hid⟩
      · exact hw
      · exact hid ▸ hawaits.registered
    exact (hreturned _).2 ⟨_, _, .registered hw⟩
  · obtain ⟨taken, link, h⟩ := (hreturned e).1 herror
    refine ⟨h.traceless hc.sound unused unreturned, fun hreason => ?_⟩
    obtain ⟨rfl, rfl⟩ := h.untaken hreason
    obtain ⟨serial, drawn, _, heq⟩ := h.askOver hc.sound name
    rw [heq]
    exact ⟨List.append_nil _, rfl⟩

/-- An event is under way under `"i"`. Another call under that id is told so and sends nothing, and
one under another id that the transport refuses is told that; the first still waits. -/
theorem Reachable.unsent_traceless_attentive :
    let again (take : Transport) (i : String) : Client :=
      attentive.askOver take "again" (.event { operations := "y" }) (some i) none
    let gone : Transport := fun _ _ => .error .serviceGone
    ∃ r, attentive.Waits "ask" r [] ∧ r.id = "i"
      ∧ (again Link.send "i").returned "again" = [.error (.duplicateId "i")]
      ∧ (again Link.send "i").Waits "ask" r []
      ∧ (again Link.send "i").journal = attentive.journal
      ∧ (again gone "j").returned "again" = [.error (.transport "peer dropped")]
      ∧ (again gone "j").Waits "ask" r []
      ∧ (again gone "j").correlator.waiters = attentive.correlator.waiters := by
  intro again gone
  have hgreeted : Reachable (fun _ _ => True) greeted := reachable_greeted fun _ _ _ => trivial
  have hask : Step (.ask "ask" (.event { operations := "x" }) (some "i") none) greeted attentive :=
    .ask _ _ _ (fun _ h => nomatch h) rfl
  have hc := hgreeted.step trivial hask
  have hnames : attentive.requests.map (·.1) = ["ask"] := by decide +kernel
  obtain ⟨⟨_, r⟩, hr, rfl⟩ := List.mem_map.1 (hnames ▸ List.mem_singleton_self "ask")
  obtain ⟨hwaits, _, hgiven, _⟩ := hask.asked hgreeted.sound hr
  have hid : r.id = "i" := hgiven "i" rfl
  have hunused : ∀ q, ("again", q) ∉ attentive.requests := by
    intro q hq
    have hname : "again" ∈ attentive.requests.map (·.1) := List.mem_map.2 ⟨_, hq, rfl⟩
    rw [hnames] at hname
    exact absurd hname (by decide)
  have hunreturned : attentive.returned "again" = [] :=
    List.eq_nil_of_length_eq_zero (by decide +kernel)
  have law (i : String) := Reachable.unsent_traceless hc hunused hunreturned
    (.event { operations := "y" }) (some i) none
  have hsame := ((law "i").2 Link.send).1 (.inr ⟨"ask", r, hr, .inl hwaits.shows, hid⟩)
  obtain ⟨htraceless, hsilent⟩ := (((law "i").2 Link.send).2 _).2 hsame
  -- The event under the free id is one frame, and that is refused.
  obtain ⟨frame, hframe⟩ : ∃ frame, attentive.session.framesOf
      (attentive.session.header "j" .event)
      (attentive.payloadOf (.event { operations := "y" }) none) = .ok [frame] := by
    exact ⟨_, rfl⟩
  have hfree : attentive.correlator.waiters.get? "j" = none := by decide +kernel
  have hphase : attentive.session.phase = .loggedIn := by decide +kernel
  have hrefusal : attentive.Refusal gone "j" (attentive.payloadOf (.event { operations := "y" }) none)
      (.transport "peer dropped") [] attentive.session.link :=
    .refused (e := .serviceGone) hfree hphase hframe rfl rfl
  have hother := ((((law "j").2 gone).2 _).1).2 ⟨_, _, hrefusal⟩
  obtain ⟨hspared, _⟩ := (((law "j").2 gone).2 _).2 hother
  exact ⟨r, hwaits, hid, hsame, htraceless.waits _ _ _ hwaits, (hsilent (fun _ => nofun)).1, hother,
    hspared.waits _ _ _ hwaits, hspared.waiters⟩

end Client

end DataGateway

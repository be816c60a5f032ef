import DataGateway.Proofs.Client.Requests
import DataGateway.Proofs.Correlator.Receiving
import DataGateway.Proofs.Session.Lifecycle

/-!
# Runs of a client

A client changes in steps: a call has its turn or goes on, the session takes a signal, time passes.
Any request that can go on may be the next to do so, and signals may be of any kind and come at any
time, so a run stands for whatever order a scheduler and a service choose; that order in which
`settle` brings a client to rest is one of them. Every call has a name of its own.

`Step.effect` says once what a step can amount to for the requests and for the correlator, with what
the session notes meanwhile. The invariant `Sound` is kept by it: the tickets are in order, and
while nobody is logged in, none waits.
-/

namespace DataGateway

namespace Client

/-- What the request of a name has returned. -/
def returned (c : Client) (name : String) : List (Except ClientError Outcome) :=
  c.endings.filterMap fun
    | (n, .requested r) => if n = name then some r else none
    | _ => none

/-- What can happen to a client in one step. -/
inductive Move
  | call (name : String) (turn : Turn)
  /-- The next call that connects or closes has its turn. -/
  | turn
  /-- The call that awaits a login ends. -/
  | login
  | signal (x : Signal)
  | ask (name : String) (question : Question) (id : Option String) (timeout : Option Duration)
  /-- The request of a name goes on. -/
  | resume (name : String)
  | advance (ticks : Nat)
  /-- The link and the session's clock come to be these. -/
  | outside (link : Link) (time : Int64)

/-- One step of a client. -/
inductive Step : Move → Client → Client → Prop
  | call {c : Client} (name : String) (turn : Turn) : Step (.call name turn) c (c.call name turn)
  | turn {c c' : Client} (next : c.nextTurn = some c') : Step .turn c c'
  | login {c c' : Client} (poll : c.pollLogin = some c') : Step .login c c'
  | signal {c : Client} (x : Signal) : Step (.signal x) c (c.withSession (c.session.handle x))
  | ask {c : Client} {name : String} (question : Question) (id : Option String)
      (timeout : Option Duration) (unused : ∀ r, (name, r) ∉ c.requests)
      (unreturned : c.returned name = []) :
      Step (.ask name question id timeout) c (c.ask name question id timeout)
  | returned {c d : Client} {name : String} {r : Request} {before after : List (String × Request)}
      {result : Except ClientError Outcome} (requests : c.requests = before ++ (name, r) :: after)
      (poll : c.pollRequest r = some (.inl result, d)) :
      Step (.resume name) c
        ({ d with requests := before ++ after }.ended name (.requested result))
  | kept {c d : Client} {name : String} {r r' : Request} {before after : List (String × Request)}
      (requests : c.requests = before ++ (name, r) :: after)
      (poll : c.pollRequest r = some (.inr r', d)) :
      Step (.resume name) c { d with requests := before ++ (name, r') :: after }
  | advance {c : Client} (ticks : Nat) : Step (.advance ticks) c (c.advance ticks)
  | outside {c : Client} (link : Link) (time : Int64) :
      Step (.outside link time) c { c with session := { c.session with link, time } }

/-- A new client. -/
def fresh (config : Config) (link : Link) (fallback : Option Listener) : Client :=
  { session := { config, link }, correlator := { fallback } }

/-- The clients that a new one comes to be when every step is one of those allowed. -/
inductive Reachable (allowed : Move → Client → Prop) : Client → Prop
  | fresh (config : Config) (link : Link) (fallback : Option Listener) :
      Reachable allowed (fresh config link fallback)
  | step {c c' : Client} {m : Move} (hc : Reachable allowed c) (hm : allowed m c)
      (h : Step m c c') : Reachable allowed c'

variable {c c' d : Client} {m : Move}

/-! ### What is heeded -/

theorem heed_sound {k : Correlator} {roots : List Nat} (hk : k.Sound roots) (n : Note) :
    (heed k n).Sound roots := by
  cases n with
  | received header payload => exact hk.receive header payload
  | ended => exact hk.of_waiters rfl le_rfl fun _ _ h => nomatch h
  | published | sent | closed => exact hk

theorem foldl_heed_sound {k : Correlator} {roots : List Nat} (hk : k.Sound roots)
    (notes : List Note) : (notes.foldl heed k).Sound roots := by
  induction notes generalizing k with
  | nil => exact hk
  | cons n notes ih => exact ih (heed_sound hk n)

/-- While nobody is logged in, nothing waits: what ends a login that was there ends the waiting. -/
theorem quiet_of_step {m : Session.Move} {s s' : Session} (hs : s.Sound) (h : Session.Step m s s')
    (hjournal : s.journal = []) {k : Correlator}
    (hk : s.phase ≠ .loggedIn → k.waiters = .empty) (hphase : s'.phase ≠ .loggedIn) :
    (s'.journal.foldl heed k).waiters = .empty := by
  obtain ⟨notes, heffect, _, hnotes, _⟩ := h.effect
  rw [hnotes, hjournal, List.nil_append]
  have hhand (hhand : s.phase.isHandshaking) : k.waiters = .empty := by
    apply hk
    intro heq
    rw [heq] at hhand
    cases hhand
  have hunused (hunused : s.used = false) : k.waiters = .empty := by
    apply hk
    rw [hs.unused hunused]
    decide
  cases heffect with
  | none hsame _ => exact hk (hsame ▸ hphase)
  | sent _ hphase' _ => exact absurd hphase' hphase
  | begun hu _ _ | refused hu _ _ _ => exact hunused hu
  | expired hawaited _ _ => exact hhand (hs.isHandshaking hawaited)
  | ended _ _ _ => rfl
  | abandoned hhandshaking _ _ => exact hhand hhandshaking
  | reacted hreaction =>
      cases hreaction with
      | idle hsame _ => exact hk (hsame ▸ hphase)
      | received _ _ hphase' _ | accepted _ _ _ _ hphase' _ => exact absurd hphase' hphase
      | introduced hconnecting _ _ _ =>
          apply hhand
          rw [hconnecting]
          rfl
      | failed hhandshaking hnotes _ _ =>
          rcases hnotes with rfl | rfl <;> exact hhand hhandshaking
      | ended _ _ _ => rfl

/-! ### The invariant -/

/-- What a client keeps beside its session agrees with it. -/
structure Attends (c : Client) : Prop where
  session : c.session.Sound
  journal : c.session.journal = []
  quiet : c.session.phase ≠ .loggedIn → c.correlator.waiters = .empty
  turn : c.connecting = none ↔ c.session.login = .idle

/-- The parts of a client agree with each other. -/
structure Sound (c : Client) : Prop extends Attends c where
  tickets : c.correlator.Sound (c.requests.map (·.2.ticket))
  names : (c.requests.map (·.1)).Nodup
  unreturned : ∀ {name r}, (name, r) ∈ c.requests → c.returned name = []

theorem sound_fresh (config : Config) (link : Link) (fallback : Option Listener) :
    (fresh config link fallback).Sound where
  session := (Session.Reachable.new config link 1600000000000 0).sound
  journal := rfl
  quiet _ := rfl
  turn := by simp [fresh]
  tickets := Correlator.sound_new fallback
  names := List.nodup_nil
  unreturned h := nomatch h

theorem Attends.withSession (hc : c.Attends) {m : Session.Move} {s : Session}
    (h : Session.Step m c.session s) {connecting : Option (String × Nat)}
    (hturn : connecting = none ↔ s.login = .idle) :
    Attends { c.withSession s with connecting } where
  session := { h.sound hc.session with }
  journal := rfl
  quiet := quiet_of_step hc.session h hc.journal hc.quiet
  turn := hturn

/-- A change that leaves the phase and the login as they were. -/
theorem Attends.of_session (hc : c.Attends) (link : Link) (time : Int64) (serial : Nat)
    (hsession : c'.session = { c.session with link, time, serial })
    (hconnecting : c'.connecting = c.connecting)
    (hquiet : c.session.phase ≠ .loggedIn → c'.correlator.waiters = .empty) : c'.Attends := by
  constructor
  · rw [hsession]
    exact { hc.session with }
  · rw [hsession]
    exact hc.journal
  · rw [hsession]
    exact hquiet
  · rw [hsession, hconnecting]
    exact hc.turn

@[simp] theorem returned_requested (c : Client) (name n : String)
    (r : Except ClientError Outcome) :
    (c.ended name (.requested r)).returned n = c.returned n ++ if name = n then [r] else [] := by
  by_cases h : name = n <;> simp [returned, ended, h]

/-- A call that ends for the first time has returned this and nothing else. -/
theorem returned_requested_self {name : String} (unreturned : c.returned name = [])
    (r : Except ClientError Outcome) : (c.ended name (.requested r)).returned name = [r] := by
  rw [returned_requested, if_pos rfl, unreturned]
  rfl

@[simp] theorem returned_connected (c : Client) (name n : String)
    (r : Except ClientError ConnectionAck) :
    (c.ended name (.connected r)).returned n = c.returned n := by
  simp [returned, ended]

@[simp] theorem returned_closed (c : Client) (name n : String) :
    (c.ended name .closed).returned n = c.returned n := by
  simp [returned, ended]

/-! ### Turns -/

theorem connect_login {s : Session} (h : s.login = .idle) :
    (∃ s', s.connect = (.ok (), s') ∧ s'.login = .awaited)
      ∨ ∃ e s', s.connect = (.error e, s') ∧ s'.login = .idle := by
  rcases s.connect_eq with ⟨_, heq⟩ | ⟨_, e, _, heq⟩ | ⟨_, _, link, heq⟩
    | ⟨_, _, link, failure, _, heq⟩
  · exact .inr ⟨_, _, heq, h⟩
  · exact .inr ⟨_, _, heq, h⟩
  · exact .inl ⟨_, heq, rfl⟩
  · exact .inr ⟨_, _, heq, rfl⟩

theorem close_login {s : Session} (h : s.login = .idle) : s.close.login = .idle := by
  by_cases hphase : s.phase = .loggedIn
  · exact (Session.close_of_loggedIn hphase).2.1.trans h
  · by_cases hhand : s.phase.isHandshaking
    · exact (Session.close_of_handshaking hhand).2.1.2.2 h
    · exact (Session.close_of_other hphase hhand).2.1.trans h

theorem close_phase (s : Session) : s.close.phase ≠ .loggedIn := by
  by_cases hphase : s.phase = .loggedIn
  · rw [(Session.close_of_loggedIn hphase).1]
    decide
  · by_cases hhand : s.phase.isHandshaking
    · rw [(Session.close_of_handshaking hhand).1]
      decide
    · rw [(Session.close_of_other hphase hhand).1]
      exact hphase

/-! ### What a step amounts to -/

/-- Requests are concerned only by what the session notes. -/
structure Heeds (c : Client) (notes : List Note) (c' : Client) : Prop where
  requests : c'.requests = c.requests
  returned : ∀ name, c'.returned name = c.returned name
  correlator : c'.correlator = notes.foldl heed c.correlator
  journal : c'.journal = c.journal ++ notes

/-- The step is none of a request. -/
def Move.IsOuter : Move → Prop
  | .ask .. | .resume _ => False
  | _ => True

/-- What a step of a client can amount to for its requests, with what the session notes. -/
inductive Effect (c : Client) : Move → List Note → Client → Prop
  | heeded {m : Move} {notes : List Note} {c' : Client} (outer : m.IsOuter)
      (heeds : c.Heeds notes c') : Effect c m notes c'
  | refused {name : String} {question : Question} {id : Option String}
      {timeout : Option Duration} {e : ClientError} {drawn : Nat} {c' : Client}
      (unused : ∀ r, (name, r) ∉ c.requests) (unreturned : c.returned name = [])
      (le : c.correlator.drawn ≤ drawn) (correlator : c'.correlator = { c.correlator with drawn })
      (requests : c'.requests = c.requests)
      (returned : ∀ n, c'.returned n = c.returned n ++ if name = n then [.error e] else []) :
      Effect c (.ask name question id timeout) [] c'
  | asked {name : String} {question : Question} {id : Option String}
      {timeout : Option Duration} {r : Request} {frames : List Bytes} {c' : Client}
      (unused : ∀ r, (name, r) ∉ c.requests) (unreturned : c.returned name = [])
      (given : ∀ i ∈ id, r.id = i) (ticket : r.ticket = c.correlator.drawn)
      (deadline : r.deadline
        = c.now + timeoutTicks (timeout.getD c.session.config.requestTimeout))
      (stage : r.stage = question.stage) (free : c.correlator.waiters.get? r.id = none)
      (loggedIn : c.session.phase = .loggedIn)
      (correlator : c'.correlator = { c.correlator with
        waiters := c.correlator.waiters.insert r.id { ticket := c.correlator.drawn }
        drawn := c.correlator.drawn + 1 })
      (requests : c'.requests = c.requests ++ [(name, r)])
      (returned : ∀ n, c'.returned n = c.returned n) :
      Effect c (.ask name question id timeout) (frames.map .sent) c'
  | resumed {name : String} {r : Request} {before after : List (String × Request)}
      {out : Except ClientError Outcome ⊕ Request} {frames : List Bytes} {d c' : Client}
      (requests : c.requests = before ++ (name, r) :: after)
      (poll : c.pollRequest r = some (out, d))
      (goes : c.Goes r out frames d) (correlator : c'.correlator = d.correlator)
      (requests' : c'.requests = before ++ (out.getRight?.map (name, ·)).toList ++ after)
      (returned : ∀ n,
        c'.returned n = c.returned n ++ if name = n then out.getLeft?.toList else []) :
      Effect c (.resume name) (frames.map .sent) c'

theorem nextTurn_heeds (hc : c.Attends) (h : c.nextTurn = some c') :
    c'.Attends ∧ ∃ notes, c.Heeds notes c' := by
  unfold nextTurn at h
  split at h
  · rename_i name turn queue hconnecting hqueue
    obtain rfl := Option.some.inj h
    have hidle := hc.turn.1 hconnecting
    have hqueued : ({ c with queue } : Client).Attends := { hc with }
    cases turn with
    | connect =>
        have hstep := Session.Step.connect hidle
        unfold begin
        dsimp only
        rcases connect_login hidle with ⟨s, heq, hlogin⟩ | ⟨e, s, heq, hlogin⟩
        · rw [heq] at hstep ⊢
          refine ⟨hqueued.withSession hstep ?_, s.journal, rfl, fun _ => rfl, rfl, rfl⟩
          simp [hlogin]
        · rw [heq] at hstep ⊢
          have hattends : (({ c with queue } : Client).withSession s).Attends :=
            hqueued.withSession hstep (by simp [hconnecting, hlogin])
          exact ⟨{ hattends with }, s.journal, rfl,
            fun n => returned_connected _ name n (.error e), rfl, rfl⟩
    | close =>
        have hstep := Session.Step.close hidle
        have hempty := quiet_of_step hc.session hstep hc.journal hc.quiet (close_phase _)
        have hattends : (({ c with queue } : Client).withSession c.session.close).Attends :=
          hqueued.withSession hstep (by simp [hconnecting, close_login hidle])
        refine ⟨{ hattends with quiet := fun _ => rfl }, c.session.close.journal, rfl,
          fun n => returned_closed _ name n, ?_, rfl⟩
        show Correlator.clear _ = _
        unfold Correlator.clear
        rw [← hempty]
        rfl
  · cases h

theorem outcome_eq_none {s : Session} (h : s.outcome = none) (hlogin : s.login ≠ .idle) :
    s.login = .awaited := by
  unfold Session.outcome at h
  cases hs : s.login with
  | idle => exact absurd hs hlogin
  | awaited => rfl
  | settled outcome =>
      rw [hs] at h
      cases outcome with
      | ok | error => cases h

theorem outcome_login {s s' : Session} {r : Except ClientError ConnectionAck}
    (h : s.outcome = some (r, s')) : s'.login = .idle := by
  unfold Session.outcome at h
  split at h
  · cases h
    rfl
  · cases h
    rfl
  · cases h

theorem pollLogin_heeds (hc : c.Attends) (h : c.pollLogin = some c') :
    c'.Attends ∧ ∃ notes, c.Heeds notes c' := by
  unfold pollLogin at h
  obtain ⟨⟨name, deadline⟩, hconnecting, h⟩ := Option.bind_eq_some_iff.1 h
  have hlogin : c.session.login ≠ .idle := by
    intro hidle
    rw [hc.turn.2 hidle] at hconnecting
    cases hconnecting
  dsimp only at h
  split at h
  · rename_i r s houtcome
    obtain rfl := Option.some.inj h
    have hattends : Attends { c.withSession s with connecting := none } :=
      hc.withSession (.collect houtcome) (by simp [outcome_login houtcome])
    exact ⟨{ hattends with }, s.journal, rfl, fun n => returned_connected _ name n r, rfl, rfl⟩
  · rename_i houtcome
    split at h
    · obtain rfl := Option.some.inj h
      have hattends : Attends { c.withSession c.session.expire.2 with connecting := none } :=
        hc.withSession (.expire (outcome_eq_none houtcome hlogin)) (by simp [Session.expire])
      exact ⟨{ hattends with }, c.session.expire.2.journal, rfl,
        fun n => returned_connected _ name n _, rfl, rfl⟩
    · cases h

/-- The id of a request that is given one, or is not. -/
def idOf (c : Client) (id : Option String) : String := id.getD (Uuid.ofSerial c.session.serial)

/-- Asking under a given id, or one that is made up, is dispatching under it. -/
theorem ask_eq (c : Client) (name : String) (question : Question) (id : Option String)
    (timeout : Option Duration) : ∃ serial, c.ask name question id timeout
      = match ({ c with session.serial := serial } : Client).dispatch (c.idOf id)
            (c.now + timeoutTicks (timeout.getD c.session.config.requestTimeout)) question.stage
            (question.payload (timeout.getD c.session.config.requestTimeout)) with
        | (.ok request, c) => { c with requests := c.requests ++ [(name, request)] }
        | (.error e, c) => c.ended name (.requested (.error e)) := by
  cases id with
  | some i => exact ⟨c.session.serial, rfl⟩
  | none => exact ⟨c.session.serial + 1, rfl⟩

/-- What a question asks for while it waits, under the next ticket. -/
def requestOf (c : Client) (question : Question) (id : Option String) (timeout : Option Duration) :
    Request where
  id := c.idOf id
  ticket := c.correlator.drawn
  deadline := c.now + timeoutTicks (timeout.getD c.session.config.requestTimeout)
  stage := question.stage

/-- A question goes out under an id that was free and its call waits, or the call ends at once and
all that happens is that tickets and an id are drawn. -/
theorem ask_cases (hc : c.Sound) (name : String) (question : Question) (id : Option String)
    (timeout : Option Duration) :
    let payload := question.payload (timeout.getD c.session.config.requestTimeout)
    (c.session.phase = .loggedIn ∧ c.correlator.waiters.get? (c.idOf id) = none
      ∧ ∃ serial frames link,
        c.session.framesOf (c.session.header (c.idOf id) payload.type) payload = .ok frames
        ∧ c.ask name question id timeout
          = { { c with
                session.serial := serial
                correlator.waiters :=
                  c.correlator.waiters.insert (c.idOf id) { ticket := c.correlator.drawn }
                correlator.drawn := c.correlator.drawn + 1 }.sent frames link with
              requests := c.requests ++ [(name, c.requestOf question id timeout)] })
    ∨ ∃ e serial drawn, c.correlator.drawn ≤ drawn ∧ c.ask name question id timeout
      = { c with session.serial := serial, correlator.drawn := drawn }.ended name
          (.requested (.error e)) := by
  obtain ⟨serial, heq⟩ := ask_eq c name question id timeout
  rcases dispatch_eq (c := { c with session.serial := serial }) hc.journal hc.tickets (c.idOf id)
    (c.now + timeoutTicks (timeout.getD c.session.config.requestTimeout)) question.stage
    (question.payload (timeout.getD c.session.config.requestTimeout)) with
    ⟨hphase, hfree, frames, link, hframes, hok⟩ | ⟨e, drawn, hle, herror⟩
  · rw [hok] at heq
    exact .inl ⟨hphase, hfree, serial, frames, link, hframes, heq⟩
  · rw [herror] at heq
    exact .inr ⟨e, serial, drawn, hle, heq⟩

theorem ask_effect (hc : c.Sound) {name : String} (question : Question) (id : Option String)
    (timeout : Option Duration) (unused : ∀ r, (name, r) ∉ c.requests)
    (unreturned : c.returned name = []) :
    (c.ask name question id timeout).Attends
      ∧ ∃ notes, c.Effect (.ask name question id timeout) notes (c.ask name question id timeout)
        ∧ (c.ask name question id timeout).journal = c.journal ++ notes := by
  rcases ask_cases hc name question id timeout with
    ⟨hphase, hfree, serial, frames, link, _, heq⟩ | ⟨e, serial, drawn, hle, heq⟩
  · rw [heq]
    have hgiven : ∀ i ∈ id, (c.requestOf question id timeout).id = i := by
      rintro i ⟨⟩
      rfl
    refine ⟨?_, frames.map .sent, ?_, rfl⟩
    · exact hc.of_session link c.session.time serial rfl rfl fun h => absurd hphase h
    · exact .asked unused unreturned hgiven rfl rfl rfl hfree hphase rfl rfl fun _ => rfl
  · rw [heq]
    refine ⟨?_, [], ?_, (List.append_nil _).symm⟩
    · exact hc.of_session c.session.link c.session.time serial rfl rfl hc.quiet
    · exact .refused unused unreturned hle rfl rfl fun n =>
        returned_requested _ name n (.error e)

/-- The tickets that requests hold. -/
theorem tickets_split {before after : List (String × Request)} {name : String} {r : Request}
    (h : c.requests = before ++ (name, r) :: after) :
    c.requests.map (·.2.ticket)
      = before.map (·.2.ticket) ++ r.ticket :: after.map (·.2.ticket) := by
  rw [h, List.map_append, List.map_cons]

theorem resume_effect (hc : c.Sound) {name : String} {r : Request}
    {before after : List (String × Request)} {out : Except ClientError Outcome ⊕ Request}
    (requests : c.requests = before ++ (name, r) :: after)
    (poll : c.pollRequest r = some (out, d)) (correlator : c'.correlator = d.correlator)
    (session : c'.session = d.session) (connecting : c'.connecting = d.connecting)
    (requests' : c'.requests = before ++ (out.getRight?.map (name, ·)).toList ++ after)
    (returned : ∀ n, c'.returned n = d.returned n ++ if name = n then out.getLeft?.toList else [])
    (journal : c'.journal = d.journal) :
    c'.Attends ∧ ∃ notes, c.Effect (.resume name) notes c' ∧ c'.journal = c.journal ++ notes := by
  obtain ⟨frames, hgoes⟩ := pollRequest_goes hc.journal hc.tickets poll
  obtain ⟨link, k, hd⟩ := hgoes.client
  refine ⟨?_, frames.map .sent, ?_, ?_⟩
  · refine hc.of_session link c.session.time c.session.serial ?_ ?_ fun hphase => ?_
    · rw [session, hd]; rfl
    · rw [connecting, hd]; rfl
    · apply Dict.ext_get?
      intro i
      have htickets := hc.tickets
      rw [tickets_split requests] at htickets
      cases hw : c'.correlator.waiters.get? i with
      | none => rfl
      | some w =>
          rw [correlator] at hw
          obtain ⟨v, hv⟩ := hgoes.resumed.registered htickets hw
          rw [hc.quiet hphase] at hv
          cases hv
  · refine .resumed requests poll hgoes correlator requests' fun n => ?_
    rw [returned, hd]
    rfl
  · rw [journal, hd]
    rfl

/-- A step amounts to one of the effects. -/
theorem Step.effect (hc : c.Sound) (h : Step m c c') :
    c'.Attends ∧ ∃ notes, c.Effect m notes c' ∧ c'.journal = c.journal ++ notes := by
  have quiet (outer : m.IsOuter) (hd : c'.Attends ∧ ∃ notes, c.Heeds notes c') :
      c'.Attends ∧ ∃ notes, c.Effect m notes c' ∧ c'.journal = c.journal ++ notes := by
    obtain ⟨hattends, notes, hheeds⟩ := hd
    exact ⟨hattends, notes, .heeded outer hheeds, hheeds.journal⟩
  have same (outer : m.IsOuter) (hattends : c'.Attends)
      (hrequests : c'.requests = c.requests)
      (hreturned : ∀ name, c'.returned name = c.returned name)
      (hcorrelator : c'.correlator = c.correlator) (hjournal : c'.journal = c.journal) :
      c'.Attends ∧ ∃ notes, c.Effect m notes c' ∧ c'.journal = c.journal ++ notes :=
    quiet outer ⟨hattends, [], hrequests, hreturned, hcorrelator,
      hjournal.trans (List.append_nil _).symm⟩
  cases h with
  | call name turn =>
      exact same trivial { hc with } rfl (fun _ => rfl) rfl rfl
  | turn next => exact quiet trivial (nextTurn_heeds hc.toAttends next)
  | login poll => exact quiet trivial (pollLogin_heeds hc.toAttends poll)
  | signal x =>
      obtain ⟨notes, hreaction, _⟩ := Session.handle_reacts c.session x
      have hattends : (c.withSession (c.session.handle x)).Attends :=
        hc.withSession (.signal x) (hc.turn.trans hreaction.idle_iff.symm)
      exact quiet trivial
        ⟨hattends, (c.session.handle x).journal, rfl, fun _ => rfl, rfl, rfl⟩
  | ask question id timeout unused unreturned =>
      exact ask_effect hc question id timeout unused unreturned
  | returned requests poll =>
      refine resume_effect hc requests poll rfl rfl rfl ?_ (fun n => ?_) rfl
      · show _ = _ ++ [] ++ _
        rw [List.append_nil]
        rfl
      · exact returned_requested _ _ n _
  | kept requests poll =>
      refine resume_effect hc requests poll rfl rfl rfl ?_ (fun n => ?_) rfl
      · show _ = _ ++ [_] ++ _
        rw [List.append_assoc, List.singleton_append]
      · show _ = _ ++ if _ then [] else []
        rw [ite_self, List.append_nil]
        rfl
  | advance ticks =>
      exact same trivial { hc with } rfl (fun _ => rfl) rfl rfl
  | outside link time =>
      refine same trivial ?_ rfl (fun _ => rfl) rfl rfl
      exact hc.of_session link time c.session.serial rfl rfl hc.quiet

/-- What a step amounts to, given what the session notes. -/
theorem Step.effect_of_journal (h : Step m c c') (hc : c.Sound) {notes : List Note}
    (journal : c'.journal = c.journal ++ notes) : c.Effect m notes c' := by
  obtain ⟨_, notes', heffect, hjournal⟩ := h.effect hc
  rw [List.append_cancel_left (hjournal.symm.trans journal)] at heffect
  exact heffect

/-! ### Every step keeps the invariant -/

theorem Effect.tickets {notes : List Note} (h : c.Effect m notes c') (hc : c.Sound) :
    c'.correlator.Sound (c'.requests.map (·.2.ticket)) := by
  cases h with
  | heeded _ heeds =>
      rw [heeds.correlator, heeds.requests]
      exact foldl_heed_sound hc.tickets notes
  | refused _ _ le correlator requests _ =>
      rw [correlator, requests]
      exact hc.tickets.of_waiters rfl le fun _ _ h => h
  | asked _ _ _ ticket _ _ _ _ correlator requests _ =>
      rw [correlator, requests, List.map_append, List.map_singleton, ticket]
      exact hc.tickets.register _
  | @resumed name r before after out frames d c' requests poll goes correlator requests' _ =>
      have htickets := hc.tickets
      rw [tickets_split requests] at htickets
      rw [correlator, requests']
      have hsound := goes.resumed.sound htickets
      cases out with
      | inl result => simpa using hsound
      | inr r' => simpa using hsound

/-- The requests beside one of them. -/
theorem mem_split {before after : List (String × Request)} {name : String} {r : Request}
    (h : c.requests = before ++ (name, r) :: after) {entry : String × Request} :
    entry ∈ c.requests ↔ entry = (name, r) ∨ entry ∈ before ++ after := by
  rw [h]
  simp only [List.mem_append, List.mem_cons]
  tauto

theorem Sound.ne_of_split (hc : c.Sound) {before after : List (String × Request)} {name n : String}
    {r q : Request} (h : c.requests = before ++ (name, r) :: after)
    (hq : (n, q) ∈ before ++ after) : name ≠ n := by
  have hnames := hc.names
  rw [h, List.map_append, List.map_cons] at hnames
  have hfresh := (List.nodup_cons.1 (List.nodup_middle.1 hnames)).1
  rintro rfl
  apply hfresh
  rw [← List.map_append]
  exact List.mem_map.2 ⟨(name, q), hq, rfl⟩

/-- Names stay apart. -/
theorem Effect.names {notes : List Note} (h : c.Effect m notes c') (hc : c.Sound) :
    (c'.requests.map (·.1)).Nodup := by
  cases h with
  | heeded _ heeds =>
      rw [heeds.requests]
      exact hc.names
  | refused _ _ _ _ requests _ =>
      rw [requests]
      exact hc.names
  | asked unused _ _ _ _ _ _ _ _ requests _ =>
      rw [requests, List.map_append]
      refine List.nodup_append.2 ⟨hc.names, List.nodup_singleton _, ?_⟩
      intro n hn n' hn' heq
      obtain ⟨⟨m, q⟩, hq, hm⟩ := List.mem_map.1 hn
      rw [List.mem_singleton.1 hn', ← hm] at heq
      subst heq
      exact unused q hq
  | @resumed _ _ before after out _ _ _ requests _ _ _ requests' _ =>
      have hnames := hc.names
      rw [requests, List.map_append, List.map_cons] at hnames
      rw [requests']
      cases out with
      | inl => simpa using (List.nodup_cons.1 (List.nodup_middle.1 hnames)).2
      | inr => simpa using hnames

/-- A request that waits has returned nothing. -/
theorem Effect.unreturned {notes : List Note} (h : c.Effect m notes c') (hc : c.Sound)
    {n : String} {q : Request} (hq : (n, q) ∈ c'.requests) : c'.returned n = [] := by
  cases h with
  | heeded _ heeds =>
      rw [heeds.requests] at hq
      exact (heeds.returned _).trans (hc.unreturned hq)
  | @refused name _ _ _ _ _ _ unused _ _ _ requests returned =>
      rw [requests] at hq
      have hne : name ≠ n := by
        rintro rfl
        exact unused q hq
      rw [returned, if_neg hne, List.append_nil]
      exact hc.unreturned hq
  | asked _ unreturned _ _ _ _ _ _ _ requests returned =>
      rw [returned]
      rw [requests] at hq
      rcases List.mem_append.1 hq with hq | hq
      · exact hc.unreturned hq
      · cases List.mem_singleton.1 hq
        exact unreturned
  | @resumed name r before after out _ _ _ requests _ _ _ requests' returned =>
      rw [requests'] at hq
      rw [returned]
      cases out with
      | inl result =>
          have hq : (n, q) ∈ before ++ after := by simpa using hq
          rw [if_neg (hc.ne_of_split requests hq), List.append_nil]
          exact hc.unreturned ((mem_split requests).2 (.inr hq))
      | inr r' =>
          rw [Sum.getLeft?_inr, Option.toList_none, ite_self, List.append_nil]
          simp only [Sum.getRight?_inr, Option.map_some, Option.toList_some, List.mem_append,
            List.mem_singleton] at hq
          rcases hq with (hq | heq) | hq
          · exact hc.unreturned ((mem_split requests).2 (.inr (List.mem_append_left _ hq)))
          · cases heq
            exact hc.unreturned ((mem_split requests).2 (.inl rfl))
          · exact hc.unreturned ((mem_split requests).2 (.inr (List.mem_append_right _ hq)))

/-- Every step keeps the invariant. -/
theorem Step.sound (hc : c.Sound) (h : Step m c c') : c'.Sound := by
  obtain ⟨hattends, notes, heffect, _⟩ := h.effect hc
  exact ⟨hattends, heffect.tickets hc, heffect.names hc, heffect.unreturned hc⟩

theorem Reachable.mono {allowed allowed' : Move → Client → Prop} (hc : Reachable allowed c)
    (h : ∀ m c, allowed m c → allowed' m c) : Reachable allowed' c := by
  induction hc with
  | fresh config link fallback => exact .fresh config link fallback
  | step _ hm hstep ih => exact ih.step (h _ _ hm) hstep

theorem Reachable.sound {allowed : Move → Client → Prop} (hc : Reachable allowed c) : c.Sound := by
  induction hc with
  | fresh config link fallback => exact sound_fresh config link fallback
  | step _ _ h ih => exact h.sound ih

/-! ### The order in which a client comes to rest -/

/-- The next request to go on does so. -/
theorem Step.of_pollFrom {before requests : List (String × Request)}
    (hrequests : c.requests = before ++ requests) (h : c.pollFrom before requests = some c') :
    ∃ name r, (name, r) ∈ c.requests ∧ Step (.resume name) c c' := by
  induction requests generalizing before with
  | nil => cases h
  | cons e rest ih =>
      obtain ⟨name, r⟩ := e
      have hr : (name, r) ∈ c.requests := by
        rw [hrequests]
        simp
      unfold pollFrom at h
      split at h
      · apply ih _ h
        rw [hrequests, List.append_assoc, List.singleton_append]
      · rename_i hpoll
        cases h
        exact ⟨name, r, hr, .returned hrequests hpoll⟩
      · rename_i hpoll
        cases h
        exact ⟨name, r, hr, .kept hrequests hpoll⟩

/-- Steps towards rest are steps of the client. -/
theorem Reachable.of_step? {allowed : Move → Client → Prop} (hc : Reachable allowed c)
    (hallowed : ∀ m c, (m.IsOuter ∨ ∃ name, m = .resume name) → allowed m c)
    (h : c.step? = some c') : Reachable allowed c' := by
  have outer {m : Move} {c c' : Client} (hc : Reachable allowed c) (hstep : Step m c c')
      (hm : m.IsOuter) : Reachable allowed c' := hc.step (hallowed m c (.inl hm)) hstep
  unfold step? at h
  simp only [Option.orElse_eq_orElse, Option.orElse_eq_or, Option.or_eq_some_iff] at h
  rcases h with h | ⟨_, h | ⟨_, h | ⟨_, h⟩⟩⟩
  · obtain ⟨s, hs, rfl⟩ := Option.map_eq_some_iff.1 h
    obtain ⟨⟨x, link⟩, _, rfl⟩ := Option.map_eq_some_iff.1 hs
    exact outer (outer hc (.outside link c.session.time) trivial) (.signal x) trivial
  · exact outer hc (.login h) trivial
  · obtain ⟨name, _, _, hstep⟩ := Step.of_pollFrom rfl h
    exact hc.step (hallowed _ _ (.inr ⟨name, rfl⟩)) hstep
  · exact outer hc (.turn h) trivial

theorem Reachable.settle {allowed : Move → Client → Prop} (hc : Reachable allowed c)
    (hallowed : ∀ m c, (m.IsOuter ∨ ∃ name, m = .resume name) → allowed m c) :
    Reachable allowed c.settle := by
  have within (fuel : Nat) {c : Client} (hc : Reachable allowed c) :
      Reachable allowed (settleWithin fuel c) := by
    induction fuel generalizing c with
    | zero => exact hc
    | succ fuel ih =>
        unfold settleWithin
        split
        · rename_i hstep
          exact ih (hc.of_step? hallowed hstep)
        · exact hc
  exact within _ hc

/-- A new client whose call to connect has led to a login. -/
def welcomed : Client :=
  let c := ({ fresh {} {} none with queue := [] } : Client).begin "connect" .connect
  let c := c.withSession (c.session.handle .opened)
  let c := c.withSession (c.session.handle (.binary Session.greeting))
  (c.onLink Link.drain).2

/-- The call has returned. -/
def greeted : Client := welcomed.pollLogin.getD welcomed

theorem reachable_greeted {allowed : Move → Client → Prop}
    (h : ∀ m c, m.IsOuter → allowed m c) : Reachable allowed greeted := by
  have outer {m : Move} {c c' : Client} (hc : Reachable allowed c) (hstep : Step m c c')
      (hm : m.IsOuter) : Reachable allowed c' := hc.step (h m c hm) hstep
  have hqueued := outer (.fresh {} {} none) (.call "connect" .connect) trivial
  have hopened := outer (outer hqueued (.turn rfl) trivial) (.signal .opened) trivial
  have hanswered := outer hopened (.signal (.binary Session.greeting)) trivial
  have hwelcomed : Reachable allowed welcomed := outer hanswered (.outside _ _) trivial
  obtain ⟨c, hc⟩ : ∃ c, welcomed.pollLogin = some c := by
    rw [← Option.isSome_iff_exists]
    decide +kernel
  have hgreeted : greeted = c := by
    rw [greeted, hc]
    rfl
  rw [hgreeted]
  exact outer hwelcomed (.login hc) trivial

/-- A client that has sent an event and waits. -/
def attentive : Client := greeted.ask "ask" (.event { operations := "x" }) (some "i") none

/-- The frame that answers the event. -/
def eventReply : Bytes :=
  let ack : EventAck := .done
  (Message.encode (attentive.session.header "i" .eventAck) ⟨.eventAck, ack⟩).toOption.getD []

/-- A client that has asked for an attachment and waits. -/
def curious : Client := greeted.ask "ask" (.attachment { request := "x" }) (some "i") none

/-- The frame that announces the attachment. -/
def announcement : Bytes :=
  let ack : AttachmentRequestAck := .withBody .ok { status := .ok }
  let header := curious.session.header "i" .attachmentRequestAck
  (Message.encode header ⟨.attachmentRequestAck, ack⟩).toOption.getD []

/-- A frame comes. -/
def incoming (c : Client) (frame : Bytes) : Client :=
  c.withSession (c.session.handle (.binary frame))

/-- The next request goes on, if one can. -/
def resumption (c : Client) : Client := (c.pollFrom [] c.requests).getD c

end Client

end DataGateway

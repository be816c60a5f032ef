import DataGateway.Proofs.Client.Calls
import DataGateway.Proofs.Session.Dispatch

/-!
# The session of a client

Every step of a client is one step of its session, whose new doings the client takes in; steps of
calls change no more of it than its link, its clock and its supply of ids. So what holds along the
runs of a session holds of the session of a client. Two such laws are drawn here: a session that has
ended stays so, and the messages that a client takes in are genuine.
-/

namespace DataGateway.Client

open Session (deliveries deliveries_append deliveries_sent)

variable {c c' d : Client} {m : Move} {name id : String} {H : List Happening} {F : List Bytes}
  {allowed : Move → Client → Prop}

theorem session_self (h : c.session.journal = []) :
    c.session = { c.session with journal := [] } := by
  generalize c.session = s at h
  cases s
  cases h
  rfl

/-- What a call does to the session, a change from outside can do. -/
theorem session_of_outside (hjournal : c.session.journal = []) (link : Link) (time : Int64)
    (serial : Nat) (hsession : c'.session = { c.session with link, time, serial })
    (hsilent : deliveries c'.journal = deliveries c.journal) :
    ∃ m' s, Session.Step m' c.session s ∧ c'.session = { s with journal := [] }
      ∧ deliveries c'.journal = deliveries c.journal ++ deliveries s.journal := by
  refine ⟨_, _, .outside link time serial, hsession.trans ?_, ?_⟩
  · rw [session_self hjournal]
  · rw [hsilent]
    show _ = _ ++ deliveries c.session.journal
    rw [hjournal]
    exact (List.append_nil _).symm

/-- A step of a client is a step of its session, with the same messages. -/
theorem Step.session (h : Step m c c') (hc : c.Sound) :
    ∃ m' s, Session.Step m' c.session s ∧ c'.session = { s with journal := [] }
      ∧ deliveries c'.journal = deliveries c.journal ++ deliveries s.journal := by
  have same (hsession : c'.session = c.session) (hjournal : c'.journal = c.journal) :
      ∃ m' s, Session.Step m' c.session s ∧ c'.session = { s with journal := [] }
        ∧ deliveries c'.journal = deliveries c.journal ++ deliveries s.journal :=
    session_of_outside hc.journal c.session.link c.session.time c.session.serial hsession
      (by rw [hjournal])
  have resumed {r : Request} {d : Client} {out : Except ClientError Outcome ⊕ Request}
      (poll : c.pollRequest r = some (out, d)) (hsession : c'.session = d.session)
      (hjournal : c'.journal = d.journal) :
      ∃ m' s, Session.Step m' c.session s ∧ c'.session = { s with journal := [] }
        ∧ deliveries c'.journal = deliveries c.journal ++ deliveries s.journal := by
    obtain ⟨_, hgoes⟩ := pollRequest_goes hc.journal hc.tickets poll
    obtain ⟨link, k, hd⟩ := hgoes.client
    refine session_of_outside hc.journal link c.session.time c.session.serial ?_ ?_
    · rw [hsession, hd]
      rfl
    · rw [hjournal, hgoes.journal, deliveries_append, deliveries_sent, List.append_nil]
  cases h with
  | call name turn => exact same rfl rfl
  | turn next =>
      have hturn := hc.turn
      unfold nextTurn at next
      split at next
      · rename_i name turn queue hconnecting _
        obtain rfl := Option.some.inj next
        have hidle := hturn.1 hconnecting
        cases turn with
        | connect =>
            refine ⟨_, _, .connect hidle, ?_⟩
            unfold begin
            dsimp only
            generalize c.session.connect = x
            obtain ⟨_ | _, s⟩ := x <;> exact ⟨rfl, deliveries_append _ _⟩
        | close => exact ⟨_, _, .close hidle, rfl, deliveries_append _ _⟩
      · cases next
  | login poll =>
      unfold pollLogin at poll
      obtain ⟨⟨name, deadline⟩, hconnecting, hpoll⟩ := Option.bind_eq_some_iff.1 poll
      have hlogin : c.session.login ≠ .idle := fun hidle => by
        rw [hc.turn.2 hidle] at hconnecting
        cases hconnecting
      dsimp only at hpoll
      split at hpoll
      · rename_i r s houtcome
        obtain rfl := Option.some.inj hpoll
        exact ⟨_, _, .collect houtcome, rfl, deliveries_append _ _⟩
      · rename_i houtcome
        split at hpoll
        · obtain rfl := Option.some.inj hpoll
          exact ⟨_, _, .expire (outcome_eq_none houtcome hlogin), rfl, deliveries_append _ _⟩
        · cases hpoll
  | signal x => exact ⟨_, _, .signal x, rfl, deliveries_append _ _⟩
  | ask question id timeout unused unreturned =>
      rcases ask_cases hc _ question id timeout with
        ⟨_, _, serial, frames, link, _, heq⟩ | ⟨e, serial, drawn, _, heq⟩
      · rw [heq]
        refine session_of_outside hc.journal link c.session.time serial rfl ?_
        show deliveries (c.journal ++ frames.map .sent) = _
        rw [deliveries_append, deliveries_sent, List.append_nil]
      · rw [heq]
        exact session_of_outside hc.journal c.session.link c.session.time serial rfl rfl
  | returned requests poll => exact resumed poll rfl rfl
  | kept requests poll => exact resumed poll rfl rfl
  | advance ticks => exact same rfl rfl
  | outside link time => exact session_of_outside hc.journal link time c.session.serial rfl rfl

/-- A session that has ended does not come back. -/
theorem Step.disconnected (h : Step m c c') (hc : c.Sound)
    (hphase : c.session.phase = .disconnected) : c'.session.phase = .disconnected := by
  obtain ⟨m', s, hstep, hs, _⟩ := h.session hc
  have hterminal : c.session.phase.isTerminal := by
    rw [hphase]
    rfl
  rw [hs, ← hphase]
  exact (hstep.leads hc.session).eq_of_isTerminal hterminal

/-! ### Messages that are taken in -/

theorem mem_deliveries_iff {journal : List Note} {header : Header} {payload : Payload} :
    (header, payload) ∈ deliveries journal ↔ .received header payload ∈ journal := by
  unfold deliveries
  rw [List.mem_filterMap]
  constructor
  · rintro ⟨n, hn, hm⟩
    cases n <;> cases hm
    exact hn
  · exact fun h => ⟨_, h, rfl⟩

theorem Step.genuine (h : Step m c c') (hc : c.Sound) (ha : c.session.assembler.Sendable) :
    c'.session.assembler.Sendable ∧ ∀ notes, c'.journal = c.journal ++ notes →
      ∀ header payload, .received header payload ∈ notes → Message.Genuine header payload := by
  obtain ⟨m', s, hstep, hs, hdeliveries⟩ := h.session hc
  obtain ⟨hassembler, hdues⟩ := hstep.delivers_dues
  rw [hc.journal] at hdues
  constructor
  · rw [hs]
    show s.assembler.Sendable
    rw [hassembler]
    exact ha.acceptAll _
  · intro notes hnotes header payload hreceived
    rw [hnotes, deliveries_append, hdues] at hdeliveries
    have hmem := mem_deliveries_iff.2 hreceived
    rw [List.append_cancel_left hdeliveries] at hmem
    exact Session.genuine_of_dues ha _ _ hmem

theorem Reachable.sendable (hc : Reachable allowed c) : c.session.assembler.Sendable := by
  induction hc with
  | fresh => exact fun _ _ hp => by cases hp
  | step hc _ h ih => exact (h.genuine hc.sound ih).1

theorem mem_heard_iff {notes : List Note} {header : Header} {payload : Payload} :
    .message header payload ∈ heard id notes
      ↔ header.messageId = id ∧ .received header payload ∈ notes := by
  unfold heard
  rw [List.mem_filterMap]
  constructor
  · rintro ⟨n, hn, hm⟩
    cases n with
    | received header' payload' =>
        dsimp only at hm
        split at hm
        · rename_i hid
          cases hm
          exact ⟨hid, hn⟩
        · cases hm
    | _ => cases hm
  · rintro ⟨hid, h⟩
    exact ⟨_, h, if_pos hid⟩

/-- Every message that happens to a call is genuine. -/
theorem Course.genuine (h : Course allowed name id c H F d) (hc : Reachable allowed c) :
    ∀ header payload, .message header payload ∈ H →
      header.messageId = id ∧ Message.Genuine header payload := by
  induction h with
  | start => exact fun _ _ hm => absurd hm List.not_mem_nil
  | other course _ _ step journal ih =>
      intro header payload hm
      rcases List.mem_append.1 hm with hm | hm
      · exact ih header payload hm
      · have hd := course.reachable hc
        obtain ⟨hid, hreceived⟩ := mem_heard_iff.1 hm
        exact ⟨hid, (step.genuine hd.sound hd.sendable).2 _ journal _ _ hreceived⟩
  | own _ _ _ _ _ ih => exact ih
  | expire _ _ _ _ _ ih =>
      intro header payload hm
      rcases List.mem_append.1 hm with hm | hm
      · exact ih header payload hm
      · cases List.mem_singleton.1 hm

end DataGateway.Client

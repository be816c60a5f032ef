import DataGateway.Client
import DataGateway.Proofs.Correlator.Operations
import DataGateway.Proofs.Session.Run

/-!
# Requests of a client

A request sends its message and registers its id, or leaves nothing but a ticket that nobody has.
What it does when it goes on depends on what has become of its ticket and on what it waits for; each
case has its equation. `Goes` says what they have in common: the request sends some frames, and it
uses no tickets but its own.
-/

namespace DataGateway

namespace Client

variable {c d : Client} {r : Request} {type : DataType} {ack : Answer AttachmentRequestAck}

/-! ### Sending -/

/-- The client after its link has taken frames. -/
def sent (c : Client) (frames : List Bytes) (link : Link) : Client :=
  { c with
    session := { c.session with link }
    journal := c.journal ++ frames.map .sent }

theorem withSession_self (h : c.session.journal = []) : c.withSession c.session = c := by
  obtain ⟨session, correlator, now, connecting, queue, requests, endings, journal⟩ := c
  obtain ⟨config, link, phase, used, login, assembler, unit, serial, time, notes⟩ := session
  cases h
  simp [withSession]

theorem foldl_heed_sent (k : Correlator) (frames : List Bytes) :
    (frames.map Note.sent).foldl heed k = k := by
  induction frames with
  | nil => rfl
  | cons frame frames ih => exact ih

theorem withSession_sent (h : c.session.journal = []) (frames : List Bytes) (link : Link) :
    c.withSession { c.session with link, journal := c.session.journal ++ frames.map .sent }
      = c.sent frames link := by
  unfold withSession sent
  dsimp only
  rw [h, List.nil_append, foldl_heed_sent]

theorem send_eq (h : c.session.journal = []) (header : Header) (payload : Payload) :
    (c.session.phase = .loggedIn ∧ ∃ frames link, c.session.framesOf header payload = .ok frames
        ∧ c.send header payload = (.ok (), c.sent frames link))
      ∨ ∃ e, c.send header payload = (.error e, c) := by
  rcases c.session.send_eq header payload with ⟨hphase, frames, link, hframes, heq⟩ | ⟨e, heq⟩
  · refine .inl ⟨hphase, frames, link, hframes, ?_⟩
    rw [send, heq]
    dsimp only
    rw [withSession_sent h]
  · refine .inr ⟨e, ?_⟩
    rw [send, heq]
    dsimp only
    rw [withSession_self h]

/-- A request goes out under an id that was free, or all that happens is that tickets are drawn. -/
theorem dispatch_eq {roots : List Nat} (hjournal : c.session.journal = [])
    (htickets : c.correlator.Sound roots) (id : String) (deadline : Nat) (stage : Stage)
    (payload : Payload) :
    (c.session.phase = .loggedIn ∧ c.correlator.waiters.get? id = none
      ∧ ∃ frames link, c.session.framesOf (c.session.header id payload.type) payload = .ok frames
        ∧ c.dispatch id deadline stage payload
          = (.ok { id, ticket := c.correlator.drawn, deadline, stage },
            { c with
              correlator.waiters := c.correlator.waiters.insert id { ticket := c.correlator.drawn }
              correlator.drawn := c.correlator.drawn + 1 }.sent frames link))
      ∨ ∃ e drawn, c.correlator.drawn ≤ drawn ∧ c.dispatch id deadline stage payload
        = (.error e, { c with correlator.drawn := drawn }) := by
  unfold dispatch
  cases hget : c.correlator.waiters.get? id with
  | some w =>
      rw [Correlator.register_of_some hget]
      exact .inr ⟨_, c.correlator.drawn, le_rfl, rfl⟩
  | none =>
      rw [Correlator.register_of_none hget]
      dsimp only
      let k : Correlator := { c.correlator with
        waiters := c.correlator.waiters.insert id { ticket := c.correlator.drawn }
        drawn := c.correlator.drawn + 1 }
      have hk : { c with correlator := k }.session.journal = [] := hjournal
      rcases send_eq hk (c.session.header id payload.type) payload with
        ⟨hphase, frames, link, hframes, heq⟩ | ⟨e, heq⟩
      · rw [heq]
        exact .inl ⟨hphase, rfl, frames, link, hframes, rfl⟩
      · rw [heq]
        refine .inr ⟨e, c.correlator.drawn + 1, Nat.le_succ _, ?_⟩
        dsimp only [withdraw]
        rw [htickets.tear_register hget]

theorem confirm_eq (h : c.session.journal = []) (id : String) (ack : Answer AttachmentRequestAck)
    (response : Answer AttachmentResponse) :
    (c.session.phase = .loggedIn ∧ ∃ frames link, c.session.framesOf
          (c.session.header id .attachmentResponseAck)
          ⟨.attachmentResponseAck, response.body.ack⟩ = .ok frames
        ∧ c.confirm id ack response = (.ok (.delivered ack response), c.sent frames link))
      ∨ ∃ e, c.confirm id ack response = (.error e, c) := by
  unfold confirm
  dsimp only
  rcases send_eq h (c.session.header id .attachmentResponseAck)
    ⟨.attachmentResponseAck, response.body.ack⟩ with ⟨hphase, frames, link, hframes, heq⟩ | ⟨e, heq⟩
  · rw [heq]
    exact .inl ⟨hphase, frames, link, hframes, rfl⟩
  · rw [heq]
    exact .inr ⟨e, rfl⟩

/-! ### Equations of a request -/

theorem pollRequest_of_ready {res : Resolution} (h : c.correlator.standing r.ticket = .ready res) :
    c.pollRequest r
      = some (({ c with correlator := c.correlator.fetched r.ticket } : Client).resolve r res) := by
  rw [pollRequest, h]

theorem pollRequest_of_hopeless (h : c.correlator.standing r.ticket = .hopeless) :
    c.pollRequest r = some (.inl (.error .connectionClosed), c) := by
  rw [pollRequest, h]

theorem pollRequest_of_waiting (h : c.correlator.standing r.ticket = .waiting) :
    c.pollRequest r = if r.deadline ≤ c.now then
      some (.inl (.error (.timeout r.id)), c.withdraw r) else none := by
  rw [pollRequest, h]

theorem tearFollowUp_of_none {res : Resolution} (h : res.followUp = none) :
    c.tearFollowUp res = c := by
  rw [tearFollowUp, h]

theorem tearFollowUp_of_some {res : Resolution} {next : Nat} (h : res.followUp = some next) :
    c.tearFollowUp res = { c with correlator := c.correlator.tear next } := by
  rw [tearFollowUp, h]

@[simp] theorem tearFollowUp_journal (c : Client) (res : Resolution) :
    (c.tearFollowUp res).journal = c.journal := by
  unfold tearFollowUp
  split
  · rfl
  · rfl

theorem resolve_answer (hstage : r.stage = .answer type) (c : Client) (res : Resolution) :
    c.resolve r res = (.inl (if res.payload.type = type then .ok (.answered res.header res.payload)
        else .error (.unexpectedReply r.id res.payload.type)),
      match res.followUp with
      | some _ => (c.tearFollowUp res).release r.id
      | none => c) := by
  unfold resolve
  rw [hstage]
  dsimp only
  split
  · rfl
  · rfl

theorem resolve_attachment_of_none (hstage : r.stage = .attachment) (c : Client) {res : Resolution}
    (h : res.payload.body? .attachmentRequestAck = none) :
    c.resolve r res = (.inl (.error (.unexpectedReply r.id res.payload.type)),
      (c.tearFollowUp res).release r.id) := by
  unfold resolve
  rw [hstage]
  dsimp only
  rw [h]

theorem resolve_attachment_of_ack (hstage : r.stage = .attachment) (c : Client) {res : Resolution}
    {body : AttachmentRequestAck} (h : res.payload = ⟨.attachmentRequestAck, body⟩) :
    c.resolve r res = (match res.followUp with
      | some ticket => .inr { r with ticket, stage := .delivery ⟨res.header, body⟩ }
      | none => .inl (.ok (.complete ⟨res.header, body⟩)), c) := by
  unfold resolve
  rw [hstage, h]
  dsimp only
  rw [Payload.body?_mk]
  cases res.followUp with
  | none | some => rfl

theorem resolve_delivery_of_none (hstage : r.stage = .delivery ack) (c : Client) {res : Resolution}
    (h : res.payload.body? .attachmentResponse = none) :
    c.resolve r res = (.inl (.error (.unexpectedReply r.id res.payload.type)),
      c.tearFollowUp res) := by
  unfold resolve
  rw [hstage]
  dsimp only
  rw [h]

theorem resolve_delivery_of_response (hstage : r.stage = .delivery ack) (c : Client)
    {res : Resolution} {body : AttachmentResponse} (h : res.payload = ⟨.attachmentResponse, body⟩) :
    c.resolve r res = (.inl ((c.tearFollowUp res).confirm r.id ack ⟨res.header, body⟩).1,
      ((c.tearFollowUp res).confirm r.id ack ⟨res.header, body⟩).2) := by
  unfold resolve
  rw [hstage, h]
  dsimp only
  rw [Payload.body?_mk]

/-! ### Requests that go on -/

/-- A request that goes on may send and uses its own tickets. Only one that has waited for the
answer to an attachment request goes on waiting, under its id and with its deadline. -/
structure Goes (c : Client) (r : Request) (out : Except ClientError Outcome ⊕ Request)
    (frames : List Bytes) (d : Client) : Prop where
  client : ∃ link correlator, d = { c with correlator }.sent frames link
  resumed : c.correlator.Resumed r.ticket r.id (∃ ack, r.stage = .delivery ack)
    (out.getRight?.map (·.ticket)) d.correlator
  kept : ∀ r', out = .inr r' →
    r'.id = r.id ∧ r'.deadline = r.deadline ∧ r.stage = .attachment

theorem Goes.journal {out : Except ClientError Outcome ⊕ Request}
    {frames : List Bytes} (h : c.Goes r out frames d) :
    d.journal = c.journal ++ frames.map .sent := by
  obtain ⟨link, k, rfl⟩ := h.client
  rfl

theorem Goes.quiet {out : Except ClientError Outcome ⊕ Request} {k : Correlator}
    (resumed : c.correlator.Resumed r.ticket r.id (∃ ack, r.stage = .delivery ack)
      (out.getRight?.map (·.ticket)) k)
    (kept : ∀ r', out = .inr r' →
      r'.id = r.id ∧ r'.deadline = r.deadline ∧ r.stage = .attachment) :
    c.Goes r out [] { c with correlator := k } :=
  ⟨⟨c.session.link, k, by simp [sent]⟩, resumed, kept⟩

/-- A request that waits for one answer frees its id if the answer announces another message. -/
theorem goes_answer {res : Resolution} (hstage : r.stage = .answer type)
    (ready : (r.ticket, res) ∈ c.correlator.served) :
    c.Goes r ({ c with correlator := c.correlator.fetched r.ticket }.resolve r res).1 []
      ({ c with correlator := c.correlator.fetched r.ticket }.resolve r res).2 := by
  rw [resolve_answer hstage]
  cases hnext : res.followUp with
  | none => exact .quiet (.settled ready hnext) fun _ h => nomatch h
  | some next =>
      dsimp only
      rw [tearFollowUp_of_some hnext]
      exact .quiet (.released ready hnext) fun _ h => nomatch h

/-- One that has asked for an attachment goes on waiting if the answer announces it. -/
theorem goes_attachment {res : Resolution} (hstage : r.stage = .attachment)
    (ready : (r.ticket, res) ∈ c.correlator.served) :
    c.Goes r ({ c with correlator := c.correlator.fetched r.ticket }.resolve r res).1 []
      ({ c with correlator := c.correlator.fetched r.ticket }.resolve r res).2 := by
  rcases res.payload.body?_cases .attachmentRequestAck with hnone | ⟨body, hbody⟩
  · rw [resolve_attachment_of_none hstage _ hnone]
    cases hnext : res.followUp with
    | none =>
        rw [tearFollowUp_of_none hnext]
        exact .quiet (.freed ready hnext) fun _ h => nomatch h
    | some next =>
        rw [tearFollowUp_of_some hnext]
        exact .quiet (.released ready hnext) fun _ h => nomatch h
  · rw [resolve_attachment_of_ack hstage _ hbody]
    cases hnext : res.followUp with
    | none => exact .quiet (.settled ready hnext) fun _ h => nomatch h
    | some next =>
        refine .quiet (.kept ready hnext) fun r' h => ?_
        cases h
        exact ⟨rfl, rfl, hstage⟩

/-- One that waits for an announced attachment throws away what its message announces, but does not
free its id. -/
theorem tearFollowUp_resumed {res : Resolution} (hstage : r.stage = .delivery ack)
    (ready : (r.ticket, res) ∈ c.correlator.served) :
    ∃ k, ({ c with correlator := c.correlator.fetched r.ticket } : Client).tearFollowUp res
        = { c with correlator := k }
      ∧ c.correlator.Resumed r.ticket r.id (∃ ack, r.stage = .delivery ack) none k := by
  cases hnext : res.followUp with
  | none => exact ⟨_, tearFollowUp_of_none hnext, .settled ready hnext⟩
  | some next => exact ⟨_, tearFollowUp_of_some hnext, .spilled ⟨ack, hstage⟩ ready hnext⟩

theorem goes_delivery {res : Resolution} (hjournal : c.session.journal = [])
    (hstage : r.stage = .delivery ack) (ready : (r.ticket, res) ∈ c.correlator.served) :
    ∃ frames, c.Goes r ({ c with correlator := c.correlator.fetched r.ticket }.resolve r res).1
      frames ({ c with correlator := c.correlator.fetched r.ticket }.resolve r res).2 := by
  obtain ⟨k, heq, hk⟩ := tearFollowUp_resumed hstage ready
  rcases res.payload.body?_cases .attachmentResponse with hnone | ⟨body, hbody⟩
  · rw [resolve_delivery_of_none hstage _ hnone, heq]
    exact ⟨[], .quiet hk fun _ h => nomatch h⟩
  · rw [resolve_delivery_of_response hstage _ hbody, heq]
    have hjournal' : { c with correlator := k }.session.journal = [] := hjournal
    rcases confirm_eq hjournal' r.id ack ⟨res.header, body⟩ with
      ⟨_, frames, link, _, hsent⟩ | ⟨e, hsent⟩
    · rw [hsent]
      exact ⟨frames, ⟨link, k, rfl⟩, hk, fun _ h => nomatch h⟩
    · rw [hsent]
      exact ⟨[], .quiet hk fun _ h => nomatch h⟩

/-- All that a request that goes on can do. -/
theorem pollRequest_goes {roots : List Nat} (hjournal : c.session.journal = [])
    (htickets : c.correlator.Sound roots) {out : Except ClientError Outcome ⊕ Request}
    (h : c.pollRequest r = some (out, d)) : ∃ frames, c.Goes r out frames d := by
  rcases htickets.standing_cases r.ticket with ⟨res, hready, heq⟩ | ⟨i, w, hw, hticket, heq⟩
    | ⟨hserved, hwaiters, heq⟩
  · rw [pollRequest_of_ready heq] at h
    have hresolve := Option.some.inj h
    have hgoes : ∃ frames, c.Goes r
        ({ c with correlator := c.correlator.fetched r.ticket }.resolve r res).1 frames
        ({ c with correlator := c.correlator.fetched r.ticket }.resolve r res).2 := by
      cases hstage : r.stage with
      | answer type => exact ⟨[], goes_answer hstage hready⟩
      | attachment => exact ⟨[], goes_attachment hstage hready⟩
      | delivery ack => exact goes_delivery hjournal hstage hready
    rw [hresolve] at hgoes
    exact hgoes
  · rw [pollRequest_of_waiting heq] at h
    split at h
    · cases h
      exact ⟨[], .quiet .withdrawn fun _ h => nomatch h⟩
    · cases h
  · rw [pollRequest_of_hopeless heq] at h
    cases h
    exact ⟨[], .quiet (.hopeless hserved hwaiters) fun _ h => nomatch h⟩

end Client

end DataGateway

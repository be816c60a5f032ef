import DataGateway.Proofs.Client.Correlation
import DataGateway.Proofs.Reassembly

/-!
# Attachments that are asked for

A call that asks for an attachment has two waits under one id and one deadline. `retrieval` reads
off what has happened to it what it is to do: it is done with the first message if that is an answer
which announces nothing, it confirms the second if that is the attachment which the first announced,
and everything else ends it without an attachment. Along its `Course` the call is at its first wait,
at its second, or over, and it sends nothing after its request but one confirmation, when it is over
and the attachment delivered.
-/

namespace DataGateway

namespace Message

/-- The frames carry a message, in one or in slices. -/
def Carries (frames : List Bytes) (h : Header) (p : Payload) : Prop :=
  (∃ frame, encode h p = .ok frame ∧ frames = [frame]) ∨ ∃ unit, split h p unit = .ok frames

theorem Carries.ne_nil {frames : List Bytes} {h : Header} {p : Payload} (hc : Carries frames h p) :
    frames ≠ [] := by
  rcases hc with ⟨frame, _, rfl⟩ | ⟨unit, hsplit⟩
  · exact List.cons_ne_nil _ _
  · obtain ⟨hunit, _, bytes, _, hframes⟩ := split_eq_ok.1 hsplit
    split at hframes
    · obtain ⟨frame, _, rfl⟩ := hframes
      exact List.cons_ne_nil _ _
    · rename_i hlarge
      have hlength := two_le_length_chunks hunit (Nat.lt_of_not_le hlarge)
      cases hchunks : chunks unit bytes with
      | nil =>
          rw [hchunks] at hlength
          cases hlength
      | cons chunk rest =>
          rw [hchunks] at hframes
          obtain ⟨frame, frames', _, _, rfl⟩ := Slice.encodeFrom_cons_eq_ok.1 hframes
          exact List.cons_ne_nil _ _

end Message

theorem Session.carries_of_framesOf {s : Session} {h : Header} {p : Payload} {frames : List Bytes}
    (hframes : s.framesOf h p = .ok frames) : Message.Carries frames h p := by
  unfold framesOf at hframes
  split at hframes
  · exact .inr ⟨_, hframes⟩
  · left
    cases hframe : Message.encode h p with
    | error e =>
        rw [hframe] at hframes
        cases hframes
    | ok frame =>
        rw [hframe] at hframes
        exact ⟨frame, rfl, (Except.ok.inj hframes).symm⟩

namespace Client

open Correlator (expectsFollowUp)
open Session (sentFrames sentFrames_nil sentFrames_sent)

variable {c c₀ c' d d' : Client} {m : Move} {name id : String} {r : Request}
  {ack : Answer AttachmentRequestAck} {H K : List Happening} {F : List Bytes}
  {result : Except ClientError Outcome} {allowed : Move → Client → Prop}

/-! ### What a history comes to -/

/-- What a call that asks for an attachment is to do. -/
inductive Prospect
  | wait
  | fail (e : ClientError)
  | complete (ack : Answer AttachmentRequestAck)
  | confirm (ack : Answer AttachmentRequestAck) (response : Answer AttachmentResponse)

/-- What a call is to do when an answer has announced the attachment and this has happened since. -/
def delivery (id : String) (ack : Answer AttachmentRequestAck) : List Happening → Prospect
  | [] => .wait
  | .message header payload :: _ =>
    match payload.body? .attachmentResponse with
    | none => .fail (.unexpectedReply id payload.type)
    | some body => .confirm ack ⟨header, body⟩
  | .ended :: _ => .fail .connectionClosed
  | .expired :: _ => .fail (.timeout id)

/-- What a call that has asked for an attachment is to do when this has happened since. -/
def retrieval (id : String) : List Happening → Prospect
  | [] => .wait
  | .message header payload :: H =>
    match payload.body? .attachmentRequestAck with
    | none => .fail (.unexpectedReply id payload.type)
    | some body =>
      if AttachmentRequestAck.isPending body then delivery id ⟨header, body⟩ H
      else .complete ⟨header, body⟩
  | .ended :: _ => .fail .connectionClosed
  | .expired :: _ => .fail (.timeout id)

theorem delivery_append (h : delivery id ack H ≠ .wait) :
    delivery id ack (H ++ K) = delivery id ack H := by
  cases H with
  | nil => exact absurd rfl h
  | cons x H => cases x <;> rfl

theorem delivery_of_none {payload : Payload} (h : payload.body? .attachmentResponse = none)
    (header : Header) :
    delivery id ack (.message header payload :: H) = .fail (.unexpectedReply id payload.type) := by
  simp only [delivery, h]

theorem delivery_of_response (header : Header) (body : AttachmentResponse) :
    delivery id ack (.message header ⟨.attachmentResponse, body⟩ :: H)
      = .confirm ack ⟨header, body⟩ := by
  simp only [delivery, Payload.body?_mk]

theorem retrieval_of_none {payload : Payload} (h : payload.body? .attachmentRequestAck = none)
    (header : Header) :
    retrieval id (.message header payload :: H) = .fail (.unexpectedReply id payload.type) := by
  simp only [retrieval, h]

theorem retrieval_of_ack (header : Header) (body : AttachmentRequestAck) :
    retrieval id (.message header ⟨.attachmentRequestAck, body⟩ :: H)
      = if AttachmentRequestAck.isPending body then delivery id ⟨header, body⟩ H
        else .complete ⟨header, body⟩ := by
  simp only [retrieval, Payload.body?_mk]

/-- What happens later does not change what a call is to do. -/
theorem retrieval_append (h : retrieval id H ≠ .wait) : retrieval id (H ++ K) = retrieval id H := by
  cases H with
  | nil => exact absurd rfl h
  | cons x H =>
      cases x with
      | ended | expired => rfl
      | message header payload =>
          rw [List.cons_append]
          rcases payload.body?_cases .attachmentRequestAck with hnone | ⟨body, rfl⟩
          · rw [retrieval_of_none hnone, retrieval_of_none hnone]
          · rw [retrieval_of_ack] at h ⊢
            rw [retrieval_of_ack]
            split
            · rename_i hpending
              rw [if_pos hpending] at h
              exact delivery_append h
            · rfl

/-- A delivery is awaited, confirmed, or fails. -/
theorem delivery_cases (id : String) (ack : Answer AttachmentRequestAck) (H : List Happening) :
    (H = [] ∧ delivery id ack H = .wait) ∨ (∃ e, delivery id ack H = .fail e)
      ∨ ∃ response K, H = .message response.header ⟨.attachmentResponse, response.body⟩ :: K
        ∧ delivery id ack H = .confirm ack response := by
  cases H with
  | nil => exact .inl ⟨rfl, rfl⟩
  | cons x H =>
      right
      cases x with
      | ended | expired => exact .inl ⟨_, rfl⟩
      | message header payload =>
          rcases payload.body?_cases .attachmentResponse with hnone | ⟨body, rfl⟩
          · exact .inl ⟨_, delivery_of_none hnone header⟩
          · exact .inr ⟨⟨header, body⟩, H, rfl, delivery_of_response header body⟩

/-- A retrieval begins with a wait, is complete, is up to a delivery, or fails. -/
theorem retrieval_cases (id : String) (H : List Happening) :
    (H = [] ∧ retrieval id H = .wait) ∨ (∃ e, retrieval id H = .fail e)
      ∨ ∃ (ack : Answer AttachmentRequestAck) (K : List Happening),
        H = .message ack.header ⟨.attachmentRequestAck, ack.body⟩ :: K
        ∧ retrieval id H = if AttachmentRequestAck.isPending ack.body then delivery id ack K
          else .complete ack := by
  cases H with
  | nil => exact .inl ⟨rfl, rfl⟩
  | cons x H =>
      right
      cases x with
      | ended | expired => exact .inl ⟨_, rfl⟩
      | message header payload =>
          rcases payload.body?_cases .attachmentRequestAck with hnone | ⟨body, rfl⟩
          · exact .inl ⟨_, retrieval_of_none hnone header⟩
          · exact .inr ⟨⟨header, body⟩, H, rfl, retrieval_of_ack header body⟩

theorem retrieval_eq_complete_iff : retrieval id H = .complete ack ↔
    ∃ K, H = .message ack.header ⟨.attachmentRequestAck, ack.body⟩ :: K
      ∧ ¬AttachmentRequestAck.isPending ack.body := by
  constructor
  · intro h
    rcases retrieval_cases id H with ⟨_, heq⟩ | ⟨e, heq⟩ | ⟨ack', K, rfl, heq⟩
    · rw [heq] at h
      cases h
    · rw [heq] at h
      cases h
    · rw [heq] at h
      split at h
      · rcases delivery_cases id ack' K with ⟨_, heq⟩ | ⟨e, heq⟩ | ⟨response, _, _, heq⟩ <;>
          rw [heq] at h <;> cases h
      · rename_i hpending
        cases h
        exact ⟨K, rfl, hpending⟩
  · rintro ⟨K, rfl, hpending⟩
    rw [retrieval_of_ack, if_neg hpending]

theorem retrieval_eq_confirm_iff {response : Answer AttachmentResponse} :
    retrieval id H = .confirm ack response ↔
      ∃ K, H = .message ack.header ⟨.attachmentRequestAck, ack.body⟩
          :: .message response.header ⟨.attachmentResponse, response.body⟩ :: K
        ∧ AttachmentRequestAck.isPending ack.body := by
  constructor
  · intro h
    rcases retrieval_cases id H with ⟨_, heq⟩ | ⟨e, heq⟩ | ⟨ack', K, rfl, heq⟩
    · rw [heq] at h
      cases h
    · rw [heq] at h
      cases h
    · rw [heq] at h
      split at h
      · rename_i hpending
        rcases delivery_cases id ack' K with ⟨_, heq⟩ | ⟨e, heq⟩ | ⟨response, L, rfl, heq⟩ <;>
          rw [heq] at h <;> cases h
        exact ⟨L, rfl, hpending⟩
      · cases h
  · rintro ⟨K, rfl, hpending⟩
    rw [retrieval_of_ack, if_pos hpending]
    exact delivery_of_response response.header response.body

/-! ### The two waits -/

/-- The frames are one message under an id, which confirms that an attachment has been received and
says which. -/
def Confirms (id : String) (response : AttachmentResponse) (frames : List Bytes) : Prop :=
  let received : AttachmentIdentity :=
    ⟨response.result.requestIds, response.result.ownerTable, response.result.attachmentId⟩
  let body : AttachmentResponseAck := .withBody .ok { status := .ok, result := some received }
  ∃ header : Header, header.messageId = id ∧ header.dataType = .attachmentResponseAck
    ∧ Message.Carries frames header ⟨.attachmentResponseAck, body⟩

/-- What a call returns and has sent since its request is what it was to do. It may fail to send a
confirmation, and then returns why. -/
def Settles (id : String) (result : Except ClientError Outcome) (F : List Bytes) : Prospect → Prop
  | .wait => False
  | .fail e => result = .error e ∧ F = []
  | .complete ack => result = .ok (.complete ack) ∧ F = []
  | .confirm ack response =>
    (result = .ok (.delivered ack response) ∧ Confirms id response.body F)
      ∨ (∃ e, result = .error e) ∧ F = []

theorem Settles.append (h : Settles id result F (retrieval id H)) (K : List Happening) :
    Settles id result F (retrieval id (H ++ K)) := by
  rw [retrieval_append]
  · exact h
  · intro hwait
    rw [hwait] at h
    exact h

theorem expectsFollowUp_ack (body : AttachmentRequestAck) :
    expectsFollowUp ⟨.attachmentRequestAck, body⟩ = AttachmentRequestAck.isPending body := by
  unfold expectsFollowUp
  rw [Payload.body?_mk]

/-- A call at its first wait to which something has happened returns, or waits for the delivery. -/
theorem Waits.pollRequest_first {x : Happening} (h : c.Waits name r (x :: H)) (hc : c.Sound)
    (hstage : r.stage = .attachment) :
    ∃ out d, c.pollRequest r = some (out, d) ∧ d.journal = c.journal ∧ match out with
      | .inl result => Settles r.id result [] (retrieval r.id (x :: H))
      | .inr r' => ∃ ack : Answer AttachmentRequestAck,
        x = .message ack.header ⟨.attachmentRequestAck, ack.body⟩
          ∧ AttachmentRequestAck.isPending ack.body ∧ r'.stage = .delivery ack := by
  cases x with
  | ended =>
      rw [pollRequest_of_hopeless (h.shows.standing_ended hc.tickets)]
      exact ⟨_, _, rfl, rfl, rfl, rfl⟩
  | expired => exact h.shows.elim
  | message header payload =>
      obtain ⟨followUp, hready, _, hfollow⟩ := h.shows.standing_message hc.tickets
      rw [pollRequest_of_ready hready]
      rcases payload.body?_cases .attachmentRequestAck with hnone | ⟨body, rfl⟩
      · rw [resolve_attachment_of_none hstage _ hnone]
        refine ⟨_, _, rfl, ?_, ?_⟩
        · exact tearFollowUp_journal _ _
        · show Settles _ _ _ _
          rw [retrieval_of_none hnone]
          exact ⟨rfl, rfl⟩
      · rw [resolve_attachment_of_ack hstage _ rfl]
        refine ⟨_, _, rfl, rfl, ?_⟩
        cases followUp with
        | none =>
            rw [expectsFollowUp_ack] at hfollow
            show Settles _ _ _ _
            rw [retrieval_of_ack, if_neg hfollow]
            exact ⟨rfl, rfl⟩
        | some next =>
            obtain ⟨hpending, _⟩ := hfollow
            rw [expectsFollowUp_ack] at hpending
            exact ⟨⟨header, body⟩, rfl, hpending, rfl⟩

/-- A call at its second wait to which something has happened returns, and confirms a delivery. -/
theorem Waits.pollRequest_second {x : Happening} (h : c.Waits name r (x :: H)) (hc : c.Sound)
    (hstage : r.stage = .delivery ack) :
    ∃ result d frames, c.pollRequest r = some (.inl result, d)
      ∧ d.journal = c.journal ++ frames.map .sent
      ∧ Settles r.id result frames (delivery r.id ack (x :: H)) := by
  cases x with
  | ended =>
      rw [pollRequest_of_hopeless (h.shows.standing_ended hc.tickets)]
      exact ⟨_, _, [], rfl, (List.append_nil _).symm, rfl, rfl⟩
  | expired => exact h.shows.elim
  | message header payload =>
      obtain ⟨followUp, hready, hserved, _⟩ := h.shows.standing_message hc.tickets
      rw [pollRequest_of_ready hready]
      obtain ⟨k, heq, _⟩ := tearFollowUp_resumed hstage hserved
      rcases payload.body?_cases .attachmentResponse with hnone | ⟨body, rfl⟩
      · rw [resolve_delivery_of_none hstage _ hnone, heq]
        refine ⟨_, _, [], rfl, (List.append_nil _).symm, ?_⟩
        rw [delivery_of_none hnone]
        exact ⟨rfl, rfl⟩
      · rw [resolve_delivery_of_response hstage _ rfl, heq, delivery_of_response]
        have hjournal : { c with correlator := k }.session.journal = [] := hc.journal
        rcases confirm_eq hjournal r.id ack ⟨header, body⟩ with
          ⟨_, frames, link, hframes, hsent⟩ | ⟨e, hsent⟩
        · rw [hsent]
          refine ⟨_, _, frames, rfl, rfl, .inl ⟨rfl, ?_⟩⟩
          exact ⟨_, rfl, rfl, Session.carries_of_framesOf hframes⟩
        · rw [hsent]
          exact ⟨_, _, [], rfl, (List.append_nil _).symm, .inr ⟨⟨e, rfl⟩, rfl⟩⟩

/-! ### Along a course -/

/-- Where a call is that has asked for an attachment, what has happened to it, and what it has sent
since its request. -/
inductive Retrieving (c : Client) (name : String) (r : Request) : List Happening → List Bytes → Prop
  | first {H : List Happening} (waits : c.Waits name r H) (stage : r.stage = .attachment) :
      Retrieving c name r H []
  | second {H : List Happening} {q : Request} {ack : Answer AttachmentRequestAck}
      (pending : AttachmentRequestAck.isPending ack.body) (waits : c.Waits name q H)
      (stage : q.stage = .delivery ack) (id : q.id = r.id) (deadline : q.deadline = r.deadline) :
      Retrieving c name r (.message ack.header ⟨.attachmentRequestAck, ack.body⟩ :: H) []
  | finished {H : List Happening} {F : List Bytes} {result : Except ClientError Outcome}
      (finished : c.Over name result) (settles : Settles r.id result F (retrieval r.id H)) :
      Retrieving c name r H F

theorem Retrieving.effect {notes : List Note} (h : c.Retrieving name r H F) (hc : c.Sound)
    (heffect : c.Effect m notes c') (other : m ≠ .resume name) :
    c'.Retrieving name r (H ++ heard r.id notes) F := by
  cases h with
  | first waits stage => exact .first (waits.effect hc heffect other) stage
  | second pending waits stage hid deadline =>
      rw [List.cons_append, ← hid]
      exact .second pending (waits.effect hc heffect other) stage hid deadline
  | finished hover settles => exact .finished (hover.effect heffect) (settles.append _)

/-- Something has happened to a call that goes on in time. -/
theorem Retrieving.resume (h : c.Retrieving name r H F) (hc : c.Sound)
    (hstep : Step (.resume name) c c') (timely : ¬c.Expires name) :
    ∃ frames, c'.journal = c.journal ++ frames.map .sent
      ∧ c'.Retrieving name r H (F ++ frames) := by
  cases h with
  | finished hover _ => exact absurd hstep (hover.not_resume hc)
  | first waits stage =>
      obtain ⟨x, H, rfl⟩ := List.exists_cons_of_ne_nil (waits.ne_nil_of_resume hc hstep timely)
      obtain ⟨out, _, d, hpoll, goes, _, hjournal, hout⟩ := hstep.resumes hc waits.request
      obtain ⟨_, _, hpoll', hsent, hcase⟩ := waits.pollRequest_first hc stage
      rw [hpoll] at hpoll'
      cases hpoll'
      refine ⟨[], ?_, ?_⟩
      · rw [hjournal, ← goes.journal, hsent]
        exact (List.append_nil _).symm
      cases out with
      | inl result => exact .finished hout hcase
      -- The second wait begins with what has happened since the announcement.
      | inr q =>
          obtain ⟨ack, rfl, hpending, hstage⟩ := hcase
          rcases waits.resume hc hstep with ⟨_, hover⟩ | ⟨q', _, _, _, hH, hid, hdeadline, hwaits⟩
          · exact absurd hout (hover.requests q)
          · obtain rfl := (hstep.sound hc).eq_of_name hout hwaits.request
            cases hH
            exact .second hpending hwaits hstage hid hdeadline
  | @second _ q ack pending waits stage hid deadline =>
      obtain ⟨x, H, rfl⟩ := List.exists_cons_of_ne_nil (waits.ne_nil_of_resume hc hstep timely)
      obtain ⟨out, _, d, hpoll, goes, _, hjournal, hout⟩ := hstep.resumes hc waits.request
      obtain ⟨result, _, frames, hpoll', hsent, hsettles⟩ := waits.pollRequest_second hc stage
      rw [hpoll] at hpoll'
      cases hpoll'
      refine ⟨frames, ?_, .finished hout ?_⟩
      · rw [hjournal, ← goes.journal, hsent]
      · rw [hid] at hsettles
        rw [retrieval_of_ack, if_pos pending]
        exact hsettles

/-- A call that goes on when its time is over times out, and sends nothing. -/
theorem Retrieving.expire (h : c.Retrieving name r H F) (hc : c.Sound)
    (hstep : Step (.resume name) c c') (due : c.Expires name) :
    c'.journal = c.journal ∧ c'.Retrieving name r (H ++ [.expired]) F := by
  cases h with
  | finished hover _ => exact absurd hstep (hover.not_resume hc)
  | first waits stage =>
      obtain ⟨rfl, hjournal, hover⟩ := waits.expire hc hstep due
      exact ⟨hjournal, .finished hover ⟨rfl, rfl⟩⟩
  | second pending waits stage hid deadline =>
      obtain ⟨rfl, hjournal, hover⟩ := waits.expire hc hstep due
      refine ⟨hjournal, .finished hover ?_⟩
      rw [hid, List.cons_append, retrieval_of_ack, if_pos pending]
      exact ⟨rfl, rfl⟩

theorem Course.retrieving (h : Course allowed name r.id c₀ H F d) (hc : Reachable allowed c₀)
    (hwaits : c₀.Waits name r []) (hstage : r.stage = .attachment) : d.Retrieving name r H F := by
  induction h with
  | start => exact .first hwaits hstage
  | other course _ other step journal ih =>
      have hd := (course.reachable hc).sound
      exact ih.effect hd (step.effect_of_journal hd journal) other
  | own course _ step timely journal ih =>
      have hd := (course.reachable hc).sound
      obtain ⟨frames, hjournal, hretrieving⟩ := ih.resume hd step timely
      obtain rfl := List.append_cancel_left (hjournal.symm.trans journal)
      rw [sentFrames_sent]
      exact hretrieving
  | expire course _ step due journal ih =>
      obtain ⟨hjournal, hretrieving⟩ := ih.expire (course.reachable hc).sound step due
      rw [List.self_eq_append_right.1 (hjournal.symm.trans journal)]
      rw [sentFrames_nil, List.append_nil]
      exact hretrieving

/-- At rest a call waits only if it has something to wait for and time left. -/
theorem Retrieving.returned_of_rest (h : c.Retrieving name r H F) (hc : c.Sound)
    (hrest : c.step? = none) (hdue : retrieval r.id H ≠ .wait ∨ r.deadline ≤ c.now) :
    c.returned name ≠ [] := by
  cases h with
  | first waits stage =>
      obtain rfl := waits.eq_nil_of_rest hc hrest
      have hlate := hdue.resolve_left fun hne => hne rfl
      exact absurd (waits.lt_deadline_of_rest hc hrest) (Nat.not_lt.2 hlate)
  | second pending waits stage hid deadline =>
      obtain rfl := waits.eq_nil_of_rest hc hrest
      rw [retrieval_of_ack, if_pos pending, ← deadline] at hdue
      have hlate := hdue.resolve_left fun hne => hne rfl
      exact absurd (waits.lt_deadline_of_rest hc hrest) (Nat.not_lt.2 hlate)
  | finished hover _ =>
      rw [hover.returned]
      exact List.cons_ne_nil _ _

theorem Settles.complete_iff (h : Settles id result F (retrieval id H)) :
    result = .ok (.complete ack) ↔
      ∃ K, H = .message ack.header ⟨.attachmentRequestAck, ack.body⟩ :: K
        ∧ ¬AttachmentRequestAck.isPending ack.body := by
  rw [← @retrieval_eq_complete_iff id]
  generalize retrieval id H = p at h
  cases p with
  | wait => exact h.elim
  | fail e => simp [h.1]
  | complete ack' => simp [h.1]
  | confirm ack' response => rcases h with ⟨rfl, _⟩ | ⟨⟨e, rfl⟩, _⟩ <;> simp

theorem Settles.delivered_iff {response : Answer AttachmentResponse}
    (h : Settles id result F (retrieval id H)) :
    result = .ok (.delivered ack response) ↔ F ≠ []
      ∧ ∃ K, H = .message ack.header ⟨.attachmentRequestAck, ack.body⟩
          :: .message response.header ⟨.attachmentResponse, response.body⟩ :: K
        ∧ AttachmentRequestAck.isPending ack.body := by
  rw [← @retrieval_eq_confirm_iff id]
  generalize retrieval id H = p at h
  cases p with
  | wait => exact h.elim
  | fail e => simp [h.1]
  | complete ack' => simp [h.1]
  | confirm ack' response' =>
      rcases h with ⟨rfl, header, _, _, hcarries⟩ | ⟨⟨e, rfl⟩, rfl⟩
      · simp [hcarries.ne_nil]
      · simp

/-- A call that returns has confirmed a delivery, or has sent nothing. -/
theorem Settles.sent (h : Settles id result F (retrieval id H)) :
    (∃ ack response, result = .ok (.delivered ack response) ∧ Confirms id response.body F)
      ∨ F = [] ∧ ((∃ ack, result = .ok (.complete ack))
        ∨ ∃ e, result = .error e ∧ ∀ e', retrieval id H = .fail e' → e = e') := by
  generalize retrieval id H = p at h
  cases p with
  | wait => exact h.elim
  | fail e =>
      obtain ⟨rfl, rfl⟩ := h
      exact .inr ⟨rfl, .inr ⟨e, rfl, fun _ heq => Prospect.fail.inj heq⟩⟩
  | complete ack =>
      obtain ⟨rfl, rfl⟩ := h
      exact .inr ⟨rfl, .inl ⟨ack, rfl⟩⟩
  | confirm ack response =>
      rcases h with ⟨rfl, hconfirms⟩ | ⟨⟨e, rfl⟩, rfl⟩
      · exact .inl ⟨ack, response, rfl, hconfirms⟩
      · exact .inr ⟨rfl, .inr ⟨e, rfl, fun _ heq => nomatch heq⟩⟩

/-- What a call that asks for an attachment returns and sends. It has one deadline for both its
waits. Once it has returned, it has returned one result, which tells whether the first message
settled the request or the second delivered the attachment; a delivery has been confirmed by one
message, and otherwise nothing has been sent. At rest it has returned, if it has time no longer or
no more to wait for. -/
theorem Course.retrieves {body : AttachmentRequest} {i : Option String} {timeout : Option Duration}
    (hc : Reachable allowed c) (hallowed : allowed (.ask name (.attachment body) i timeout) c)
    (hask : Step (.ask name (.attachment body) i timeout) c c₀) (hr : (name, r) ∈ c₀.requests)
    (h : Course allowed name r.id c₀ H F d) :
    ((∀ j ∈ i, r.id = j)
      ∧ r.deadline = c.now + timeoutTicks (timeout.getD c.session.config.requestTimeout)
      ∧ ∀ q, (name, q) ∈ d.requests → q.id = r.id ∧ q.deadline = r.deadline)
    ∧ (d.returned name = [] → F = [])
    ∧ (∀ result ∈ d.returned name, d.returned name = [result]
      ∧ (∀ ack, result = .ok (.complete ack) ↔
        ∃ K, H = .message ack.header ⟨.attachmentRequestAck, ack.body⟩ :: K
          ∧ ¬AttachmentRequestAck.isPending ack.body)
      ∧ (∀ ack response, result = .ok (.delivered ack response) ↔ F ≠ []
        ∧ ∃ K, H = .message ack.header ⟨.attachmentRequestAck, ack.body⟩
            :: .message response.header ⟨.attachmentResponse, response.body⟩ :: K
          ∧ AttachmentRequestAck.isPending ack.body)
      ∧ ((∃ ack response, result = .ok (.delivered ack response) ∧ Confirms r.id response.body F)
        ∨ F = [] ∧ ((∃ ack, result = .ok (.complete ack))
          ∨ ∃ e, result = .error e ∧ ∀ e', retrieval r.id H = .fail e' → e = e')))
    ∧ (d.step? = none → retrieval r.id H ≠ .wait ∨ r.deadline ≤ d.now → d.returned name ≠ []) := by
  have hc₀ := hc.step hallowed hask
  have hd := (h.reachable hc₀).sound
  obtain ⟨hwaits, hstage, hgiven, hdeadline⟩ := hask.asked hc.sound hr
  have hretrieving := h.retrieving hc₀ hwaits hstage
  refine ⟨⟨hgiven, hdeadline, ?_⟩, ?_, ?_, hretrieving.returned_of_rest hd⟩
  · intro q hq
    cases hretrieving with
    | first waits _ =>
        obtain rfl := hd.eq_of_name hq waits.request
        exact ⟨rfl, rfl⟩
    | second _ waits _ hid deadline =>
        obtain rfl := hd.eq_of_name hq waits.request
        exact ⟨hid, deadline⟩
    | finished hover _ => exact absurd hq (hover.requests q)
  · intro hreturned
    cases hretrieving with
    | first | second => rfl
    | finished hover _ =>
        rw [hover.returned] at hreturned
        cases hreturned
  · intro result hresult
    cases hretrieving with
    | first waits _ | second _ waits _ _ _ =>
        rw [hd.unreturned waits.request] at hresult
        cases hresult
    | finished hover settles =>
        rw [hover.returned] at hresult ⊢
        cases List.mem_singleton.1 hresult
        exact ⟨rfl, fun _ => settles.complete_iff, fun _ _ => settles.delivered_iff, settles.sent⟩

/-- The frame that delivers the attachment. -/
def consignment : Bytes :=
  let result : Attachment :=
    { requestIds := ["i"], ownerTable := "t", attachmentId := "a", content := some [1] }
  let header := curious.session.header "i" .attachmentResponse
  let body : AttachmentResponse := ⟨result⟩
  (Message.encode header ⟨.attachmentResponse, body⟩).toOption.getD []

/-- A frame comes for a call, and the call goes on in time. -/
theorem Course.incoming_resumption (h : Course (fun _ _ => True) name id c₀ H F d)
    (hc : Reachable (fun _ _ => True) c₀) (frame : Bytes)
    (hpoll : ((d.incoming frame).pollFrom [] (d.incoming frame).requests).isSome)
    (honly : ∀ e ∈ (d.incoming frame).requests,
      e.1 = name ∧ (d.incoming frame).now < e.2.deadline) :
    ∃ K G, Course (fun _ _ => True) name id c₀ K G (d.incoming frame).resumption := by
  let m : Move := .signal (.binary frame)
  have hcome := Course.other (m := m) h trivial Move.noConfusion (.signal (.binary frame)) rfl
  obtain ⟨d', hd'⟩ := Option.isSome_iff_exists.1 hpoll
  obtain ⟨n, r, hr, hstep⟩ := Step.of_pollFrom rfl hd'
  obtain ⟨rfl, hdeadline⟩ := honly (n, r) hr
  obtain ⟨_, notes, _, hjournal⟩ := hstep.effect (hcome.reachable hc).sound
  have hresumption : (d.incoming frame).resumption = d' := by
    rw [resumption, hd']
    rfl
  rw [hresumption]
  refine ⟨_, _, .own hcome trivial hstep ?_ hjournal⟩
  rintro ⟨q, hq, _, hover⟩
  exact Nat.not_lt.2 hover (honly (n, q) hq).2

/-- The attachment was delivered. -/
def wasDelivered : Except ClientError Outcome → Bool
  | .ok (.delivered ..) => true
  | _ => false

theorem Course.retrieves_delivery : ∃ r d H F ack response, ("ask", r) ∈ curious.requests
    ∧ Course (fun _ _ => True) "ask" r.id curious H F d ∧ r.id = "i"
    ∧ d.returned "ask" = [.ok (.delivered ack response)]
    ∧ Confirms "i" response.body F
    ∧ ∃ K, H = .message ack.header ⟨.attachmentRequestAck, ack.body⟩
      :: .message response.header ⟨.attachmentResponse, response.body⟩ :: K := by
  have hask : Step (.ask "ask" (.attachment { request := "x" }) (some "i") none) greeted curious :=
    .ask _ _ _ (fun _ h => nomatch h) rfl
  have hc : Reachable (fun _ _ => True) greeted := reachable_greeted fun _ _ _ => trivial
  have hc₀ := hc.step trivial hask
  have hname : curious.requests.map (·.1) = ["ask"] := by decide +kernel
  obtain ⟨⟨_, r⟩, hr, hn⟩ := List.mem_map.1 (hname ▸ List.mem_singleton_self "ask")
  obtain rfl : "ask" = _ := hn.symm
  have hstart : Course (fun _ _ => True) "ask" r.id curious [] [] curious := .start
  obtain ⟨_, _, hfirst⟩ := hstart.incoming_resumption hc₀ announcement
    (by decide +kernel) (by decide +kernel)
  obtain ⟨H, F, hsecond⟩ := hfirst.incoming_resumption hc₀ consignment
    (by decide +kernel) (by decide +kernel)
  generalize hd : ((curious.incoming announcement).resumption.incoming consignment).resumption = d
    at hsecond
  have hdelivered : (d.returned "ask").map wasDelivered = [true] := by
    rw [← hd]
    decide +kernel
  obtain ⟨result, hresult, hkind⟩ := List.map_eq_singleton_iff.1 hdelivered
  obtain ⟨⟨hgiven, _⟩, _, hreturns, _⟩ := Course.retrieves hc trivial hask hr hsecond
  obtain ⟨_, _, hshape, hsent⟩ := hreturns result (hresult ▸ List.mem_singleton_self result)
  have hid : r.id = "i" := hgiven "i" rfl
  rcases hsent with ⟨ack, response, rfl, hconfirms⟩ | ⟨_, ⟨_, rfl⟩ | ⟨_, rfl, _⟩⟩
  · obtain ⟨_, K, hH, _⟩ := (hshape ack response).1 rfl
    rw [hid] at hconfirms
    exact ⟨r, d, H, F, ack, response, hr, hsecond, hid, hresult, hconfirms, K, hH⟩
  · cases hkind
  · cases hkind

end Client

end DataGateway

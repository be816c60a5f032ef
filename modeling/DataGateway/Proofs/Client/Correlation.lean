import DataGateway.Proofs.Client.Registry

/-!
# Calls and their answers

What a call that waits for one answer returns is fixed by the first thing that happens to it: the
first message under its id is its answer, of whatever type it is, and before that the end of the
session or of its time ends it without one. The call returns this when it goes on next, which it can
at once, and nothing that happens later, to it or to others, changes that. The message that answers
it is laid out for it alone, and one that comes when it has returned goes to the listener.
-/

namespace DataGateway

namespace Client

open Correlator (expectsFollowUp)

variable {c c₀ c' d d' : Client} {m : Move} {name : String} {r : Request} {type : DataType}
  {H : List Happening} {F : List Bytes} {allowed : Move → Client → Prop}

/-- What a call under an id that waits for an answer of a type returns if this happens to it first.
-/
def verdict (id : String) (type : DataType) : Happening → Except ClientError Outcome
  | .message header payload =>
    if payload.type = type then .ok (.answered header payload)
    else .error (.unexpectedReply id payload.type)
  | .ended => .error .connectionClosed
  | .expired => .error (.timeout id)

/-- A call to which something has happened can go on, and then it returns what that comes to. -/
theorem Waits.pollRequest_answer {x : Happening} (h : c.Waits name r (x :: H)) (hc : c.Sound)
    (hstage : r.stage = .answer type) :
    ∃ d, c.pollRequest r = some (.inl (verdict r.id type x), d) := by
  cases x with
  | message header payload =>
      obtain ⟨followUp, hready, _⟩ := h.shows.standing_message hc.tickets
      rw [pollRequest_of_ready hready, resolve_answer hstage]
      exact ⟨_, rfl⟩
  | ended =>
      rw [pollRequest_of_hopeless (h.shows.standing_ended hc.tickets)]
      exact ⟨c, rfl⟩
  | expired => exact h.shows.elim

/-- A call that waits for one answer has returned what the first thing comes to that has happened to
it, or it still waits. -/
theorem Course.answer (h : Course allowed name r.id c₀ H F d) (hc : Reachable allowed c₀)
    (hwaits : c₀.Waits name r []) (hstage : r.stage = .answer type) :
    d.Waits name r H ∨ ∃ x H', H = x :: H' ∧ d.Over name (verdict r.id type x) := by
  -- While it waits, the correlator tells the whole history; then the first of it stays.
  induction h with
  | start => exact .inl hwaits
  | other course _ other step journal ih =>
      have hd := (course.reachable hc).sound
      have heffect := step.effect_of_journal hd journal
      rcases ih with hw | ⟨x, H', rfl, hover⟩
      · exact .inl (hw.effect hd heffect other)
      · exact .inr ⟨x, H' ++ _, rfl, hover.effect heffect⟩
  | own course _ step timely _ ih =>
      have hd := (course.reachable hc).sound
      rcases ih with hw | ⟨_, _, _, hover⟩
      · obtain ⟨x, H', rfl⟩ := List.exists_cons_of_ne_nil (hw.ne_nil_of_resume hd step timely)
        obtain ⟨out, _, _, hpoll, _, _, _, hout⟩ := step.resumes hd hw.request
        obtain ⟨_, hverdict⟩ := hw.pollRequest_answer hd hstage
        rw [hverdict] at hpoll
        cases hpoll
        exact .inr ⟨x, H', rfl, hout⟩
      · exact absurd step (hover.not_resume hd)
  | expire course _ step due _ ih =>
      have hd := (course.reachable hc).sound
      rcases ih with hw | ⟨_, _, _, hover⟩
      · obtain ⟨rfl, _, hover⟩ := hw.expire hd step due
        exact .inr ⟨.expired, [], rfl, hover⟩
      · exact absurd step (hover.not_resume hd)

/-- A message under the id of a call to which nothing has happened is laid out for it, and concerns
neither another call nor the listener. -/
theorem Waits.receive (h : c.Waits name r []) (hc : c.Sound) {header : Header} (payload : Payload)
    (hid : header.messageId = r.id) (hreceive : c'.correlator = c.correlator.receive header payload)
    (hc' : c'.Sound) :
    (∃ res, res.header = header ∧ res.payload = payload
        ∧ c'.correlator.served = c.correlator.served ++ [(r.ticket, res)])
      ∧ c'.correlator.log = c.correlator.log
      ∧ ∀ n q, (n, q) ∈ c.requests → n ≠ name →
        c'.correlator.standing q.ticket = c.correlator.standing q.ticket := by
  have hw : c.correlator.waiters.get? header.messageId = some { ticket := r.ticket } := by
    rw [hid]
    exact h.shows
  obtain ⟨followUp, _, htaken⟩ := hc.tickets.receive_of_some hw payload
  rw [← hreceive] at htaken
  refine ⟨⟨_, rfl, rfl, htaken.served⟩, htaken.log, fun n q hq hne => ?_⟩
  have hagree := htaken.agree hc.tickets hw (held_of_mem hq) fun hticket =>
    hne (Prod.mk.inj (hc.eq_of_ticket hq h.request hticket)).1
  exact hagree.standing hc.tickets hc'.tickets

end Client

end DataGateway

import DataGateway.Proofs.Client.Correlation
import DataGateway.Proofs.Client.Ending
import DataGateway.Proofs.Message.Echo
import DataGateway.Proofs.Session.Sending
import Mathlib.Data.List.Chain

/-!
# Pages of a query

A caller that pages through the hits of a query asks for the page after the last one as long as that
says that there are more, and hands its context back. The context goes out as it came in: what the
service decodes is the context that it sent, but for dynamic strings that are no text, which it gets
back as binaries. So the i-th request for a next page carries the context of the i-th reply, and the
caller makes one call for each page up to the first that is the last.
-/

namespace DataGateway

open MessagePack (Value)

theorem Fragmentation.long_nonneg (n : Nat) : 0 ≤ long n := by
  unfold long
  split
  · rw [Int64.le_iff_toInt_le, Int64.toInt_ofNat_of_lt (by omega)]
    exact Int.natCast_nonneg n
  · decide

theorem Message.Carries.conveys {frames : List Bytes} {h : Header} {p : Payload}
    (hc : Carries frames h p) (hwhole : h.fragmentation = .whole none) (hp : p.Legible) :
    Conveys frames h (p.mapDynamic Value.normal) := by
  rcases hc with ⟨frame, hframe, rfl⟩ | ⟨unit, hsplit⟩
  · rw [← encode_mapDynamic Value.encode_normal] at hframe
    exact conveys_of_encode hp.fits_normal hframe
  · rw [← split_mapDynamic Value.encode_normal] at hsplit
    exact conveys_of_split hp.fits_normal hwhole hsplit

namespace Client

variable {c c' d : Client} {m : Move} {name : String} {r : Request} {H : List Happening}
  {F : List Bytes} {header : Header} {payload : Payload} {allowed : Move → Client → Prop}

/-! ### Where an answer comes from -/

/-- A call that returns in the step that makes it was refused. -/
theorem Effect.refused_of_returned {notes : List Note} (h : c.Effect m notes c')
    (hnone : ∀ q, (name, q) ∉ c.requests) (hunreturned : c.returned name = [])
    (hreturned : c'.returned name ≠ []) : ∃ e, c'.Over name (.error e) := by
  cases h with
  | heeded _ heeds => exact absurd ((heeds.returned name).trans hunreturned) hreturned
  | asked _ _ _ _ _ _ _ _ _ _ returned =>
      exact absurd ((returned name).trans hunreturned) hreturned
  | @refused name' _ _ _ e _ _ _ _ _ _ requests returned =>
      rw [returned, hunreturned, List.nil_append] at hreturned
      have hself : name' = name := by
        by_contra hne
        exact hreturned (if_neg hne)
      refine ⟨e, fun q hq => hnone q (requests ▸ hq), ?_⟩
      rw [returned, hunreturned, if_pos hself]
      rfl
  | @resumed name' r _ _ _ _ _ _ requests _ _ _ _ returned =>
      rw [returned, hunreturned, List.nil_append] at hreturned
      have hself : name' = name := by
        by_contra hne
        exact hreturned (if_neg hne)
      exact absurd ((mem_split requests).2 (.inl rfl)) (hself ▸ hnone r)

/-- A call that waits or has returned was refused, or it asked and has had its course since. -/
theorem Reachable.course (hc : Reachable allowed c)
    (hname : (∃ q, (name, q) ∈ c.requests) ∨ c.returned name ≠ []) :
    (∃ e, c.Over name (.error e)) ∨ ∃ c₀ r H F, Reachable allowed c₀ ∧ c₀.Waits name r []
      ∧ (∃ question : Question, r.stage = question.stage)
      ∧ Course allowed name r.id c₀ H F c := by
  induction hc with
  | fresh =>
      rcases hname with ⟨q, hq⟩ | hreturned
      · cases hq
      · exact absurd rfl hreturned
  | @step c c' m hc hm h ih =>
      obtain ⟨_, notes, heffect, _⟩ := h.effect hc.sound
      by_cases hold : (∃ q, (name, q) ∈ c.requests) ∨ c.returned name ≠ []
      · rcases ih hold with ⟨e, hover⟩ | ⟨c₀, r, H, F, hc₀, hwaits, hstage, hcourse⟩
        · exact .inl ⟨e, hover.effect heffect⟩
        · obtain ⟨K, G, hcourse'⟩ := hcourse.step hc₀ hm h
          exact .inr ⟨c₀, r, _, _, hc₀, hwaits, hstage, hcourse'⟩
      · obtain ⟨hnone, hunreturned⟩ := not_or.1 hold
        rcases hname with ⟨r, hr⟩ | hreturned
        · rcases heffect.mem_requests hr with hr | ⟨question, _, _, rfl, _⟩ | ⟨_, q, hq, _⟩
          · exact absurd ⟨r, hr⟩ hnone
          · obtain ⟨hwaits, hstage, _⟩ := h.asked hc.sound hr
            exact .inr ⟨c', r, [], [], hc.step hm h, hwaits, ⟨question, hstage⟩, .start⟩
          · exact absurd ⟨q, hq⟩ hnone
        · exact .inl (heffect.refused_of_returned (fun q hq => hnone ⟨q, hq⟩)
            (not_not.1 hunreturned) hreturned)

theorem eq_message_of_verdict {id : String} {type : DataType} {x : Happening}
    (h : verdict id type x = .ok (.answered header payload)) : x = .message header payload := by
  cases x with
  | ended | expired => cases h
  | message header' payload' =>
      by_cases htype : payload'.type = type
      · rw [show verdict id type (.message header' payload') = _ from if_pos htype] at h
        cases h
        rfl
      · rw [show verdict id type (.message header' payload') = _ from if_neg htype] at h
        cases h

/-- An answer that a call has returned came to it as a message. -/
theorem Reachable.genuine_of_answered (hc : Reachable allowed c)
    (h : .ok (.answered header payload) ∈ c.returned name) : Message.Genuine header payload := by
  have hreturned : c.returned name ≠ [] := List.ne_nil_of_mem h
  rcases hc.course (.inr hreturned) with ⟨e, hover⟩
    | ⟨c₀, r, H, F, hc₀, hwaits, ⟨question, hstage⟩, hcourse⟩
  · rw [hover.returned] at h
    cases List.mem_singleton.1 h
  · have waiting {q : Request} (hq : (name, q) ∈ c.requests) : Message.Genuine header payload := by
      rw [hc.sound.unreturned hq] at h
      cases h
    have answered {type : DataType} (htype : r.stage = .answer type) :
        Message.Genuine header payload := by
      rcases hcourse.answer hc₀ hwaits htype with hwaits' | ⟨x, K, hH, hover⟩
      · exact waiting hwaits'.request
      · rw [hover.returned, List.mem_singleton] at h
        obtain rfl := eq_message_of_verdict h.symm
        exact (hcourse.genuine hc₀ _ _ (hH ▸ List.mem_cons_self)).2
    cases question with
    | event | eventDocument | query | nextPage => exact answered hstage
    | attachment body =>
        cases hcourse.retrieving hc₀ hwaits hstage with
        | first waits | second _ waits => exact waiting waits.request
        | finished hover settles =>
            rw [hover.returned, List.mem_singleton] at h
            subst h
            rcases settles.sent with ⟨_, _, hresult, _⟩ | ⟨_, ⟨_, hresult⟩ | ⟨_, hresult, _⟩⟩ <;>
              cases hresult

/-! ### Asking for the next page -/

/-- The client has asked for the page after the one that carried this context: what it has sent is
one request, and the context that the service gets in it is this one in normal form. -/
def Echoes (c : Client) (name : String) (context : QueryContext) (c' : Client) : Prop :=
  ∃ r frames header timeout, (name, r) ∈ c'.requests ∧ c'.journal = c.journal ++ frames.map .sent
    ∧ header.messageId = r.id ∧ header.dataType = .nextQueryPage ∧ frames ≠ []
    ∧ Message.Conveys frames header
      ⟨.nextQueryPage, (⟨context.mapDynamic Value.normal, timeout⟩ : NextQueryPage)⟩

/-- A request that is asked is transmitted, or the call ends at once and nothing is. -/
theorem Step.transmits {question : Question} {id : Option String} {timeout : Option Duration}
    (h : Step (.ask name question id timeout) c c') (hc : c.Sound) :
    (∃ e, c'.Over name (.error e)) ∧ c'.journal = c.journal
      ∨ ∃ r frames payload, (name, r) ∈ c'.requests ∧ c'.journal = c.journal ++ frames.map .sent
        ∧ payload = question.payload (timeout.getD c.session.config.requestTimeout)
        ∧ Message.Carries frames (c.session.header r.id payload.type) payload := by
  cases h with
  | ask _ _ _ unused unreturned =>
      rcases ask_cases hc name question id timeout with
        ⟨_, _, serial, frames, link, hframes, heq⟩ | ⟨e, serial, drawn, _, heq⟩
      · rw [heq]
        refine .inr ⟨c.requestOf question id timeout, frames, _, ?_, rfl, rfl, ?_⟩
        · exact List.mem_append_right _ (List.mem_singleton_self _)
        · exact Session.carries_of_framesOf hframes
      · rw [heq]
        exact .inl ⟨⟨e, unused, returned_requested_self unreturned _⟩, rfl⟩

/-- Nothing stands in the way of a request under the id: the session is logged in over an open link,
the id is free and can be sent, and the payload can be announced if messages travel in slices. -/
structure Ready (c : Client) (id : String) (payload : Payload) : Prop where
  loggedIn : c.session.phase = .loggedIn
  opened : c.session.link.attached ∧ c.session.link.served
  free : c.correlator.waiters.get? id = none
  sendable : (c.session.header id payload.type).Sendable
  small : c.session.unit ≠ none → ∀ bytes, payload.encode = .ok bytes → bytes.length < 2 ^ 32

/-- Under an id that is ready every payload that was read is dispatched. -/
theorem Ready.dispatch {id : String} (h : c.Ready id payload) (hs : c.session.Sliceable)
    (hp : payload.Legible) (deadline : Nat) (stage : Stage) :
    ∃ r d, c.dispatch id deadline stage payload = (.ok r, d) := by
  have hpair : Message.checkPair (c.session.header id payload.type) payload = .ok () :=
    Message.checkPair_eq_ok.2 ⟨rfl, rfl⟩
  obtain ⟨frames, hframes⟩ := hs.exists_framesOf h.sendable hpair hp h.small
  have hsent := Session.send_of_open h.loggedIn h.opened hframes
  unfold Client.dispatch
  rw [Correlator.register_of_none h.free]
  dsimp only [send]
  generalize c.session.send (c.session.header id payload.type) payload = x at hsent ⊢
  obtain ⟨_ | _, s⟩ := x
  · cases hsent
  · exact ⟨_, _, rfl⟩

theorem Reachable.sliceable (hc : Reachable allowed c) : c.session.Sliceable := by
  induction hc with
  | fresh => exact fun _ h => by cases h
  | step hc _ h ih =>
      obtain ⟨_, s, hstep, hs, _⟩ := h.session hc.sound
      rw [hs]
      exact hstep.sliceable ih

/-- A request that is ready is asked. -/
theorem Step.asks {question : Question} {id : Option String} {timeout : Option Duration}
    (h : Step (.ask name question id timeout) c c') (hc : Reachable allowed c)
    (hp : (question.payload (timeout.getD c.session.config.requestTimeout)).Legible)
    (hready : c.Ready (c.idOf id)
      (question.payload (timeout.getD c.session.config.requestTimeout))) :
    ∃ r, (name, r) ∈ c'.requests := by
  cases h with
  | ask =>
      obtain ⟨serial, heq⟩ := ask_eq c name question id timeout
      have hready' : Ready { c with session.serial := serial } (c.idOf id)
          (question.payload (timeout.getD c.session.config.requestTimeout)) := { hready with }
      obtain ⟨r, d, hok⟩ := hready'.dispatch hc.sliceable hp
        (c.now + timeoutTicks (timeout.getD c.session.config.requestTimeout)) question.stage
      rw [hok] at heq
      rw [heq]
      exact ⟨r, List.mem_append_right _ (List.mem_singleton_self _)⟩

/-- Asking for the page after one that has come echoes its context, unless the call ends at once and
nothing is sent; if the request is ready, it does. -/
theorem Step.echoes {first : String} {ack : QueryRequestAck} {context : QueryContext}
    {id : Option String} {timeout : Option Duration}
    (h : Step (.ask name (.nextPage context) id timeout) c c') (hc : Reachable allowed c)
    (hreply : .ok (.answered header ⟨.queryRequestAck, ack⟩) ∈ c.returned first)
    (hcontext : QueryRequestAck.context ack = some context) :
    (c.Echoes name context c' ∨ (∃ e, c'.Over name (.error e)) ∧ c'.journal = c.journal)
    ∧ (c.Ready (c.idOf id) ((Question.nextPage context).payload
        (timeout.getD c.session.config.requestTimeout)) → c.Echoes name context c') := by
  have hlegible : ((Question.nextPage context).payload
      (timeout.getD c.session.config.requestTimeout)).Legible :=
    (hc.genuine_of_answered hreply).legible.nextPage hcontext (Fragmentation.long_nonneg _)
  rcases h.transmits hc.sound with ⟨⟨e, hover⟩, hjournal⟩
    | ⟨r, frames, payload, hr, hjournal, rfl, hcarries⟩
  · refine ⟨.inr ⟨⟨e, hover⟩, hjournal⟩, fun hready => ?_⟩
    obtain ⟨r, hr⟩ := h.asks hc hlegible hready
    exact absurd hr (hover.requests r)
  · have hechoes : c.Echoes name context c' :=
      ⟨r, frames, _, _, hr, hjournal, rfl, rfl, hcarries.ne_nil, hcarries.conveys rfl hlegible⟩
    exact ⟨.inl hechoes, fun _ => hechoes⟩

/-! ### Page after page -/

/-- What a caller asks next that has begun with a query and got these pages: the page after the last
one, as long as that says that there is one. -/
def asksNext (query : QueryRequest) (pages : List QueryRequestAck) : Option Question :=
  match pages.getLast? with
  | none => some (.query query)
  | some ack =>
    if QueryRequestAck.hasMorePages ack then (QueryRequestAck.context ack).map .nextPage else none

/-- A call that has brought a page: the client before it and after it has sent its request. -/
structure Visit where
  before : Client
  name : String
  question : Question
  after : Client
  ack : QueryRequestAck

/-- The one page says that there are more, and the other call asks for the page after it: its
request carries the context that the first page came with. -/
def Visit.Leads (v w : Visit) : Prop :=
  QueryRequestAck.hasMorePages v.ack ∧ ∃ context, QueryRequestAck.context v.ack = some context
    ∧ w.question = .nextPage context ∧ w.before.Echoes w.name context w.after

/-- A caller has asked for page after page and got these. While it waits, and until it makes its
next call, anything may happen to the client that is allowed. -/
inductive Browses (allowed : Move → Client → Prop) (query : QueryRequest) (c : Client) :
    List Visit → Client → Prop
  | start : Browses allowed query c [] c
  | page {visits : List Visit} {d d' e : Client} {name : String} {question : Question}
      {id : Option String} {timeout : Option Duration} {header : Header} {ack : QueryRequestAck}
      (browses : Browses allowed query c visits d)
      (asks : asksNext query (visits.map (·.ack)) = some question)
      (ok : allowed (.ask name question id timeout) d)
      (ask : Step (.ask name question id timeout) d d') (run : Run allowed d' e)
      (returned : e.returned name = [.ok (.answered header ⟨.queryRequestAck, ack⟩)]) :
      Browses allowed query c (visits ++ [⟨d, name, question, d', ack⟩]) e

theorem exists_context_of_hasMorePages {ack : QueryRequestAck}
    (h : QueryRequestAck.hasMorePages ack) :
    ∃ context, QueryRequestAck.context ack = some context := by
  obtain ⟨_, hmore⟩ := (Bool.and_eq_true_iff).1 h
  obtain ⟨page, hpage, _⟩ := (Option.any_eq_true _ _).1 hmore
  exact ⟨page.context, Option.map_eq_some_iff.2 ⟨page, hpage, rfl⟩⟩

theorem Run.over {result : Except ClientError Outcome} (h : Run allowed c d) (hc : c.Sound)
    (hover : c.Over name result) : d.Over name result := by
  suffices d.Sound ∧ d.Over name result from this.2
  induction h with
  | refl => exact ⟨hc, hover⟩
  | tail _ hstep ih =>
      obtain ⟨m, _, hstep⟩ := hstep
      obtain ⟨_, notes, heffect, _⟩ := hstep.effect ih.1
      exact ⟨hstep.sound ih.1, ih.2.effect heffect⟩

theorem Browses.reachable {query : QueryRequest} {visits : List Visit}
    (h : Browses allowed query c visits d) (hc : Reachable allowed c) : Reachable allowed d := by
  induction h with
  | start => exact hc
  | page _ _ ok ask run _ ih => exact run.reachable (ih.step ok ask)

/-- The page that a caller got last has been returned. -/
theorem Browses.returned_last {query : QueryRequest} {visits : List Visit}
    (h : Browses allowed query c visits d) {v : Visit} (hv : visits.getLast? = some v) :
    ∃ name header, .ok (.answered header ⟨.queryRequestAck, v.ack⟩) ∈ d.returned name := by
  cases h with
  | start => cases hv
  | @page _ _ _ _ name _ _ _ header _ _ _ _ _ _ returned =>
      rw [List.getLast?_concat] at hv
      cases hv
      exact ⟨name, header, returned ▸ List.mem_singleton_self _⟩

theorem asksNext_of_getLast {query : QueryRequest} {pages : List QueryRequestAck}
    {ack : QueryRequestAck} (h : pages.getLast? = some ack) : asksNext query pages
      = if QueryRequestAck.hasMorePages ack then (QueryRequestAck.context ack).map .nextPage
        else none := by
  rw [asksNext, h]

theorem Browses.leads {query : QueryRequest} {visits : List Visit}
    (h : Browses allowed query c visits d) (hc : Reachable allowed c) :
    visits.IsChain Visit.Leads := by
  induction h with
  | start => exact .nil
  | @page visits d d' e name question id timeout header ack browses asks ok ask run returned ih =>
      refine List.isChain_append.2 ⟨ih, .singleton _, ?_⟩
      rintro v hv _ ⟨⟩
      have hd := browses.reachable hc
      rw [asksNext_of_getLast (by rw [List.getLast?_map, hv]; rfl)] at asks
      obtain ⟨hmore, hnext⟩ := Option.ite_none_right_eq_some.1 asks
      obtain ⟨context, hcontext, rfl⟩ := Option.map_eq_some_iff.1 hnext
      refine ⟨hmore, context, hcontext, rfl, ?_⟩
      obtain ⟨first, header', hreply⟩ := browses.returned_last hv
      -- The call has an answer, so it was not refused.
      rcases (ask.echoes hd hreply hcontext).1 with hechoes | ⟨⟨error, hover⟩, _⟩
      · exact hechoes
      · have hlater := run.over (ask.sound hd.sound) hover
        rw [hlater.returned] at returned
        cases returned

/-- The law of paging. Whoever hands the context of a page back that was returned asks for the page
after it, as soon as nothing stands in the way: one request goes out, and what the service decodes
of it is that context, with every string in the continuation values that is no text turned into a
binary; so it is the same if and only if there is none. A caller that goes on as long as there are
more pages sends in each request the context of the page before, and makes as many calls as there
are pages up to the first that says that there are no more. -/
theorem Reachable.echoes_contexts (hc : Reachable allowed c) :
    (∀ first header ack context name id timeout c',
      .ok (.answered header ⟨.queryRequestAck, ack⟩) ∈ c.returned first →
      QueryRequestAck.context ack = some context →
      Step (.ask name (.nextPage context) id timeout) c c' →
      (c.Echoes name context c' ∨ (∃ e, c'.Over name (.error e)) ∧ c'.journal = c.journal)
      ∧ (c.Ready (c.idOf id) ((Question.nextPage context).payload
          (timeout.getD c.session.config.requestTimeout)) → c.Echoes name context c')
      ∧ (context.mapDynamic Value.normal = context ↔ ∀ v ∈ context.fieldValues, v.Textual))
    ∧ ∀ query visits d, Browses allowed query c visits d →
      (∀ i (h : i + 1 < visits.length), Visit.Leads visits[i] visits[i + 1])
      ∧ (∀ n (h : n < visits.length), ¬QueryRequestAck.hasMorePages visits[n].ack →
        visits.length = n + 1 ∧ asksNext query (visits.map (·.ack)) = none)
      ∧ ∀ v, visits.getLast? = some v → QueryRequestAck.hasMorePages v.ack →
        ∃ context, QueryRequestAck.context v.ack = some context
          ∧ asksNext query (visits.map (·.ack)) = some (.nextPage context) := by
  refine ⟨fun first header ack context name id timeout c' hreply hcontext hask => ?_,
    fun query visits d hbrowses => ?_⟩
  · obtain ⟨hasked, hready⟩ := hask.echoes hc hreply hcontext
    exact ⟨hasked, hready, QueryContext.mapDynamic_normal_iff⟩
  · have hleads := List.isChain_iff_getElem.1 (hbrowses.leads hc)
    refine ⟨hleads, fun n h hlast => ?_, fun v hv hmore => ?_⟩
    · have hlength : visits.length = n + 1 := by
        by_contra hne
        exact hlast (hleads n (by omega)).1
      have hpage : (visits.map (·.ack)).getLast? = some visits[n].ack := by
        simp [List.getLast?_eq_getElem?, hlength]
      refine ⟨hlength, ?_⟩
      rw [asksNext_of_getLast hpage, if_neg hlast]
    · obtain ⟨context, hcontext⟩ := exists_context_of_hasMorePages hmore
      have hpage : (visits.map (·.ack)).getLast? = some v.ack := by
        rw [List.getLast?_map, hv]
        rfl
      refine ⟨context, hcontext, ?_⟩
      rw [asksNext_of_getLast hpage, if_pos hmore, hcontext]
      rfl

/-- A client that has asked a query and waits. -/
def inquiring : Client := greeted.ask "ask" (.query { selectString := "x" }) (some "i") none

/-- The frame that answers the query with a page before others. The one continuation value is a
string of this octet. -/
def pageReply (octet : UInt8) : Bytes :=
  let context : QueryContext :=
    { scrollId := "s", query := "x", deliveredHits := 1, queryStartTime := 2, consistency := .none
      node := ⟨"c", "n"⟩, fieldValues := [.string [0x7e]], partitionNames := [] }
  let page : QueryPage := ⟨0, 0, true, context, [], []⟩
  let ack : QueryRequestAck := .withBody .ok { status := .ok, result := some page }
  let header := inquiring.session.header "i" .queryRequestAck
  let frame := (Message.encode header ⟨.queryRequestAck, ack⟩).toOption.getD []
  frame.map fun b => if b = 0x7e then octet else b

/-- The client that has got the page. -/
def leafing (octet : UInt8) : Client := (inquiring.incoming (pageReply octet)).settle

/-- The context that an answer came with. -/
def contextOf : Except ClientError Outcome → Option QueryContext
  | .ok (.answered _ payload) => (payload.body? .queryRequestAck).bind QueryRequestAck.context
  | _ => none

theorem contextOf_eq_some {result : Except ClientError Outcome} {context : QueryContext}
    (h : contextOf result = some context) : ∃ header ack,
      result = .ok (.answered header ⟨.queryRequestAck, ack⟩)
        ∧ QueryRequestAck.context ack = some context := by
  unfold contextOf at h
  split at h
  · rename_i header payload
    obtain ⟨ack, hack, hcontext⟩ := Option.bind_eq_some_iff.1 h
    obtain rfl := Payload.body?_eq_some.1 hack
    exact ⟨header, ack, rfl, hcontext⟩
  · cases h

theorem reachable_leafing (octet : UInt8) : Reachable (fun _ _ => True) (leafing octet) := by
  have hgreeted : Reachable (fun _ _ => True) greeted := reachable_greeted fun _ _ _ => trivial
  have hinquiring : Reachable (fun _ _ => True) inquiring :=
    hgreeted.step trivial (.ask _ _ _ (fun _ h => nomatch h) rfl)
  have hanswered : Reachable (fun _ _ => True) (inquiring.incoming (pageReply octet)) :=
    hinquiring.step trivial (.signal _)
  exact hanswered.settle fun _ _ _ => trivial

/-- The page has come, and its context is a text or not, as the octet is. -/
theorem returned_leafing {octet : UInt8} (h : octet ∈ [0x61, 0xff]) : ∃ header ack context,
    .ok (.answered header ⟨.queryRequestAck, ack⟩) ∈ (leafing octet).returned "ask"
      ∧ QueryRequestAck.context ack = some context
      ∧ ((∀ v ∈ context.fieldValues, v.Textual) ↔ octet = 0x61) := by
  have hcontexts : ∀ octet ∈ ([0x61, 0xff] : List UInt8),
      ((leafing octet).returned "ask").map (fun result => (contextOf result).map fun context =>
        decide (∀ v ∈ context.fieldValues, v.Textual)) = [some (decide (octet = 0x61))] := by
    decide +kernel
  obtain ⟨result, hresult, hmap⟩ := List.map_eq_singleton_iff.1 (hcontexts octet h)
  obtain ⟨context, hcontext, htextual⟩ := Option.map_eq_some_iff.1 hmap
  obtain ⟨header, ack, rfl, hack⟩ := contextOf_eq_some hcontext
  exact ⟨header, ack, context, hresult ▸ List.mem_singleton_self _, hack,
    decide_eq_decide.1 htextual⟩

/-- The client can ask for the next page. -/
theorem ready_leafing {octet : UInt8} (h : octet ∈ [0x61, 0xff]) (context : QueryContext)
    (timeout : Duration) : (leafing octet).Ready "j" ((Question.nextPage context).payload timeout)
      ∧ ∃ c', Step (.ask "next" (.nextPage context) (some "j") none) (leafing octet) c' := by
  have hfacts : ∀ octet ∈ ([0x61, 0xff] : List UInt8), (leafing octet).session.phase = .loggedIn
      ∧ ((leafing octet).session.link.attached ∧ (leafing octet).session.link.served)
      ∧ ((leafing octet).correlator.waiters.get? "j").isNone
      ∧ (Text.octets (leafing octet).session.config.userName).length < 2 ^ 32
      ∧ (leafing octet).session.unit.isNone ∧ (leafing octet).requests.isEmpty
      ∧ ((leafing octet).returned "next").isEmpty := by
    decide +kernel
  obtain ⟨hphase, hopen, hfree, huser, hunit, hrequests, hreturned⟩ := hfacts octet h
  refine ⟨⟨hphase, hopen, Option.isNone_iff_eq_none.1 hfree, ⟨?_, ?_, huser⟩, fun hsome => ?_⟩, _,
    .ask _ _ _ (fun r hr => ?_) (List.isEmpty_iff.1 hreturned)⟩
  · exact show "j" ≠ "" by decide
  · exact show (Text.octets "j").length < 2 ^ 32 by decide
  · exact absurd (Option.isNone_iff_eq_none.1 hunit) hsome
  · rw [List.isEmpty_iff.1 hrequests] at hr
    cases hr

theorem Reachable.echoes_contexts_textual : ∃ header ack context c',
    .ok (.answered header ⟨.queryRequestAck, ack⟩) ∈ (leafing 0x61).returned "ask"
      ∧ QueryRequestAck.context ack = some context
      ∧ Step (.ask "next" (.nextPage context) (some "j") none) (leafing 0x61) c'
      ∧ (leafing 0x61).Echoes "next" context c' ∧ context.mapDynamic Value.normal = context := by
  have hmem : (0x61 : UInt8) ∈ ([0x61, 0xff] : List UInt8) := by decide
  obtain ⟨header, ack, context, hreply, hcontext, htextual⟩ := returned_leafing hmem
  obtain ⟨hready, c', hask⟩ := ready_leafing hmem context
    ((none : Option Duration).getD (leafing 0x61).session.config.requestTimeout)
  obtain ⟨hpage, _⟩ := Reachable.echoes_contexts (reachable_leafing 0x61)
  obtain ⟨_, hechoes, hsame⟩ := hpage _ _ _ _ _ _ _ _ hreply hcontext hask
  exact ⟨header, ack, context, c', hreply, hcontext, hask, hechoes hready,
    hsame.2 (htextual.2 rfl)⟩

/-- A continuation value that is a string and no text, and the service gets another one back. -/
theorem Reachable.echoes_contexts_tattered : ∃ header ack context c' frames header' body,
    .ok (.answered header ⟨.queryRequestAck, ack⟩) ∈ (leafing 0xff).returned "ask"
      ∧ QueryRequestAck.context ack = some context
      ∧ Step (.ask "next" (.nextPage context) (some "j") none) (leafing 0xff) c'
      ∧ c'.journal = (leafing 0xff).journal ++ frames.map .sent ∧ frames ≠ []
      ∧ Message.Conveys frames header' ⟨.nextQueryPage, body⟩
      ∧ NextQueryPage.context body ≠ context := by
  have hmem : (0xff : UInt8) ∈ ([0x61, 0xff] : List UInt8) := by decide
  obtain ⟨header, ack, context, hreply, hcontext, htextual⟩ := returned_leafing hmem
  obtain ⟨hready, c', hask⟩ := ready_leafing hmem context
    ((none : Option Duration).getD (leafing 0xff).session.config.requestTimeout)
  obtain ⟨_, frames, header', _, _, hjournal, _, _, hne, hconveys⟩ :=
    (hask.echoes (reachable_leafing 0xff) hreply hcontext).2 hready
  refine ⟨header, ack, context, c', frames, header', _, hreply, hcontext, hask, hjournal, hne,
    hconveys, fun hsame => ?_⟩
  have hoctet := htextual.1 (QueryContext.mapDynamic_normal_iff.1 hsame)
  revert hoctet
  decide

end Client

end DataGateway

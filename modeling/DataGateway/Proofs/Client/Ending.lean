import DataGateway.Proofs.Client.Attachment
import DataGateway.Proofs.Client.Inner

/-!
# The end of a session

When a session ends, by the closing signal or by a call that closes, nothing waits any more. A call
whose waiter was registered then returns that the connection has closed, even if its time was over
already, and one to which its message had come returns what that message determines: `determined`
reads either off what has happened to the call, and later happenings do not change it. Whoever asks
afterwards is told that nobody is logged in.
-/

namespace DataGateway.Client

open Relation (ReflTransGen)

variable {c c' d : Client} {m : Move} {name : String} {r : Request} {H K : List Happening}
  {result : Except ClientError Outcome} {allowed : Move → Client → Prop}

/-- Steps that are allowed lead from one client to the other. -/
def Run (allowed : Move → Client → Prop) : Client → Client → Prop :=
  ReflTransGen fun c c' => ∃ m, allowed m c ∧ Step m c c'

/-- The step takes the closing signal, or gives a call that closes its turn. -/
def Ends (c : Client) : Move → Prop
  | .signal .closed => True
  | .turn => ∃ name, c.queue.head? = some (name, .close)
  | _ => False

/-- The waiter of a call is registered: the one that it waits on, or the one that it will wait on
when it has fetched the announcement that is laid out for it. -/
def Awaits (c : Client) (r : Request) : Prop :=
  c.correlator.waiters.get? r.id = some { ticket := r.ticket }
    ∨ r.stage = .attachment ∧ ∃ header body next,
      (r.ticket, ⟨header, ⟨.attachmentRequestAck, body⟩, some next⟩) ∈ c.correlator.served
        ∧ c.correlator.waiters.get? r.id = some { ticket := next }

/-- However the client goes on, the call returns this and nothing else: it can on its own, and at
rest it has. -/
structure Returns (allowed : Move → Client → Prop) (c : Client) (name : String)
    (result : Except ClientError Outcome) : Prop where
  only : ∀ d, Run allowed c d → d.returned name = [] ∨ d.returned name = [result]
  progress : ∀ d, Run allowed c d →
    ∃ e, ReflTransGen (Step (.resume name)) d e ∧ e.returned name = [result]
  rest : ∀ d, Run allowed c d → d.step? = none → d.returned name = [result]

/-! ### What is determined -/

/-- What a call ends with that has this to do, if it has nothing to send. -/
def Prospect.outcome : Prospect → Option (Except ClientError Outcome)
  | .wait | .confirm .. => none
  | .fail e => some (.error e)
  | .complete ack => some (.ok (.complete ack))

/-- What a call returns when this has happened to it, if it is over then and owes no answer. -/
def determined (r : Request) (H : List Happening) : Option (Except ClientError Outcome) :=
  match r.stage with
  | .answer type => H.head?.map (verdict r.id type)
  | .attachment => (retrieval r.id H).outcome
  | .delivery ack => (delivery r.id ack H).outcome

theorem determined_nil (r : Request) : determined r [] = none := by
  unfold determined
  split <;> rfl

theorem ne_nil_of_determined (h : determined r H = some result) : H ≠ [] := by
  rintro rfl
  rw [determined_nil] at h
  cases h

theorem determined_append (h : determined r H = some result) (K : List Happening) :
    determined r (H ++ K) = some result := by
  cases hstage : r.stage with
  | answer type =>
      obtain ⟨x, H, rfl⟩ := List.exists_cons_of_ne_nil (ne_nil_of_determined h)
      simp only [determined, hstage] at h ⊢
      exact h
  | attachment =>
      simp only [determined, hstage] at h ⊢
      rwa [retrieval_append]
      intro hwait
      rw [hwait] at h
      cases h
  | delivery ack =>
      simp only [determined, hstage] at h ⊢
      rwa [delivery_append]
      intro hwait
      rw [hwait] at h
      cases h

theorem Settles.eq_result {id : String} {F : List Bytes} {p : Prospect}
    {result' : Except ClientError Outcome} (h : Settles id result' F p)
    (hp : p.outcome = some result) : result' = result := by
  cases p with
  | wait | confirm => cases hp
  | fail e | complete ack =>
      cases hp
      exact h.1

/-- When a call goes on whose end is determined, it ends so, or its end stays determined. -/
theorem Waits.resume_determined (h : c.Waits name r H) (hc : c.Sound)
    (hstep : Step (.resume name) c c') (hresult : determined r H = some result) :
    c'.Over name result ∨ ∃ r' H', c'.Waits name r' H' ∧ H'.length < H.length
      ∧ determined r' H' = some result := by
  obtain ⟨x, H, rfl⟩ := List.exists_cons_of_ne_nil (ne_nil_of_determined hresult)
  obtain ⟨out, _, _, hpoll, _, _, _, hout⟩ := hstep.resumes hc h.request
  cases hstage : r.stage with
  | answer type =>
      obtain ⟨_, hverdict⟩ := h.pollRequest_answer hc hstage
      simp only [determined, hstage] at hresult
      cases hresult
      rw [hverdict] at hpoll
      cases hpoll
      exact .inl hout
  | delivery ack =>
      obtain ⟨_, _, _, hpoll', _, hsettles⟩ := h.pollRequest_second hc hstage
      simp only [determined, hstage] at hresult
      rw [hpoll'] at hpoll
      cases hpoll
      exact .inl (hsettles.eq_result hresult ▸ hout)
  | attachment =>
      obtain ⟨_, _, hpoll', _, hcase⟩ := h.pollRequest_first hc hstage
      simp only [determined, hstage] at hresult
      rw [hpoll'] at hpoll
      cases hpoll
      cases out with
      | inl result' => exact .inl (hcase.eq_result hresult ▸ hout)
      | inr q =>
          obtain ⟨ack, rfl, hpending, hdelivery⟩ := hcase
          rcases h.resume hc hstep with ⟨_, hover⟩ | ⟨q', _, _, _, hH, hid, _, hwaits⟩
          · exact absurd hout (hover.requests q)
          · obtain rfl := (hstep.sound hc).eq_of_name hout hwaits.request
            cases hH
            refine .inr ⟨q, H, hwaits, Nat.lt_succ_self _, ?_⟩
            rw [retrieval_of_ack, if_pos hpending] at hresult
            simp only [determined, hdelivery, hid]
            exact hresult

/-- A call whose end is determined can go on. -/
theorem Waits.exists_resume (h : c.Waits name r H) (hc : c.Sound)
    (hresult : determined r H = some result) : ∃ c', Step (.resume name) c c' := by
  obtain ⟨before, after, hrequests⟩ := List.append_of_mem h.request
  obtain ⟨out, d, hpoll⟩ : ∃ out d, c.pollRequest r = some (out, d) := by
    obtain ⟨x, H, rfl⟩ := List.exists_cons_of_ne_nil (ne_nil_of_determined hresult)
    cases hstage : r.stage with
    | answer type =>
        obtain ⟨_, hpoll⟩ := h.pollRequest_answer hc hstage
        exact ⟨_, _, hpoll⟩
    | attachment =>
        obtain ⟨_, _, hpoll, _⟩ := h.pollRequest_first hc hstage
        exact ⟨_, _, hpoll⟩
    | delivery ack =>
        obtain ⟨_, _, _, hpoll, _⟩ := h.pollRequest_second hc hstage
        exact ⟨_, _, hpoll⟩
  cases out with
  | inl _ => exact ⟨_, .returned hrequests hpoll⟩
  | inr _ => exact ⟨_, .kept hrequests hpoll⟩

/-- The call has returned this, or what has happened to it determines it. -/
def Bound (c : Client) (name : String) (result : Except ClientError Outcome) : Prop :=
  c.Over name result ∨ ∃ r H, c.Waits name r H ∧ determined r H = some result

theorem Bound.step (h : c.Bound name result) (hc : c.Sound) (hstep : Step m c c') :
    c'.Bound name result := by
  obtain ⟨_, notes, heffect, _⟩ := hstep.effect hc
  rcases h with hover | ⟨r, H, hwaits, hresult⟩
  · exact .inl (hover.effect heffect)
  · by_cases hown : m = .resume name
    · subst hown
      rcases hwaits.resume_determined hc hstep hresult with hover | ⟨r', H', hwaits', _, hresult'⟩
      · exact .inl hover
      · exact .inr ⟨r', H', hwaits', hresult'⟩
    · exact .inr ⟨r, _, hwaits.effect hc heffect hown, determined_append hresult _⟩

theorem Bound.progress (h : c.Bound name result) (hc : c.Sound) :
    ∃ e, ReflTransGen (Step (.resume name)) c e ∧ e.returned name = [result] := by
  rcases h with hover | ⟨r, H, hwaits, hresult⟩
  · exact ⟨c, .refl, hover.returned⟩
  · -- Each time the call goes on without an end, less is left of its history.
    induction hn : H.length using Nat.strong_induction_on generalizing c r H with
    | _ n ih =>
      obtain ⟨c', hstep⟩ := hwaits.exists_resume hc hresult
      rcases hwaits.resume_determined hc hstep hresult with hover | ⟨r', H', hwaits', hlt, hresult'⟩
      · exact ⟨c', .single hstep, hover.returned⟩
      · obtain ⟨e, hrun, he⟩ := ih _ (hn ▸ hlt) (hstep.sound hc) r' H' hwaits' hresult' rfl
        exact ⟨e, .head hstep hrun, he⟩

theorem Bound.returned (h : c.Bound name result) (hc : c.Sound) :
    (c.returned name = [] ∨ c.returned name = [result])
      ∧ (c.step? = none → c.returned name = [result]) := by
  rcases h with hover | ⟨r, H, hwaits, hresult⟩
  · exact ⟨.inr hover.returned, fun _ => hover.returned⟩
  · refine ⟨.inl (hc.unreturned hwaits.request), fun hrest => ?_⟩
    rw [hwaits.eq_nil_of_rest hc hrest, determined_nil] at hresult
    cases hresult

theorem Run.reachable (h : Run allowed c d) (hc : Reachable allowed c) : Reachable allowed d := by
  induction h with
  | refl => exact hc
  | tail _ hstep ih =>
      obtain ⟨m, hm, hstep⟩ := hstep
      exact ih.step hm hstep

theorem Bound.returns (h : c.Bound name result) (hc : Reachable allowed c) :
    Returns allowed c name result := by
  have later : ∀ d, Run allowed c d → d.Sound ∧ d.Bound name result := by
    intro d hrun
    induction hrun with
    | refl => exact ⟨hc.sound, h⟩
    | tail _ hstep ih =>
        obtain ⟨m, _, hstep⟩ := hstep
        exact ⟨hstep.sound ih.1, ih.2.step ih.1 hstep⟩
  refine ⟨fun d hrun => ?_, fun d hrun => ?_, fun d hrun => ?_⟩
  · obtain ⟨hd, hbound⟩ := later d hrun
    exact (hbound.returned hd).1
  · obtain ⟨hd, hbound⟩ := later d hrun
    exact hbound.progress hd
  · obtain ⟨hd, hbound⟩ := later d hrun
    exact (hbound.returned hd).2

/-! ### The step that ends a session -/

/-- The end of the session is the first thing that happens to a call whose waiter is registered, or
comes after the announcement alone. -/
theorem Waits.determined_ended (h : c.Waits name r H) (hc : c.Sound) (hawaits : c.Awaits r) :
    determined r (H ++ [.ended]) = some (.error .connectionClosed) := by
  rcases hawaits with hwaiter | ⟨hstage, header, body, next, hserved, hwaiter⟩
  · obtain rfl := h.shows.eq_nil hc.tickets (hc.tickets.standing_waiting hwaiter)
    unfold determined
    split <;> rfl
  · cases H with
    | nil => exact absurd hserved (hc.tickets.waiter_unserved h.shows)
    | cons x H =>
        cases x with
        | ended => exact absurd hserved (h.shows.1 _)
        | expired => exact h.shows.elim
        | message header' payload =>
            obtain ⟨followUp, hserved', hnext⟩ := h.shows
            cases hc.tickets.served_unique hserved hserved'
            obtain ⟨hexpects, hshows⟩ := hnext
            obtain rfl := hshows.eq_nil hc.tickets (hc.tickets.standing_waiting hwaiter)
            rw [expectsFollowUp_ack] at hexpects
            simp only [determined, hstage, List.cons_append, List.nil_append]
            rw [retrieval_of_ack, if_pos hexpects]
            rfl

theorem onClosed_of_loggedIn {s : Session} (h : s.phase = .loggedIn) :
    s.onClosed.phase = .disconnected
      ∧ s.onClosed.journal = s.journal ++ [.ended, .published .disconnected] := by
  unfold Session.onClosed
  dsimp only
  rw [if_pos h]
  refine ⟨rfl, ?_⟩
  show s.journal ++ [_] ++ [_] = _
  rw [List.append_assoc]
  rfl

/-- The session ends, and to every call this happens. -/
theorem Step.ends (h : Step m c c') (hc : c.Sound) (hends : c.Ends m)
    (hphase : c.session.phase = .loggedIn) : c'.session.phase = .disconnected
      ∧ ∃ notes, c'.journal = c.journal ++ notes ∧ ∀ id, heard id notes = [.ended] := by
  cases h with
  | signal x =>
      cases x with
      | closed =>
          obtain ⟨hphase', hjournal⟩ := onClosed_of_loggedIn hphase
          refine ⟨hphase', c.session.onClosed.journal, rfl, fun id => ?_⟩
          rw [hjournal, hc.journal]
          rfl
      | opened | binary | failed => exact hends.elim
  | turn next =>
      obtain ⟨name, hhead⟩ := hends
      unfold nextTurn at next
      split at next
      · rename_i n turn queue _ hqueue
        obtain rfl := Option.some.inj next
        rw [hqueue] at hhead
        cases hhead
        obtain ⟨hphase', _, hcontinues⟩ := Session.close_of_loggedIn hphase
        refine ⟨hphase', c.session.close.journal, rfl, fun id => ?_⟩
        rw [hcontinues.journal, hc.journal]
        rfl
      · cases next
  | _ => exact hends.elim

/-! ### Asking when nobody is logged in -/

/-- A call is told that nobody is logged in, and that is all that comes of it: it does not wait, its
id is not registered, and the link is given nothing. -/
structure Declines (c : Client) (name : String) (c' : Client) : Prop where
  returned : c'.returned name = [.error (.notLoggedIn c.session.phase)]
  requests : c'.requests = c.requests
  waiters : c'.correlator.waiters = c.correlator.waiters
  journal : c'.journal = c.journal
  link : c'.session.link = c.session.link

theorem dispatch_of_not_loggedIn {roots : List Nat} (hjournal : c.session.journal = [])
    (htickets : c.correlator.Sound roots) (hphase : c.session.phase ≠ .loggedIn) {id : String}
    (hfree : c.correlator.waiters.get? id = none) (deadline : Nat) (stage : Stage)
    (payload : Payload) : c.dispatch id deadline stage payload
      = (.error (.notLoggedIn c.session.phase),
        { c with correlator.drawn := c.correlator.drawn + 1 }) := by
  unfold dispatch
  rw [Correlator.register_of_none hfree]
  dsimp only [send]
  rw [Session.send_of_not_loggedIn hphase]
  dsimp only
  rw [withSession_self (by exact hjournal)]
  dsimp only [withdraw]
  rw [htickets.tear_register hfree]

theorem Step.declines {question : Question} {id : Option String} {timeout : Option Duration}
    (h : Step (.ask name question id timeout) c c') (hc : c.Sound)
    (hphase : c.session.phase ≠ .loggedIn) : c.Declines name c' := by
  cases h with
  | ask _ _ _ unused unreturned =>
      obtain ⟨serial, heq⟩ := ask_eq c name question id timeout
      have hfree : c.correlator.waiters.get? (c.idOf id) = none := by
        rw [hc.quiet hphase]
        rfl
      rw [dispatch_of_not_loggedIn (c := { c with session.serial := serial }) hc.journal hc.tickets
        hphase hfree] at heq
      rw [heq]
      exact ⟨returned_requested_self unreturned _, rfl, rfl, rfl, rfl⟩

theorem Run.disconnected (h : Run allowed c d) (hc : c.Sound)
    (hphase : c.session.phase = .disconnected) :
    d.Sound ∧ d.session.phase = .disconnected := by
  induction h with
  | refl => exact ⟨hc, hphase⟩
  | tail _ hstep ih =>
      obtain ⟨m, _, hstep⟩ := hstep
      exact ⟨hstep.sound ih.1, hstep.disconnected ih.1 ih.2⟩

/-! ### The law -/

/-- The message that has come to a call obliges it to confirm that an attachment has been received.
-/
def Owes (r : Request) (H : List Happening) : Prop :=
  ∃ ack response, match r.stage with
    | .answer _ => False
    | .attachment => retrieval r.id H = .confirm ack response
    | .delivery announced => delivery r.id announced H = .confirm ack response

/-- A call whose waiter is not registered has its result, unless it owes a confirmation. -/
theorem Waits.awaits_or_determined_or_owes (h : c.Waits name r H) :
    c.Awaits r ∨ (∃ result, determined r H = some result) ∨ Owes r H := by
  cases H with
  | nil => exact .inl (.inl h.shows)
  | cons x H =>
      cases hstage : r.stage with
      | answer type =>
          refine .inr (.inl ⟨verdict r.id type x, ?_⟩)
          simp only [determined, hstage]
          rfl
      | delivery announced =>
          rcases delivery_cases r.id announced (x :: H) with ⟨hnil, _⟩ | ⟨e, heq⟩
            | ⟨response, _, _, heq⟩
          · cases hnil
          · refine .inr (.inl ⟨.error e, ?_⟩)
            simp only [determined, hstage, heq]
            rfl
          · refine .inr (.inr ⟨announced, response, ?_⟩)
            simp only [hstage]
            exact heq
      | attachment =>
          rcases retrieval_cases r.id (x :: H) with ⟨hnil, _⟩ | ⟨e, heq⟩ | ⟨ack, K, hcons, heq⟩
          · cases hnil
          · refine .inr (.inl ⟨.error e, ?_⟩)
            simp only [determined, hstage, heq]
            rfl
          · obtain ⟨rfl, rfl⟩ := List.cons.inj hcons
            split at heq
            · rename_i hpending
              rcases delivery_cases r.id ack H with ⟨rfl, _⟩ | ⟨e, heq'⟩ | ⟨response, _, _, heq'⟩
              · obtain ⟨followUp, hserved, hnext⟩ := h.shows
                cases followUp with
                | none => exact absurd ((expectsFollowUp_ack ack.body).trans hpending) hnext
                | some next => exact .inl (.inr ⟨hstage, _, _, next, hserved, hnext.2⟩)
              · refine .inr (.inl ⟨.error e, ?_⟩)
                simp only [determined, hstage, heq, heq']
                rfl
              · refine .inr (.inr ⟨ack, response, ?_⟩)
                simp only [hstage]
                exact heq.trans heq'
            · refine .inr (.inl ⟨.ok (.complete ack), ?_⟩)
              simp only [determined, hstage, heq]
              rfl

/-- The law of a session that ends. Its end leaves no id registered. A call that waits returns, and
returns that the connection has closed if its waiter was registered; otherwise it returns what had
happened to it determines, unless it owes a confirmation. Whoever asks from then on is told that
nobody is logged in, nothing is sent, and no id is registered again. -/
theorem Step.ends_waits (hc : Reachable allowed c) (hallowed : allowed m c) (h : Step m c c')
    (hends : c.Ends m) (hphase : c.session.phase = .loggedIn) :
    c'.session.phase = .disconnected ∧ c'.correlator.waiters = .empty
    ∧ (∀ name r, (name, r) ∈ c.requests → ∃ H, c.Waits name r H)
    ∧ (∀ name r H, c.Waits name r H →
      (c.Awaits r → Returns allowed c' name (.error .connectionClosed))
      ∧ (∀ result, determined r H = some result → Returns allowed c' name result)
      ∧ (c.Awaits r ∨ (∃ result, determined r H = some result) ∨ Owes r H))
    ∧ ∀ d, Run allowed c' d → d.session.phase = .disconnected ∧ d.correlator.waiters = .empty
      ∧ ∀ name question id timeout d', Step (.ask name question id timeout) d d' →
        d.Declines name d' := by
  have hc' := hc.step hallowed h
  obtain ⟨hphase', notes, hjournal, hheard⟩ := h.ends hc.sound hends hphase
  have later : ∀ d, Run allowed c' d → d.Sound ∧ d.session.phase = .disconnected ∧
      d.correlator.waiters = .empty := by
    intro d hrun
    obtain ⟨hd, hdisconnected⟩ := hrun.disconnected hc'.sound hphase'
    refine ⟨hd, hdisconnected, hd.quiet ?_⟩
    rw [hdisconnected]
    decide
  refine ⟨hphase', (later c' .refl).2.2, hc.recorded, fun name r H hwaits => ?_, fun d hrun => ?_⟩
  · have hother : m ≠ .resume name := by
      rintro rfl
      exact hends
    -- The end of the session goes on with the history of every call.
    have hwaits' := hwaits.effect hc.sound (h.effect_of_journal hc.sound hjournal) hother
    rw [hheard] at hwaits'
    refine ⟨fun hawaits => ?_, fun result hresult => ?_, hwaits.awaits_or_determined_or_owes⟩
    · have hdetermined := hwaits.determined_ended hc.sound hawaits
      exact Bound.returns (.inr ⟨r, _, hwaits', hdetermined⟩) hc'
    · have hdetermined := determined_append hresult [.ended]
      exact Bound.returns (.inr ⟨r, _, hwaits', hdetermined⟩) hc'
  · obtain ⟨hd, hdisconnected, hwaiters⟩ := later d hrun
    refine ⟨hdisconnected, hwaiters, fun name question id timeout d' hask => ?_⟩
    apply hask.declines hd
    rw [hdisconnected]
    decide

theorem Step.ends_waits_attentive : ∃ r c', ("ask", r) ∈ attentive.requests
    ∧ Step (.signal .closed) attentive c' ∧ attentive.session.phase = .loggedIn
    ∧ attentive.Awaits r ∧ c'.correlator.waiters = .empty
    ∧ Returns (fun _ _ => True) c' "ask" (.error .connectionClosed) := by
  have hask : Step (.ask "ask" (.event { operations := "x" }) (some "i") none) greeted attentive :=
    .ask _ _ _ (fun _ h => nomatch h) rfl
  have hgreeted : Reachable (fun _ _ => True) greeted := reachable_greeted fun _ _ _ => trivial
  have hname : attentive.requests.map (·.1) = ["ask"] := by decide +kernel
  have hphase : attentive.session.phase = .loggedIn := by decide +kernel
  obtain ⟨⟨_, r⟩, hr, rfl⟩ := List.mem_map.1 (hname ▸ List.mem_singleton_self "ask")
  obtain ⟨hwaits, _⟩ := hask.asked hgreeted.sound hr
  obtain ⟨_, hempty, _, hreturns, _⟩ :=
    Step.ends_waits (hgreeted.step trivial hask) trivial (.signal .closed) trivial hphase
  exact ⟨r, _, hr, .signal .closed, hphase, .inl hwaits.shows, hempty,
    (hreturns _ _ _ hwaits).1 (.inl hwaits.shows)⟩

end DataGateway.Client

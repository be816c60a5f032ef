import DataGateway.Proofs.Client.Calls

/-!
# The registry of waiting calls

Every ticket that waits under an id belongs to a call under that id, and is not torn, so that an id
is free once its calls have returned. The one way to lose this is `Spills`: a call that waits for an
announced attachment gets one more answer that announces one, returns, and leaves its id registered
for what that answer announced. Until some call under an id does so the registry is exact for that
id, and until any call does so a client at rest has as many ids registered as calls that wait.
-/

namespace DataGateway

namespace Correlator

variable {c c' : Correlator} {roots a b : List Nat} {id : String} {t : Nat}

/-- No torn ticket holds the id. -/
def Untorn (c : Correlator) (id : String) : Prop :=
  ∀ w, c.waiters.get? id = some w → w.torn = false

/-- A message finds its waiter torn or not, and leaves the next one in the same condition. -/
theorem Untorn.receive (h : c.Untorn id) (hc : c.Sound roots) (header : Header)
    (payload : Payload) : (c.receive header payload).Untorn id := by
  intro v hv
  cases hw : c.waiters.get? header.messageId with
  | none =>
      rw [receive_of_none hw] at hv
      obtain ⟨log, heq⟩ := dispatch_eq c header payload
      rw [heq] at hv
      exact h v hv
  | some w =>
      obtain ⟨followUp, _, htaken⟩ := hc.receive_of_some hw payload
      rw [htaken.waiters] at hv
      by_cases hid : id = header.messageId
      · rw [if_pos hid] at hv
        obtain ⟨_, _, rfl⟩ := Option.map_eq_some_iff.1 hv
        exact h w (hid ▸ hw)
      · rw [if_neg hid] at hv
        exact h v hv

theorem Untorn.heed (h : c.Untorn id) (hc : c.Sound roots) (n : Note) :
    (Client.heed c n).Untorn id := by
  cases n with
  | received header payload => exact h.receive hc header payload
  | ended => exact fun _ hw => nomatch hw
  | published | sent | closed => exact h

theorem Untorn.foldl_heed (h : c.Untorn id) (hc : c.Sound roots) (notes : List Note) :
    (notes.foldl Client.heed c).Untorn id := by
  induction notes generalizing c with
  | nil => exact h
  | cons n notes ih => exact ih (h.heed hc n) (Client.heed_sound hc n)

/-- Tearing concerns only the id at the end of the line, and releasing frees it. -/
theorem Untorn.tear_release (h : c.Untorn id) (hc : c.Sound roots) {own : String}
    (hown : ∀ {i w}, c.waiters.get? i = some w → Leads c.served t w.ticket → i = own) :
    ((c.tear t).release own).Untorn id := by
  intro v hv
  rw [get?_release] at hv
  by_cases hid : id = own
  · rw [if_pos hid] at hv
    simpa using (Option.filter_eq_some_iff.1 hv).2
  · rw [if_neg hid] at hv
    obtain ⟨w, hw, _, hcase⟩ := hc.of_get?_tear hv
    rcases hcase with ⟨hleads, _⟩ | ⟨_, rfl⟩
    · exact absurd (hown hw hleads) hid
    · exact h v hw

/-- A call that goes on without spilling leaves no torn ticket, if its line ends under its id. -/
theorem Resumed.untorn {own : String} {spills : Prop} {out : Option Nat}
    (hresumed : c.Resumed t own spills out c') (hc : c.Sound (a ++ t :: b)) (h : c.Untorn id)
    (hown : ∀ {i w}, c.waiters.get? i = some w → Leads c.served t w.ticket → i = own)
    (hspills : own = id → ¬(spills ∧ ∃ r next, (t, r) ∈ c.served ∧ r.followUp = some next)) :
    c'.Untorn id := by
  have hnext {r : Resolution} {next : Nat} (ready : (t, r) ∈ c.served)
      (announced : r.followUp = some next) : (c.fetched t).Sound (a ++ next :: b)
        ∧ ∀ {i w}, (c.fetched t).waiters.get? i = some w
          → Leads (c.fetched t).served next w.ticket → i = own := by
    refine ⟨?_, fun {i w} hw hleads => hown hw ?_⟩
    · simpa [announced] using hc.fetched ready
    · refine .head ⟨r, ready, announced⟩ ?_
      refine Relation.ReflTransGen.mono (fun u v huv => ?_) next w.ticket hleads
      exact (holds_fetched.1 huv).1
  cases hresumed with
  | withdrawn => exact h.tear_release hc hown
  | hopeless | settled | kept => exact h
  | freed =>
      intro w hw
      have hw := get?_of_get?_release hw
      exact h w hw
  | released ready announced =>
      obtain ⟨hk, hown'⟩ := hnext ready announced
      exact Untorn.tear_release (c := c.fetched t) h hk hown'
  | spilled spill ready announced =>
      obtain ⟨hk, hown'⟩ := hnext ready announced
      intro v hv
      obtain ⟨w, hw, _, hcase⟩ := hk.of_get?_tear hv
      rcases hcase with ⟨hleads, _⟩ | ⟨_, rfl⟩
      · exact absurd ⟨spill, _, _, ready, announced⟩ (hspills (hown' hw hleads).symm)
      · exact h v hw

end Correlator

namespace Client

open Correlator (expectsFollowUp Leads)

variable {c c' : Client} {m : Move} {id : String} {allowed : Move → Client → Prop}

/-- A call under the id that waits for an attachment goes on with one more answer that announces an
attachment. -/
def Spills (id : String) (m : Move) (c : Client) : Prop :=
  ∃ name r ack res, m = .resume name ∧ (name, r) ∈ c.requests ∧ r.id = id
    ∧ r.stage = .delivery ack ∧ c.correlator.standing r.ticket = .ready res
    ∧ expectsFollowUp res.payload

/-- Every call that waits has a history. -/
def Recorded (c : Client) : Prop := ∀ name r, (name, r) ∈ c.requests → ∃ H, c.Waits name r H

theorem Step.recorded (h : Step m c c') (hc : c.Sound) (hrecorded : c.Recorded) : c'.Recorded := by
  intro name r hr
  have hc' := h.sound hc
  obtain ⟨_, notes, heffect, _⟩ := h.effect hc
  by_cases hold : ∃ q, (name, q) ∈ c.requests
  · obtain ⟨q, hq⟩ := hold
    obtain ⟨H, hwaits⟩ := hrecorded name q hq
    by_cases hown : m = .resume name
    · rw [hown] at h
      rcases hwaits.resume hc h with ⟨result, hover⟩ | ⟨q', _, _, H', _, _, _, hwaits'⟩
      · exact absurd hr (hover.requests r)
      · rw [hc'.eq_of_name hr hwaits'.request]
        exact ⟨H', hwaits'⟩
    · have hwaits' := hwaits.effect hc heffect hown
      rw [hc'.eq_of_name hr hwaits'.request]
      exact ⟨_, hwaits'⟩
  · rcases heffect.mem_requests hr with hr | ⟨_, _, _, _, _, _, hget⟩ | ⟨_, q, hq, _⟩
    · exact absurd ⟨r, hr⟩ hold
    · exact ⟨[], hr, hget⟩
    · exact absurd ⟨q, hq⟩ hold

theorem Reachable.recorded (hc : Reachable allowed c) : c.Recorded := by
  induction hc with
  | fresh => exact fun _ _ h => nomatch h
  | step hc _ h ih => exact h.recorded hc.sound ih

/-- The line of a call ends under its id. -/
theorem Recorded.id_of_leads (hrecorded : c.Recorded) (hc : c.Sound) {name : String} {r : Request}
    (hr : (name, r) ∈ c.requests) {i : String} {w : Waiter}
    (hw : c.correlator.waiters.get? i = some w)
    (hleads : Leads c.correlator.served r.ticket w.ticket) : i = r.id := by
  obtain ⟨H, hwaits⟩ := hrecorded name r hr
  exact hwaits.shows.id_of_leads hc.tickets hleads hw rfl

theorem Recorded.expects (hrecorded : c.Recorded) (hc : c.Sound) {name : String} {r : Request}
    (hr : (name, r) ∈ c.requests) {res : Resolution} {next : Nat}
    (ready : (r.ticket, res) ∈ c.correlator.served) (announced : res.followUp = some next) :
    expectsFollowUp res.payload := by
  obtain ⟨H, hwaits⟩ := hrecorded name r hr
  have hready := hc.tickets.standing_ready ready
  cases H with
  | nil => exact absurd ready (hc.tickets.waiter_unserved hwaits.shows)
  | cons x H =>
      cases x with
      | message header payload =>
          obtain ⟨followUp, hserved, hnext⟩ := hwaits.shows
          obtain rfl := hc.tickets.served_unique ready hserved
          dsimp only at announced
          subst announced
          exact hnext.1
      | ended => exact absurd ready (hwaits.shows.1 res)
      | expired => exact hwaits.shows.elim

theorem Effect.untorn {notes : List Note} (h : c.Effect m notes c') (hc : c.Sound)
    (hrecorded : c.Recorded) (huntorn : c.correlator.Untorn id) (hspills : ¬Spills id m c) :
    c'.correlator.Untorn id := by
  cases h with
  | heeded _ heeds =>
      rw [heeds.correlator]
      exact huntorn.foldl_heed hc.tickets notes
  | refused _ _ _ correlator _ _ =>
      rw [correlator]
      exact huntorn
  | asked _ _ _ _ _ _ _ _ correlator _ _ =>
      rw [correlator]
      intro w hw
      rw [Dict.get?_insert] at hw
      split at hw
      · cases hw
        rfl
      · exact huntorn w hw
  | @resumed name r before after out frames d _ requests poll goes correlator _ _ =>
      have hr : (name, r) ∈ c.requests := (mem_split requests).2 (.inl rfl)
      have htickets := hc.tickets
      rw [tickets_split requests] at htickets
      rw [correlator]
      refine goes.resumed.untorn htickets huntorn (hrecorded.id_of_leads hc hr) ?_
      rintro hid ⟨⟨ack, hstage⟩, res, next, ready, announced⟩
      exact hspills ⟨name, r, ack, res, rfl, hr, hid, hstage, hc.tickets.standing_ready ready,
        hrecorded.expects hc hr ready announced⟩

theorem Reachable.untorn (hc : Reachable (fun m c => ¬Spills id m c) c) :
    c.correlator.Untorn id := by
  induction hc with
  | fresh => exact fun _ h => nomatch h
  | step hc hspills h ih =>
      obtain ⟨_, _, heffect, _⟩ := h.effect hc.sound
      exact heffect.untorn hc.sound hc.recorded ih hspills

/-- A ticket that is not torn belongs to a call that waits. -/
theorem Sound.owner (hc : c.Sound) {i : String} {w : Waiter}
    (hw : c.correlator.waiters.get? i = some w) (htorn : w.torn = false) :
    ∃ name r, (name, r) ∈ c.requests ∧ Leads c.correlator.served r.ticket w.ticket := by
  obtain ⟨t, ht, hleads⟩ := hc.tickets.root_of_held ((hc.tickets.waiter_held hw).2 htorn)
  obtain ⟨⟨name, r⟩, hr, rfl⟩ := List.mem_map.1 ht
  exact ⟨name, r, hr, hleads⟩

theorem Reachable.owner (hc : Reachable (fun m c => ¬Spills id m c) c) {w : Waiter}
    (hw : c.correlator.waiters.get? id = some w) :
    w.torn = false ∧ ∃ name r, (name, r) ∈ c.requests ∧ r.id = id
      ∧ Leads c.correlator.served r.ticket w.ticket := by
  have htorn := hc.untorn w hw
  obtain ⟨name, r, hr, hleads⟩ := hc.sound.owner hw htorn
  exact ⟨htorn, name, r, hr, (hc.recorded.id_of_leads hc.sound hr hw hleads).symm, hleads⟩

/-- An id is free when there is no call under it, as long as none has spilled. -/
theorem Reachable.get?_eq_none (hc : Reachable (fun m c => ¬Spills id m c) c)
    (hnone : ∀ name r, (name, r) ∈ c.requests → r.id ≠ id) :
    c.correlator.waiters.get? id = none := by
  cases hw : c.correlator.waiters.get? id with
  | none => rfl
  | some w =>
      obtain ⟨_, name, r, hr, hid, _⟩ := hc.owner hw
      exact absurd hid (hnone name r hr)

/-- The step begins no call that waits for an attachment. -/
def Move.AsksOnce : Move → Prop
  | .ask _ question _ _ => ∃ type, question.stage = .answer type
  | _ => True

theorem Reachable.answers (hc : Reachable allowed c) (honce : ∀ m c, allowed m c → m.AsksOnce) :
    ∀ name r, (name, r) ∈ c.requests → ∃ type, r.stage = .answer type := by
  induction hc with
  | fresh => exact fun _ _ h => nomatch h
  | step hc hm h ih =>
      intro name r hr
      obtain ⟨_, _, heffect, _⟩ := h.effect hc.sound
      rcases heffect.mem_requests hr with hr | ⟨_, _, _, rfl, _, hstage, _⟩ | ⟨_, q, hq, hstage⟩
      · exact ih name r hr
      · obtain ⟨type, htype⟩ := honce _ _ hm
        exact ⟨type, hstage.trans htype⟩
      · obtain ⟨type, htype⟩ := ih name q hq
        rw [hstage] at htype
        cases htype

/-- Calls that wait for one answer do not spill. -/
theorem Reachable.not_spills (hc : Reachable allowed c)
    (honce : ∀ m c, allowed m c → m.AsksOnce) : Reachable (fun m c => ∀ id, ¬Spills id m c) c := by
  induction hc with
  | fresh config link fallback => exact .fresh config link fallback
  | step hc hm h ih =>
      refine ih.step (fun id hspills => ?_) h
      obtain ⟨name, r, ack, _, _, hr, _, hstage, _⟩ := hspills
      obtain ⟨type, htype⟩ := hc.answers honce name r hr
      rw [hstage] at htype
      cases htype

/-! ### Rest -/

theorem pollFrom_eq_none {before requests : List (String × Request)}
    (h : c.pollFrom before requests = none) {name : String} {r : Request}
    (hr : (name, r) ∈ requests) : c.pollRequest r = none := by
  induction requests generalizing before with
  | nil => cases hr
  | cons e requests ih =>
      unfold pollFrom at h
      split at h
      · rename_i hpoll
        rcases List.mem_cons.1 hr with rfl | hr
        · exact hpoll
        · exact ih h hr
      · cases h
      · cases h

/-- At rest no call can go on. -/
theorem pollRequest_of_rest (h : c.step? = none) {name : String} {r : Request}
    (hr : (name, r) ∈ c.requests) : c.pollRequest r = none := by
  unfold step? at h
  simp only [Option.orElse_eq_orElse, Option.orElse_eq_or, Option.or_eq_none_iff] at h
  exact pollFrom_eq_none h.2.2.1 hr

/-- At rest nothing has happened to a call that has not returned. -/
theorem Waits.eq_nil_of_rest {name : String} {r : Request} {H : List Happening}
    (h : c.Waits name r H) (hc : c.Sound) (hrest : c.step? = none) : H = [] := by
  have hpoll := pollRequest_of_rest hrest h.request
  unfold pollRequest at hpoll
  split at hpoll
  · cases hpoll
  · cases hpoll
  · rename_i hwaiting
    exact h.shows.eq_nil hc.tickets hwaiting

/-- At rest a call that has not returned has time left. -/
theorem Waits.lt_deadline_of_rest {name : String} {r : Request} (h : c.Waits name r [])
    (hc : c.Sound) (hrest : c.step? = none) : c.now < r.deadline := by
  have hpoll := pollRequest_of_rest hrest h.request
  rw [pollRequest_of_waiting (h.shows.standing_nil hc.tickets)] at hpoll
  by_contra hlate
  rw [if_pos (Nat.le_of_not_lt hlate)] at hpoll
  cases hpoll

/-- As long as no call spills, a client at rest has one id registered for each call that waits. -/
theorem Reachable.pending_eq (hc : Reachable (fun m c => ∀ id, ¬Spills id m c) c)
    (hrest : c.step? = none) : c.correlator.pending = c.requests.length := by
  have hsound := hc.sound
  have hwaits {name : String} {r : Request} (hr : (name, r) ∈ c.requests) :
      c.correlator.waiters.get? r.id = some { ticket := r.ticket } := by
    obtain ⟨H, hwaits⟩ := hc.recorded name r hr
    obtain rfl := hwaits.eq_nil_of_rest hsound hrest
    exact hwaits.shows
  -- At rest no line is longer than the ticket its call holds, so ids and calls correspond.
  have hperm : c.correlator.waiters.entries.Perm
      (c.requests.map fun e => (e.2.id, { ticket := e.2.ticket })) := by
    apply (List.perm_ext_iff_of_nodup c.correlator.waiters.nodup_entries _).2
    · rintro ⟨i, w⟩
      rw [Dict.mem_entries_iff, List.mem_map]
      constructor
      · intro hw
        have huntorn := (hc.mono fun m c h => h i).untorn w hw
        obtain ⟨name, r, hr, hleads⟩ := hsound.owner hw huntorn
        have hroot := hwaits hr
        have hticket : r.ticket = w.ticket := by
          rcases Relation.ReflTransGen.cases_head hleads with heq | ⟨n, ⟨res, hres, _⟩, _⟩
          · exact heq
          · exact absurd hres (hsound.tickets.waiter_unserved hroot)
        obtain rfl := hsound.tickets.waiter_unique hroot hw hticket
        rw [hroot] at hw
        exact ⟨(name, r), hr, Prod.ext rfl (Option.some.inj hw)⟩
      · rintro ⟨⟨name, r⟩, hr, heq⟩
        cases heq
        exact hwaits hr
    · apply List.Nodup.of_map (·.2.ticket)
      rw [List.map_map]
      exact hsound.tickets.roots_nodup
  rw [Correlator.pending, Dict.size, hperm.length_eq, List.length_map]

/-- While no call under an id spills, the id is registered only for a call under it that has not
returned, and it can be registered again when there is none. While no call spills at all, a client
at rest has one id registered for each call that waits. -/
theorem Reachable.accounts (hc : Reachable allowed c) :
    (∀ id, (∀ m c, allowed m c → ¬Spills id m c) →
      (∀ w, c.correlator.waiters.get? id = some w → w.torn = false
        ∧ ∃ name r, (name, r) ∈ c.requests ∧ r.id = id
          ∧ Leads c.correlator.served r.ticket w.ticket)
      ∧ ((∀ name r, (name, r) ∈ c.requests → r.id ≠ id) →
        ∃ ticket k, c.correlator.register id = .ok (ticket, k)))
    ∧ ((∀ m c, allowed m c → ∀ id, ¬Spills id m c) → c.step? = none →
      c.correlator.pending = c.requests.length) := by
  refine ⟨fun id hspills => ?_, fun hspills => (hc.mono hspills).pending_eq⟩
  have hkept := hc.mono hspills
  refine ⟨fun w hw => hkept.owner hw, fun hnone => ?_⟩
  exact ⟨_, _, Correlator.register_of_none (hkept.get?_eq_none hnone)⟩

theorem Reachable.accounts_answered : ∃ c, Reachable (fun m c => ∀ id, ¬Spills id m c) c
    ∧ c.step? = none ∧ (c.returned "ask").length = 1 ∧ c.correlator.pending = 0
    ∧ ∃ ticket k, c.correlator.register "i" = .ok (ticket, k) := by
  have hgreeted : Reachable (fun m _ => m.AsksOnce) greeted :=
    reachable_greeted fun m _ hm => by cases m <;> trivial
  have hask : Step (.ask "ask" (.event { operations := "x" }) (some "i") none) greeted attentive :=
    .ask _ _ _ (fun _ h => nomatch h) rfl
  have honce : Move.AsksOnce (.ask "ask" (.event { operations := "x" }) (some "i") none) :=
    ⟨.eventAck, rfl⟩
  have hattentive : Reachable (fun m _ => m.AsksOnce) attentive := hgreeted.step honce hask
  have hanswered : Reachable (fun m _ => m.AsksOnce) (attentive.incoming eventReply) :=
    Reachable.step (m := .signal (.binary eventReply)) hattentive trivial (.signal _)
  have hsettled : Reachable (fun m _ => m.AsksOnce) (attentive.incoming eventReply).settle := by
    apply hanswered.settle
    rintro m _ (hm | ⟨name, rfl⟩)
    · cases m <;> trivial
    · trivial
  have hc := hsettled.not_spills fun _ _ h => h
  have hrest : (attentive.incoming eventReply).settle.step? = none := by
    rw [← Option.isNone_iff_eq_none]
    decide +kernel
  have hnone : (attentive.incoming eventReply).settle.requests = [] := by
    rw [← List.isEmpty_iff]
    decide +kernel
  obtain ⟨hids, hpending⟩ := hc.accounts
  refine ⟨_, hc, hrest, by decide +kernel, ?_, ?_⟩
  · rw [hpending (fun _ _ h => h) hrest, hnone]
    rfl
  · apply (hids "i" fun m c h => h "i").2
    intro name r hr
    rw [hnone] at hr
    cases hr

/-- A call that waits for an attachment and gets one more answer that announces one has lost its id:
it returns, and the id cannot be registered again. -/
theorem Waits.spills {name : String} {r : Request} {ack : Answer AttachmentRequestAck}
    {header : Header} {payload : Payload} (h : c.Waits name r [.message header payload])
    (hc : c.Sound) (hstage : r.stage = .delivery ack) (hexpects : expectsFollowUp payload)
    (hstep : Step (.resume name) c c') :
    c'.Over name (.error (.unexpectedReply r.id payload.type))
      ∧ c'.correlator.register r.id = .error (.duplicateId r.id) := by
  obtain ⟨followUp, hready, _, hfollow⟩ := h.shows.standing_message hc.tickets
  obtain ⟨out, _, _, hpoll, _, hcorrelator, _, hout⟩ := hstep.resumes hc h.request
  cases followUp with
  | none => exact absurd hexpects hfollow
  | some next =>
      have hnext : c.correlator.waiters.get? r.id = some { ticket := next } := hfollow.2
      have hnone : payload.body? .attachmentResponse = none := by
        rcases payload.body?_cases .attachmentResponse with hnone | ⟨body, rfl⟩
        · exact hnone
        · cases hexpects
      rw [pollRequest_of_ready hready, resolve_delivery_of_none hstage _ hnone,
        tearFollowUp_of_some rfl] at hpoll
      cases hpoll
      refine ⟨hout, ?_⟩
      rw [hcorrelator]
      apply Correlator.register_of_some
      refine (Correlator.get?_foldl_tearIn hc.tickets.distinct _ r.id).trans ?_
      rw [hnext]
      rfl

/-- Two announcements for one call, and its id is registered when no call waits any more. -/
theorem Reachable.unaccounted : ∃ c, Reachable (fun _ _ => True) c ∧ c.step? = none
    ∧ c.requests = [] ∧ (c.returned "ask").length = 1 ∧ c.correlator.pending = 1
    ∧ c.correlator.register "i" = .error (.duplicateId "i") := by
  have hcurious : Reachable (fun _ _ => True) curious :=
    (reachable_greeted fun _ _ _ => trivial).step trivial
      (.ask _ _ _ (fun _ h => nomatch h) rfl)
  have hfirst : Reachable (fun _ _ => True) (curious.incoming announcement) :=
    hcurious.step trivial (.signal _)
  have hsecond : Reachable (fun _ _ => True)
      ((curious.incoming announcement).incoming announcement) := hfirst.step trivial (.signal _)
  obtain ⟨w, hw⟩ : ∃ w, ((curious.incoming announcement).incoming
      announcement).settle.correlator.waiters.get? "i" = some w := by
    rw [← Option.isSome_iff_exists]
    decide +kernel
  refine ⟨_, hsecond.settle fun _ _ _ => trivial, ?_, ?_, ?_, ?_, Correlator.register_of_some hw⟩
  · rw [← Option.isNone_iff_eq_none]
    decide +kernel
  · rw [← List.isEmpty_iff]
    decide +kernel
  · decide +kernel
  · decide +kernel

end Client

end DataGateway

import DataGateway.Proofs.Client.Run

/-!
# What happens to a call

To a request that waits three things can happen: a message comes under its id, the session ends, or
its time is over. A `Course` is a run seen by one call: the steps, what happened to the call under
its id, in order, and what the call's own steps sent. Until the call goes on, the correlator tells
its history, which is `Shows`: along the call's line lie the messages in the order in which they
came, up to the first that announces no other, and the line ends where the call waits or where the
session ended. Steps of other calls and messages under other ids leave that as it is.
-/

namespace DataGateway

/-- What can happen to a call that waits. -/
inductive Happening
  | message (header : Header) (payload : Payload)
  | ended
  | expired

namespace Client

open Correlator (expectsFollowUp Leads Held Agree)

variable {c c' : Client} {m : Move} {name id : String} {r : Request}

/-- What of the session's doings happens to the calls under an id. -/
def heard (id : String) (notes : List Note) : List Happening :=
  notes.filterMap fun
    | .received header payload =>
      if header.messageId = id then some (.message header payload) else none
    | .ended => some .ended
    | _ => none

@[simp] theorem heard_nil (id : String) : heard id [] = [] := rfl

theorem heard_cons (id : String) (n : Note) (notes : List Note) :
    heard id (n :: notes) = heard id [n] ++ heard id notes :=
  List.filterMap_append (l := [n])

theorem heard_append (id : String) (a b : List Note) :
    heard id (a ++ b) = heard id a ++ heard id b :=
  List.filterMap_append

@[simp] theorem heard_sent (id : String) (frames : List Bytes) :
    heard id (frames.map .sent) = [] := by
  induction frames with
  | nil => rfl
  | cons frame frames ih => exact ih

end Client

/-! ### What the correlator tells -/

namespace Correlator

open Client (heard)

variable {c c' : Correlator} {roots : List Nat} {id : String} {t : Nat} {H : List Happening}

/-- The line of a ticket tells a history of the id. -/
def Shows (c : Correlator) (id : String) : Nat → List Happening → Prop
  | t, [] => c.waiters.get? id = some { ticket := t }
  | t, .message header payload :: H => ∃ followUp, (t, ⟨header, payload, followUp⟩) ∈ c.served
      ∧ match followUp with
        | some next => expectsFollowUp payload ∧ Shows c id next H
        | none => ¬expectsFollowUp payload
  | t, .ended :: _ =>
    (∀ r, (t, r) ∉ c.served) ∧ ∀ i w, c.waiters.get? i = some w → w.ticket ≠ t
  | _, .expired :: _ => False

/-- What has no effect on a line leaves the history that it tells. -/
theorem Shows.agree (h : c.Shows id t H) (hagree : ∀ x, Leads c.served t x → Agree c c' x) :
    c'.Shows id t H := by
  induction H generalizing t with
  | nil => exact ((hagree t .refl).waiter id { ticket := t } rfl).2 h
  | cons x H ih =>
      have ht := hagree t .refl
      cases x with
      | message header payload =>
          obtain ⟨followUp, hserved, hnext⟩ := h
          refine ⟨followUp, (ht.served _).2 hserved, ?_⟩
          cases followUp with
          | none => exact hnext
          | some next =>
              refine ⟨hnext.1, ih hnext.2 fun y hy => hagree y (.head ⟨_, hserved, rfl⟩ hy)⟩
      | ended =>
          obtain ⟨hserved, hwaiters⟩ := h
          refine ⟨fun r hr => hserved r ((ht.served r).1 hr), fun i w hw hticket => ?_⟩
          exact hwaiters i w ((ht.waiter i w hticket).1 hw) hticket
      | expired => exact h

/-- A message under another id leaves the history, and one under this id goes on with it. -/
theorem Shows.receive (h : c.Shows id t H) (hc : c.Sound roots) (ht : c.Held roots t)
    (header : Header) (payload : Payload) :
    (c.receive header payload).Shows id t (H ++ heard id [.received header payload]) := by
  have hagree {x : Nat} (hx : c.Held roots x)
      (hne : ∀ w, c.waiters.get? header.messageId = some w → x ≠ w.ticket) :
      Agree c (c.receive header payload) x := hc.agree_receive header payload hx hne
  induction H generalizing t with
  | nil =>
      by_cases hid : header.messageId = id
      · have hw : c.waiters.get? header.messageId = some { ticket := t } := hid ▸ h
        obtain ⟨followUp, hexpects, htaken⟩ := hc.receive_of_some hw payload
        have hheard : heard id [.received header payload] = [.message header payload] := by
          simp [heard, hid]
        rw [hheard]
        refine ⟨followUp, ?_, ?_⟩
        · rw [htaken.served]
          simp
        · cases followUp with
          | none => simpa using hexpects
          | some next =>
              refine ⟨hexpects.1 rfl, ?_⟩
              show (c.receive header payload).waiters.get? id = _
              rw [htaken.waiters, if_pos hid.symm]
              rfl
      · have hheard : heard id [.received header payload] = [] := by simp [heard, hid]
        rw [hheard]
        refine ((hagree ht fun w hw heq => hid ?_).waiter id { ticket := t } rfl).2 h
        exact (hc.waiter_unique h hw heq).symm
  | cons x H ih =>
      cases x with
      | message header' payload' =>
          obtain ⟨followUp, hserved, hnext⟩ := h
          have ht' := hagree ht fun w hw heq => hc.waiter_unserved hw (heq ▸ hserved)
          refine ⟨followUp, (ht'.served _).2 hserved, ?_⟩
          cases followUp with
          | none => exact hnext
          | some next => exact ⟨hnext.1, ih hnext.2 (.inr ⟨t, _, hserved, rfl⟩)⟩
      | ended =>
          obtain ⟨hserved, hwaiters⟩ := h
          have ht' := hagree ht fun w hw heq => hwaiters _ w hw heq.symm
          refine ⟨fun r hr => hserved r ((ht'.served r).1 hr), fun i w hw hticket => ?_⟩
          exact hwaiters i w ((ht'.waiter i w hticket).1 hw) hticket
      | expired => exact h

/-- The end of the session is the end of every line that waits. -/
theorem Shows.disconnect (h : c.Shows id t H) (hc : c.Sound roots) :
    c.disconnect.Shows id t (H ++ [.ended]) := by
  induction H generalizing t with
  | nil => exact ⟨fun r hr => hc.waiter_unserved h hr, fun _ _ hw => nomatch hw⟩
  | cons x H ih =>
      cases x with
      | message header payload =>
          obtain ⟨followUp, hserved, hnext⟩ := h
          refine ⟨followUp, hserved, ?_⟩
          cases followUp with
          | none => exact hnext
          | some next => exact ⟨hnext.1, ih hnext.2⟩
      | ended => exact ⟨h.1, fun _ _ hw => nomatch hw⟩
      | expired => exact h

theorem Shows.heed (h : c.Shows id t H) (hc : c.Sound roots) (ht : c.Held roots t) (n : Note) :
    (Client.heed c n).Shows id t (H ++ heard id [n]) := by
  cases n with
  | received header payload => exact h.receive hc ht header payload
  | ended => exact h.disconnect hc
  | published | sent | closed =>
      show c.Shows id t (H ++ [])
      rw [List.append_nil]
      exact h

theorem Shows.foldl_heed (h : c.Shows id t H) (hc : c.Sound roots) (ht : t ∈ roots)
    (notes : List Note) : (notes.foldl Client.heed c).Shows id t (H ++ heard id notes) := by
  induction notes generalizing c H with
  | nil =>
      rw [Client.heard_nil, List.append_nil]
      exact h
  | cons n notes ih =>
      rw [Client.heard_cons, ← List.append_assoc]
      exact ih (h.heed hc (.inl ht) n) (Client.heed_sound hc n)

/-- The line of a call waits under the id of the call and nowhere else. -/
theorem Shows.id_of_leads (h : c.Shows id t H) (hc : c.Sound roots) {x : Nat} {i : String}
    {w : Waiter} (hleads : Leads c.served t x) (hw : c.waiters.get? i = some w)
    (hticket : w.ticket = x) : i = id := by
  induction H generalizing t with
  | nil =>
      rcases Relation.ReflTransGen.cases_head hleads with heq | ⟨n, ⟨r, hr, _⟩, _⟩
      · exact hc.waiter_unique hw h (hticket.trans heq.symm)
      · exact absurd hr (hc.waiter_unserved h)
  | cons y H ih =>
      cases y with
      | message header payload =>
          obtain ⟨followUp, hserved, hnext⟩ := h
          rcases Relation.ReflTransGen.cases_head hleads with heq | ⟨n, ⟨r, hr, hn⟩, hrest⟩
          · rw [heq, ← hticket] at hserved
            exact absurd hserved (hc.waiter_unserved hw)
          · obtain rfl := hc.served_unique hr hserved
            dsimp only at hn
            subst hn
            exact ih hnext.2 hrest
      | ended =>
          rcases Relation.ReflTransGen.cases_head hleads with heq | ⟨n, ⟨r, hr, _⟩, _⟩
          · exact absurd (hticket.trans heq.symm) (h.2 i w hw)
          · exact absurd hr (h.1 r)
      | expired => exact h.elim

theorem Shows.standing_nil (h : c.Shows id t []) (hc : c.Sound roots) :
    c.standing t = .waiting :=
  hc.standing_waiting h

theorem Shows.standing_message {header : Header} {payload : Payload}
    (h : c.Shows id t (.message header payload :: H)) (hc : c.Sound roots) :
    ∃ followUp, c.standing t = .ready { header, payload, followUp }
      ∧ (t, { header, payload, followUp }) ∈ c.served
      ∧ match followUp with
        | some next => expectsFollowUp payload ∧ c.Shows id next H
        | none => ¬expectsFollowUp payload := by
  obtain ⟨followUp, hserved, hnext⟩ := h
  exact ⟨followUp, hc.standing_ready hserved, hserved, hnext⟩

theorem Shows.standing_ended (h : c.Shows id t (.ended :: H)) (hc : c.Sound roots) :
    c.standing t = .hopeless :=
  hc.standing_hopeless h.1 h.2

/-- A ticket waits as long as nothing has happened. -/
theorem Shows.eq_nil (h : c.Shows id t H) (hc : c.Sound roots)
    (hwaiting : c.standing t = .waiting) : H = [] := by
  cases H with
  | nil => rfl
  | cons x H =>
      cases x with
      | message header payload =>
          obtain ⟨_, hready, _⟩ := h.standing_message hc
          rw [hready] at hwaiting
          cases hwaiting
      | ended =>
          rw [h.standing_ended hc] at hwaiting
          cases hwaiting
      | expired => exact h.elim

end Correlator

/-! ### Courses -/

namespace Client

open Session (sentFrames)

variable {c c' d : Client} {m : Move} {name id : String} {r : Request} {H : List Happening}
  {F : List Bytes} {allowed : Move → Client → Prop}

/-- The call has its turn, nothing has come, and its time is over. -/
def Expires (c : Client) (name : String) : Prop :=
  ∃ r, (name, r) ∈ c.requests ∧ c.correlator.standing r.ticket = .waiting ∧ r.deadline ≤ c.now

/-- Steps from one client to another as the call of a name sees them: what happens to it under its
id, and the frames that its own steps send. -/
inductive Course (allowed : Move → Client → Prop) (name id : String) (c : Client) :
    List Happening → List Bytes → Client → Prop
  | start : Course allowed name id c [] [] c
  /-- A step of another call, of the session or of what is around it. -/
  | other {H : List Happening} {F : List Bytes} {m : Move} {d d' : Client} {notes : List Note}
      (course : Course allowed name id c H F d) (ok : allowed m d) (other : m ≠ .resume name)
      (step : Step m d d') (journal : d'.journal = d.journal ++ notes) :
      Course allowed name id c (H ++ heard id notes) F d'
  /-- The call goes on because something has happened to it. -/
  | own {H : List Happening} {F : List Bytes} {d d' : Client} {notes : List Note}
      (course : Course allowed name id c H F d) (ok : allowed (.resume name) d)
      (step : Step (.resume name) d d') (timely : ¬d.Expires name)
      (journal : d'.journal = d.journal ++ notes) :
      Course allowed name id c H (F ++ sentFrames notes) d'
  /-- The call goes on because its time is over. -/
  | expire {H : List Happening} {F : List Bytes} {d d' : Client} {notes : List Note}
      (course : Course allowed name id c H F d) (ok : allowed (.resume name) d)
      (step : Step (.resume name) d d') (due : d.Expires name)
      (journal : d'.journal = d.journal ++ notes) :
      Course allowed name id c (H ++ [.expired]) (F ++ sentFrames notes) d'

theorem Course.reachable (h : Course allowed name id c H F d) (hc : Reachable allowed c) :
    Reachable allowed d := by
  induction h with
  | start => exact hc
  | other _ ok _ step _ ih | own _ ok step _ _ ih | expire _ ok step _ _ ih => exact ih.step ok step

/-- Whatever a client does next, it goes on with the course. -/
theorem Course.step (h : Course allowed name id c H F d) (hc : Reachable allowed c)
    (ok : allowed m d) (hstep : Step m d c') :
    ∃ K G, Course allowed name id c (H ++ K) (F ++ G) c' := by
  obtain ⟨_, notes, _, hjournal⟩ := hstep.effect (h.reachable hc).sound
  by_cases hown : m = .resume name
  · subst hown
    by_cases hdue : d.Expires name
    · exact ⟨_, _, .expire h ok hstep hdue hjournal⟩
    · refine ⟨[], sentFrames notes, ?_⟩
      rw [List.append_nil]
      exact .own h ok hstep hdue hjournal
  · refine ⟨heard id notes, [], ?_⟩
    rw [List.append_nil]
    exact .other h ok hown hstep hjournal

/-! ### Bystanders -/

theorem held_of_mem (h : (name, r) ∈ c.requests) :
    c.correlator.Held (c.requests.map (·.2.ticket)) r.ticket :=
  .inl (List.mem_map.2 ⟨_, h, rfl⟩)

theorem Sound.eq_of_ticket (hc : c.Sound) {e e' : String × Request} (he : e ∈ c.requests)
    (he' : e' ∈ c.requests) (heq : e.2.ticket = e'.2.ticket) : e = e' :=
  List.inj_on_of_nodup_map hc.tickets.roots_nodup he he' heq

theorem Sound.eq_of_name (hc : c.Sound) {q : Request} (hr : (name, r) ∈ c.requests)
    (hq : (name, q) ∈ c.requests) : r = q :=
  (Prod.mk.inj (List.inj_on_of_nodup_map hc.names hr hq rfl)).2

/-- The call of a name waits as its request says, and this is what has happened to it. -/
structure Waits (c : Client) (name : String) (r : Request) (H : List Happening) : Prop where
  request : (name, r) ∈ c.requests
  shows : c.correlator.Shows r.id r.ticket H

/-- A step that is not its own leaves a call to wait, and what the session notes meanwhile goes on
with its history. -/
theorem Waits.effect {notes : List Note} (h : c.Waits name r H) (hc : c.Sound)
    (heffect : c.Effect m notes c') (other : m ≠ .resume name) :
    c'.Waits name r (H ++ heard r.id notes) := by
  obtain ⟨hr, hshows⟩ := h
  have hheld := held_of_mem hr
  cases heffect with
  | heeded _ heeds =>
      constructor
      · rw [heeds.requests]
        exact hr
      · rw [heeds.correlator]
        exact hshows.foldl_heed hc.tickets (List.mem_map.2 ⟨_, hr, rfl⟩) notes
  | refused _ _ _ correlator requests _ =>
      rw [heard_nil, List.append_nil]
      constructor
      · rw [requests]
        exact hr
      · rw [correlator]
        exact hshows.agree fun _ _ => ⟨fun _ => Iff.rfl, fun _ _ _ => Iff.rfl⟩
  | asked _ _ _ _ _ _ free _ correlator requests _ =>
      rw [heard_sent, List.append_nil]
      constructor
      · rw [requests]
        exact List.mem_append_left _ hr
      · rw [correlator]
        exact hshows.agree fun x hx => hc.tickets.agree_register free (hheld.of_leads hx)
  | @resumed name' r' before after out frames d' _ requests poll goes correlator requests' _ =>
      have hne : name ≠ name' := fun heq => other (heq ▸ rfl)
      have hr' : (name', r') ∈ c.requests := (mem_split requests).2 (.inl rfl)
      have hmem : (name, r) ∈ before ++ after :=
        ((mem_split requests).1 hr).resolve_left fun heq => hne (Prod.mk.inj heq).1
      have htickets := hc.tickets
      rw [tickets_split requests] at htickets hheld
      rw [heard_sent, List.append_nil]
      constructor
      · rw [requests']
        simp only [List.mem_append] at hmem ⊢
        tauto
      · rw [correlator]
        refine hshows.agree fun x hx => goes.resumed.agree htickets (hheld.of_leads hx) ?_
        intro hx'
        apply hne
        have hticket := hc.tickets.eq_of_leads (List.mem_map.2 ⟨_, hr, rfl⟩)
          (List.mem_map.2 ⟨_, hr', rfl⟩) hx hx'
        exact (Prod.mk.inj (hc.eq_of_ticket hr hr' hticket)).1

theorem Effect.returned_other {notes : List Note} (h : c.Effect m notes c')
    (hown : (∃ q, (name, q) ∈ c.requests) ∨ c.returned name ≠ []) (other : m ≠ .resume name) :
    c'.returned name = c.returned name := by
  cases h with
  | heeded _ heeds => exact heeds.returned name
  | @refused name' _ _ _ _ _ _ unused unreturned _ _ _ returned =>
      have hne : name' ≠ name := by
        rintro rfl
        rcases hown with ⟨q, hq⟩ | hreturned
        · exact unused q hq
        · exact hreturned unreturned
      rw [returned, if_neg hne, List.append_nil]
  | asked _ _ _ _ _ _ _ _ _ _ returned => exact returned name
  | @resumed name' r' _ _ out _ _ _ _ _ _ _ _ returned =>
      have hne : name' ≠ name := by
        rintro rfl
        exact other rfl
      rw [returned, if_neg hne, List.append_nil]

/-- A call that waits has waited before, or has just asked, or waits on for an attachment. -/
theorem Effect.mem_requests {notes : List Note} (h : c.Effect m notes c')
    (hr : (name, r) ∈ c'.requests) :
    (name, r) ∈ c.requests
      ∨ (∃ question id timeout, m = .ask name question id timeout ∧ c.returned name = []
        ∧ r.stage = question.stage ∧ c'.correlator.waiters.get? r.id = some { ticket := r.ticket })
      ∨ m = .resume name ∧ ∃ q, (name, q) ∈ c.requests ∧ q.stage = .attachment := by
  cases h with
  | heeded _ heeds => exact .inl (heeds.requests ▸ hr)
  | refused _ _ _ _ requests _ => exact .inl (requests ▸ hr)
  | asked _ unreturned _ ticket _ stage _ _ correlator requests _ =>
      rw [requests] at hr
      rcases List.mem_append.1 hr with hr | hr
      · exact .inl hr
      · cases List.mem_singleton.1 hr
        refine .inr (.inl ⟨_, _, _, rfl, unreturned, stage, ?_⟩)
        rw [correlator, ticket]
        exact Dict.get?_insert_self _ _ _
  | @resumed name' q before after out _ _ _ requests _ goes _ requests' _ =>
      rw [requests'] at hr
      rw [requests]
      cases out with
      | inl =>
          left
          simp only [Sum.getRight?_inl, Option.map_none, Option.toList_none, List.append_nil,
            List.mem_append, List.mem_cons] at hr ⊢
          tauto
      | inr q' =>
          simp only [Sum.getRight?_inr, Option.map_some, Option.toList_some, List.mem_append,
            List.mem_singleton] at hr
          rcases hr with (hr | hr) | hr
          · exact .inl (List.mem_append_left _ hr)
          · cases hr
            exact .inr (.inr ⟨rfl, q, by simp, (goes.kept _ rfl).2.2⟩)
          · exact .inl (List.mem_append_right _ (List.mem_cons_of_mem _ hr))

/-- A call that has asked and waits does so under the id that it was given, for as long as it was
told, and nothing has happened to it. -/
theorem Step.asked {question : Question} {i : Option String} {timeout : Option Duration}
    (h : Step (.ask name question i timeout) c c') (hc : c.Sound) (hr : (name, r) ∈ c'.requests) :
    c'.Waits name r [] ∧ r.stage = question.stage ∧ (∀ j ∈ i, r.id = j)
      ∧ r.deadline = c.now + timeoutTicks (timeout.getD c.session.config.requestTimeout) := by
  obtain ⟨_, notes, heffect, _⟩ := h.effect hc
  cases heffect with
  | heeded outer _ => exact outer.elim
  | refused unused _ _ _ requests _ =>
      rw [requests] at hr
      exact absurd hr (unused r)
  | asked unused _ given ticket deadline stage _ _ correlator requests _ =>
      have hmem := hr
      rw [requests] at hmem
      rcases List.mem_append.1 hmem with hmem | hmem
      · exact absurd hmem (unused r)
      · cases List.mem_singleton.1 hmem
        refine ⟨⟨hr, ?_⟩, stage, given, deadline⟩
        show c'.correlator.waiters.get? r.id = _
        rw [correlator, ticket]
        exact Dict.get?_insert_self _ _ _

/-! ### Calls that end -/

/-- The call of a name has returned this, and that is that. -/
structure Over (c : Client) (name : String) (result : Except ClientError Outcome) : Prop where
  requests : ∀ q, (name, q) ∉ c.requests
  returned : c.returned name = [result]

theorem Over.effect {result : Except ClientError Outcome} {notes : List Note}
    (h : c.Over name result) (heffect : c.Effect m notes c') : c'.Over name result := by
  have hreturned : c.returned name ≠ [] := by
    rw [h.returned]
    exact List.cons_ne_nil _ _
  by_cases hown : m = .resume name
  · subst hown
    cases heffect with
    | heeded outer _ => exact outer.elim
    | @resumed _ r before after _ _ _ _ requests =>
        refine absurd ?_ (h.requests r)
        rw [requests]
        simp
  · refine ⟨fun q hq => ?_, (heffect.returned_other (.inr hreturned) hown).trans h.returned⟩
    rcases heffect.mem_requests hq with hq | ⟨_, _, _, _, hunreturned, _⟩ | ⟨_, q', hq', _⟩
    · exact h.requests q hq
    · exact hreturned hunreturned
    · exact h.requests q' hq'

theorem Over.not_resume {result : Except ClientError Outcome} (h : c.Over name result)
    (hc : c.Sound) : ¬Step (.resume name) c c' := by
  intro hstep
  obtain ⟨_, _, heffect, _⟩ := hstep.effect hc
  cases heffect with
  | heeded outer _ => exact outer
  | @resumed _ q _ _ _ _ _ _ requests =>
      apply h.requests q
      rw [requests]
      simp

/-- When a call goes on, it ends or holds another ticket; it sends what the session notes. -/
theorem Step.resumes (h : Step (.resume name) c c') (hc : c.Sound) (hr : (name, r) ∈ c.requests) :
    ∃ out frames d, c.pollRequest r = some (out, d) ∧ c.Goes r out frames d
      ∧ c'.correlator = d.correlator ∧ c'.journal = c.journal ++ frames.map .sent
      ∧ match out with
        | .inl result => c'.Over name result
        | .inr r' => (name, r') ∈ c'.requests := by
  obtain ⟨_, notes, heffect, hjournal⟩ := h.effect hc
  cases heffect with
  | heeded outer _ => exact outer.elim
  | @resumed _ q before after out frames d _ requests poll goes correlator requests' returned =>
      obtain rfl := hc.eq_of_name hr ((mem_split requests).2 (.inl rfl))
      refine ⟨out, frames, d, poll, goes, correlator, hjournal, ?_⟩
      cases out with
      | inl result =>
          refine ⟨fun q hq => ?_, ?_⟩
          · rw [requests'] at hq
            exact hc.ne_of_split requests (by simpa using hq) rfl
          · rw [returned, hc.unreturned hr]
            simp
      | inr r' =>
          show (name, r') ∈ c'.requests
          rw [requests']
          simp

/-- A call that goes on ends, or what is left of its history is that of the ticket it holds then. -/
theorem Waits.resume (h : c.Waits name r H) (hc : c.Sound) (hstep : Step (.resume name) c c') :
    (∃ result, c'.Over name result) ∨ ∃ r' header payload H', H = .message header payload :: H'
      ∧ r'.id = r.id ∧ r'.deadline = r.deadline ∧ c'.Waits name r' H' := by
  obtain ⟨hr, hshows⟩ := h
  obtain ⟨out, frames, d, _, goes, hcorrelator, _, hout⟩ := hstep.resumes hc hr
  cases out with
  | inl result => exact .inl ⟨result, hout⟩
  | inr r' =>
      right
      obtain ⟨hid, hdeadline, _⟩ := goes.kept r' rfl
      have hresumed := goes.resumed
      rw [← hcorrelator] at hresumed
      generalize hk : c'.correlator = k at hresumed
      cases hresumed with
      | @kept res next ready announced =>
          cases H with
          | nil => exact absurd ready (hc.tickets.waiter_unserved hshows)
          | cons x H =>
              cases x with
              | message header payload =>
                  obtain ⟨followUp, hserved, hnext⟩ := hshows
                  obtain rfl := hc.tickets.served_unique ready hserved
                  dsimp only at announced
                  subst announced
                  refine ⟨r', header, payload, H, rfl, hid, hdeadline, hout, ?_⟩
                  -- Only the head of the line is gone, and the tickets after it were drawn later.
                  rw [hk, hid]
                  refine hnext.2.agree fun x hx => Correlator.agree_fetched ?_
                  have hlt := hc.tickets.forward ⟨_, hserved, rfl⟩
                  have hle := hc.tickets.le_of_leads hx
                  omega
              | ended => exact absurd ready (hshows.1 res)
              | expired => exact hshows.elim

/-- A call that goes on in time does so because something has happened to it. -/
theorem Waits.ne_nil_of_resume (h : c.Waits name r H) (hc : c.Sound)
    (hstep : Step (.resume name) c c') (timely : ¬c.Expires name) : H ≠ [] := by
  rintro rfl
  obtain ⟨_, _, _, hpoll, _⟩ := hstep.resumes hc h.request
  have hwaiting := h.shows.standing_nil hc.tickets
  rw [pollRequest_of_waiting hwaiting] at hpoll
  split at hpoll
  · rename_i hdeadline
    exact timely ⟨r, h.request, hwaiting, hdeadline⟩
  · cases hpoll

/-- A call that goes on because its time is over times out, and sends nothing. -/
theorem Waits.expire (h : c.Waits name r H) (hc : c.Sound) (hstep : Step (.resume name) c c')
    (due : c.Expires name) :
    H = [] ∧ c'.journal = c.journal ∧ c'.Over name (.error (.timeout r.id)) := by
  obtain ⟨q, hq, hwaiting, hdeadline⟩ := due
  obtain rfl := hc.eq_of_name h.request hq
  obtain ⟨out, _, _, hpoll, goes, _, hjournal, hout⟩ := hstep.resumes hc h.request
  rw [pollRequest_of_waiting hwaiting, if_pos hdeadline] at hpoll
  cases hpoll
  exact ⟨h.shows.eq_nil hc.tickets hwaiting, hjournal.trans goes.journal.symm, hout⟩

end Client

end DataGateway

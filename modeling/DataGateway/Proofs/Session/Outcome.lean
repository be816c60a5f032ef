import DataGateway.Proofs.Session.Lifecycle

/-!
# How a session comes out

A login comes out once, the session publishes how, and the call that connects returns the same. The
end of a session that was logged in is published and told to the handler together, once. The link is
closed from this end at most once: not if the transport closed it first.

All of this is about the notes that are no traffic, and of those there are only seven histories.
`Chronicle` lists them by phase. A step takes one to another, and the other statements are read off
the list.
-/

namespace DataGateway

/-- How a login came out, if that is what is published. -/
def Notice.verdict? : Notice → Option (Except LoginFailure ConnectionAck)
  | loggedIn ack => some (.ok ack)
  | loginFailed failure => some (.error failure)
  | disconnected => none

namespace Note

def verdict? : Note → Option (Except LoginFailure ConnectionAck)
  | published notice => notice.verdict?
  | _ => none

def isDisconnected : Note → Bool
  | published .disconnected => true
  | _ => false

def isEnded : Note → Bool
  | ended => true
  | _ => false

def isClosed : Note → Bool
  | closed => true
  | _ => false

def isTraffic : Note → Bool
  | received .. | sent _ => true
  | _ => false

theorem eq_false_of_isTraffic {n : Note} (h : n.isTraffic) :
    n.isClosed = false ∧ n.isEnded = false ∧ n.isDisconnected = false := by
  cases n with
  | received | sent => exact ⟨rfl, rfl, rfl⟩
  | _ => cases h

end Note

namespace Session

open Relation (ReflTransGen)

/-- How logins came out, going by the journal. -/
def verdicts (journal : List Note) : List (Except LoginFailure ConnectionAck) :=
  journal.filterMap Note.verdict?

/-- The notes that are no traffic. -/
def turns (journal : List Note) : List Note := journal.filter fun n => !n.isTraffic

theorem turns_append (a b : List Note) : turns (a ++ b) = turns a ++ turns b :=
  List.filter_append a b

theorem turns_sent (frames : List Bytes) : turns (frames.map .sent) = [] := by
  apply List.filter_eq_nil_iff.2
  intro n hn
  obtain ⟨frame, _, rfl⟩ := List.mem_map.1 hn
  exact Bool.false_ne_true

theorem verdicts_turns (journal : List Note) : verdicts (turns journal) = verdicts journal := by
  unfold verdicts turns
  rw [List.filterMap_filter]
  congr 1
  funext n
  cases n <;> rfl

theorem countP_turns {p : Note → Bool} (hp : ∀ n, n.isTraffic → p n = false)
    (journal : List Note) : (turns journal).countP p = journal.countP p := by
  unfold turns
  rw [List.countP_filter]
  apply List.countP_congr
  intro n _
  cases h : n.isTraffic with
  | false => simp
  | true => simp [hp n h]

theorem countP_isClosed_turns (journal : List Note) :
    (turns journal).countP Note.isClosed = journal.countP Note.isClosed :=
  countP_turns (fun _ hn => (Note.eq_false_of_isTraffic hn).1) journal

theorem countP_isEnded_turns (journal : List Note) :
    (turns journal).countP Note.isEnded = journal.countP Note.isEnded :=
  countP_turns (fun _ hn => (Note.eq_false_of_isTraffic hn).2.1) journal

theorem countP_isDisconnected_turns (journal : List Note) :
    (turns journal).countP Note.isDisconnected = journal.countP Note.isDisconnected :=
  countP_turns (fun _ hn => (Note.eq_false_of_isTraffic hn).2.2) journal

/-! ### The histories -/

/-- What a session has noted beside its traffic, by its phase. -/
inductive Chronicle : Phase → List Note → Prop
  | silent {p : Phase} (before : p = .notConnected ∨ p = .connecting ∨ p = .connected) :
      Chronicle p []
  | loggedIn (ack : ConnectionAck) : Chronicle .loggedIn [.published (.loggedIn ack)]
  | failed {failure : LoginFailure} (cause : failure ≠ .closed) :
      Chronicle .failed [.closed, .published (.loginFailed failure)]
  | lost : Chronicle .failed [.published (.loginFailed .closed)]
  | abandoned : Chronicle .disconnected [.closed]
  | closed (ack : ConnectionAck) : Chronicle .disconnected
      [.published (.loggedIn ack), .closed, .ended, .published .disconnected]
  | ended (ack : ConnectionAck) : Chronicle .disconnected
      [.published (.loggedIn ack), .ended, .published .disconnected]

namespace Chronicle

variable {p : Phase} {notes : List Note}

theorem eq_nil (h : Chronicle p notes)
    (hp : p = .notConnected ∨ p = .connecting ∨ p = .connected) : notes = [] := by
  cases h with
  | silent => rfl
  | _ => simp at hp

theorem eq_of_loggedIn (h : Chronicle .loggedIn notes) :
    ∃ ack, notes = [.published (.loggedIn ack)] := by
  cases h with
  | silent before => simp at before
  | loggedIn ack => exact ⟨ack, rfl⟩

theorem length_verdicts_le (h : Chronicle p notes) : (verdicts notes).length ≤ 1 := by
  cases h <;> simp [verdicts, List.filterMap_cons, Note.verdict?, Notice.verdict?]

theorem countP_isClosed_le (h : Chronicle p notes) : notes.countP Note.isClosed ≤ 1 := by
  cases h <;> simp [List.countP_cons, Note.isClosed]

theorem countP_isClosed_of_error (h : Chronicle p notes) {failure : LoginFailure}
    (hfailure : .error failure ∈ verdicts notes) :
    notes.countP Note.isClosed = if failure = .closed then 0 else 1 := by
  cases h with
  | @failed f cause =>
      obtain rfl : f = failure := by
        simpa [verdicts, Note.verdict?, Notice.verdict?, eq_comm] using hfailure
      rw [if_neg cause]
      rfl
  | lost =>
      obtain rfl : failure = .closed := by
        simpa [verdicts, Note.verdict?, Notice.verdict?] using hfailure
      rfl
  | _ => simp [verdicts, Note.verdict?, Notice.verdict?] at hfailure

theorem countP_isEnded (h : Chronicle p notes) :
    notes.countP Note.isEnded = notes.countP Note.isDisconnected
      ∧ notes.countP Note.isEnded ≤ 1
      ∧ (notes.countP Note.isEnded = 1 ↔ (∃ ack, .ok ack ∈ verdicts notes) ∧ p ≠ .loggedIn) := by
  cases h <;> simp [verdicts, Note.verdict?, Notice.verdict?, List.countP_cons, Note.isEnded,
    Note.isDisconnected]

end Chronicle

/-! ### Steps -/

/-- The history of a session is one of the seven, and an outcome that is kept for a call is the one
that was published. -/
structure Recorded (s : Session) : Prop where
  chronicle : Chronicle s.phase (turns s.journal)
  settled : ∀ o, s.login = .settled o → verdicts s.journal = [o]

section

variable {s s' : Session} {notes : List Note}

theorem Recorded.turns_eq_nil (hs : s.Sound) (hr : s.Recorded) (h : s.phase.isHandshaking) :
    turns s.journal = [] := by
  apply hr.chronicle.eq_nil
  obtain ⟨hinitializing, hloggingIn⟩ := hs.visible
  cases hphase : s.phase with
  | notConnected | connecting | connected => simp
  | initializing => exact absurd hphase hinitializing
  | loggingIn => exact absurd hphase hloggingIn
  | _ => rw [hphase] at h; cases h

theorem Recorded.turns_of_unused (hs : s.Sound) (hr : s.Recorded) (h : s.used = false) :
    turns s.journal = [] :=
  hr.chronicle.eq_nil (.inl (hs.unused h))

/-- Traffic and silence leave the history and the outcome as they are. -/
theorem Recorded.quiet (hr : s.Recorded) (hphase : s'.phase = s.phase)
    (hlogin : s'.login = s.login ∨ s'.login = .idle) (hjournal : s'.journal = s.journal ++ notes)
    (hnotes : turns notes = []) : s'.Recorded := by
  have hturns : turns s'.journal = turns s.journal := by
    rw [hjournal, turns_append, hnotes, List.append_nil]
  constructor
  · rw [hphase, hturns]
    exact hr.chronicle
  · intro o ho
    rw [← verdicts_turns, hturns, verdicts_turns]
    apply hr.settled
    rcases hlogin with hsame | hidle
    · rw [← hsame, ho]
    · rw [hidle] at ho
      cases ho

/-- A step that ends the silence, and keeps no outcome but the one it publishes. -/
theorem Recorded.speak (hsilent : turns s.journal = []) (hjournal : s'.journal = s.journal ++ notes)
    (hchronicle : Chronicle s'.phase (turns notes))
    (hsettled : ∀ o, s'.login = .settled o → verdicts notes = [o]) : s'.Recorded := by
  have hturns : turns s'.journal = turns notes := by
    rw [hjournal, turns_append, hsilent, List.nil_append]
  constructor
  · rw [hturns]
    exact hchronicle
  · intro o ho
    rw [← verdicts_turns, hturns, verdicts_turns]
    exact hsettled o ho

theorem Recorded.outcome_eq (hr : s.Recorded) (hsilent : turns s.journal = [])
    {outcome : Except LoginFailure ConnectionAck} (hlogin : s.Settles s')
    (houtcome : s.login = .awaited → s'.login = .settled outcome) :
    ∀ o, s'.login = .settled o → outcome = o := by
  intro o ho
  cases hs : s.login with
  | idle =>
      rw [hlogin.2.2 hs] at ho
      cases ho
  | awaited =>
      rw [houtcome hs] at ho
      cases ho
      rfl
  | settled kept =>
      have hkept := hr.settled kept hs
      rw [← verdicts_turns, hsilent] at hkept
      cases hkept

theorem Recorded.finish (hr : s.Recorded) (hphase : s.phase = .loggedIn)
    (hlogin : s'.login = s.login) (hjournal : s'.journal = s.journal ++ notes)
    (hnotes : verdicts notes = [])
    (hchronicle : ∀ ack, Chronicle s'.phase (.published (.loggedIn ack) :: turns notes)) :
    s'.Recorded := by
  have hbefore := hr.chronicle
  rw [hphase] at hbefore
  obtain ⟨ack, hack⟩ := hbefore.eq_of_loggedIn
  constructor
  · rw [hjournal, turns_append, hack]
    exact hchronicle ack
  · intro o ho
    rw [hlogin] at ho
    unfold verdicts at hnotes ⊢
    rw [hjournal, List.filterMap_append, hnotes, List.append_nil]
    exact hr.settled o ho

theorem Reaction.recorded {x : Signal} (hs : s.Sound) (hr : s.Recorded)
    (h : s.Reaction x notes s') (hjournal : s'.journal = s.journal ++ notes) : s'.Recorded := by
  -- A login is under way only in silence, so what ends it is the whole history.
  cases h with
  | idle hphase hlogin => exact hr.quiet hphase (.inl hlogin) hjournal rfl
  | received hloggedIn _ hphase hlogin =>
      exact hr.quiet (hphase.trans hloggedIn.symm) (.inl hlogin) hjournal rfl
  | introduced hconnecting _ hphase hlogin =>
      have hsilent := hr.turns_eq_nil hs (by rw [hconnecting]; rfl)
      refine .speak hsilent hjournal (.silent (.inr (.inr hphase))) fun o ho => ?_
      have hkept := hr.settled o (hlogin ▸ ho)
      rw [← verdicts_turns, hsilent] at hkept
      cases hkept
  | accepted hanswerable _ _ _ hphase hlogin houtcome =>
      have hsilent := hr.turns_eq_nil hs (by rcases hanswerable with h | h <;> rw [h] <;> rfl)
      apply Recorded.speak hsilent hjournal
      · rw [hphase]
        exact .loggedIn _
      · intro o ho
        obtain rfl := hr.outcome_eq hsilent hlogin houtcome o ho
        rfl
  | failed hhand hnotes hphase hlogin houtcome hcause hspared =>
      have hsilent := hr.turns_eq_nil hs hhand
      rcases hnotes with rfl | rfl
      · apply Recorded.speak hsilent hjournal
        · rw [hphase]
          refine .failed fun hclosed => ?_
          exact List.cons_ne_nil _ _ (List.cons.inj (hspared.2 (hcause.1 hclosed))).2
        · intro o ho
          obtain rfl := hr.outcome_eq hsilent hlogin houtcome o ho
          rfl
      · obtain rfl := hcause.2 (hspared.1 rfl)
        apply Recorded.speak hsilent hjournal
        · rw [hphase]
          exact .lost
        · intro o ho
          obtain rfl := hr.outcome_eq hsilent hlogin houtcome o ho
          rfl
  | ended hloggedIn hphase hlogin =>
      apply hr.finish hloggedIn hlogin hjournal rfl
      intro ack
      rw [hphase]
      exact .ended ack

theorem Step.recorded {m : Move} (hs : s.Sound) (hr : s.Recorded) (h : Step m s s') :
    s'.Recorded := by
  obtain ⟨notes, heffect, _, hjournal, _⟩ := h.effect
  have idle (hidle : s'.login = .idle) : ∀ o, s'.login = .settled o → verdicts notes = [o] := by
    intro o ho
    rw [hidle] at ho
    cases ho
  cases heffect with
  | none hphase hlogin => exact hr.quiet hphase hlogin hjournal rfl
  | sent hloggedIn hphase hlogin =>
      exact hr.quiet (hphase.trans hloggedIn.symm) (.inl hlogin) hjournal (turns_sent _)
  | begun hunused _ hphase hlogin =>
      refine .speak (hr.turns_of_unused hs hunused) hjournal (.silent (.inr (.inl hphase))) ?_
      intro o ho
      rw [hlogin] at ho
      cases ho
  | refused hunused _ hphase hlogin hcause =>
      apply Recorded.speak (hr.turns_of_unused hs hunused) hjournal _ (idle hlogin)
      rw [hphase]
      exact .failed hcause
  | expired hawaited hphase hlogin =>
      apply Recorded.speak (hr.turns_eq_nil hs (hs.isHandshaking hawaited)) hjournal _ (idle hlogin)
      rw [hphase]
      exact .failed fun h => nomatch h
  | reacted hreaction => exact hreaction.recorded hs hr hjournal
  | ended hloggedIn hphase hlogin =>
      apply hr.finish hloggedIn hlogin hjournal rfl
      intro ack
      rw [hphase]
      exact .closed ack
  | abandoned hhand hphase hlogin =>
      apply Recorded.speak (hr.turns_eq_nil hs hhand) hjournal _ (idle hlogin)
      rw [hphase]
      exact .abandoned

theorem Reachable.recorded (hs : Reachable s) : s.Recorded := by
  induction hs with
  | new config link time serial => exact ⟨.silent (.inl rfl), fun o h => nomatch h⟩
  | step hs h ih => exact h.recorded hs.sound ih

/-! ### Runs -/

theorem Run.reachable (hs : Reachable s) (h : Run s s') : Reachable s' := by
  induction h with
  | refl => exact hs
  | tail _ hstep ih =>
      obtain ⟨m, hstep⟩ := hstep
      exact ih.step hstep

theorem Run.journal_prefix (h : Run s s') : s.journal <+: s'.journal := by
  induction h with
  | refl => exact List.prefix_rfl
  | tail _ hstep ih =>
      obtain ⟨m, hstep⟩ := hstep
      obtain ⟨notes, _, _, hjournal, _⟩ := hstep.effect
      rw [hjournal]
      exact ih.trans (List.prefix_append _ _)

theorem Step.journal_eq_of_isTerminal {m : Move} (hs : s.Sound) (h : Step m s s')
    (hterminal : s.phase.isTerminal) : s'.journal = s.journal := by
  obtain ⟨notes, heffect, _, hjournal, _⟩ := h.effect
  have live {p : Phase} (hphase : s.phase = p) (hp : ¬p.isTerminal) : False :=
    hp (hphase ▸ hterminal)
  have hhand : ¬s.phase.isHandshaking := fun hhand =>
    Phase.not_isTerminal_of_isHandshaking hhand hterminal
  cases heffect with
  | none => rw [hjournal, List.append_nil]
  | sent hloggedIn | ended hloggedIn => exact (live hloggedIn (by decide)).elim
  | begun hunused | refused hunused => exact (live (hs.unused hunused) (by decide)).elim
  | expired hawaited => exact absurd (hs.isHandshaking hawaited) hhand
  | abandoned hhandshaking => exact absurd hhandshaking hhand
  | reacted hreaction =>
      cases hreaction with
      | idle => rw [hjournal, List.append_nil]
      | received hloggedIn | ended hloggedIn => exact (live hloggedIn (by decide)).elim
      | introduced hconnecting => exact (live hconnecting (by decide)).elim
      | accepted hanswerable =>
          rcases hanswerable with hphase | hphase <;> exact (live hphase (by decide)).elim
      | failed hhandshaking => exact absurd hhandshaking hhand

theorem Run.journal_eq_of_isTerminal (hs : s.Sound) (h : Run s s')
    (hterminal : s.phase.isTerminal) : s'.journal = s.journal := by
  induction h with
  | refl => rfl
  | tail hrun hstep ih =>
      obtain ⟨m, hstep⟩ := hstep
      obtain ⟨hsound, hleads⟩ := Run.leads hs hrun
      rw [hstep.journal_eq_of_isTerminal hsound, ih]
      rw [hleads.eq_of_isTerminal hterminal]
      exact hterminal

/-! ### The verdict -/

theorem Reachable.length_verdicts_le (hs : Reachable s) : (verdicts s.journal).length ≤ 1 := by
  rw [← verdicts_turns]
  exact hs.recorded.chronicle.length_verdicts_le

theorem Run.verdicts_eq (hs : Reachable s) (h : Run s s')
    {outcome : Except LoginFailure ConnectionAck} (hverdicts : verdicts s.journal = [outcome]) :
    verdicts s'.journal = [outcome] := by
  have hbefore : verdicts s.journal <+: verdicts s'.journal := h.journal_prefix.filterMap _
  rw [← hverdicts]
  apply (hbefore.eq_of_length_le _).symm
  rw [hverdicts]
  exact (h.reachable hs).length_verdicts_le

/-- A call that connects is made and runs to its end, with a result. -/
inductive Connects (s : Session) : Except ClientError ConnectionAck → Session → Prop
  | atOnce {e : ClientError} {t : Session} (connect : s.connect = (.error e, t)) :
      Connects s (.error e) t
  | collected {t u v : Session} {r : Except ClientError ConnectionAck}
      (connect : s.connect = (.ok (), t)) (run : Run t u) (outcome : u.outcome = some (r, v)) :
      Connects s r v
  | expired {t u : Session} (connect : s.connect = (.ok (), t)) (run : Run t u)
      (awaited : u.login = .awaited) : Connects s (.error u.expire.1) u.expire.2

theorem outcome_eq_some {r : Except ClientError ConnectionAck} (h : s.outcome = some (r, s')) :
    ∃ outcome, s.login = .settled outcome ∧ r = outcome.mapError .connectionFailed
      ∧ s' = { s with login := .idle } := by
  unfold outcome at h
  split at h
  · rename_i ack hlogin
    cases h
    exact ⟨.ok ack, hlogin, rfl, rfl⟩
  · rename_i failure hlogin
    cases h
    exact ⟨.error failure, hlogin, rfl, rfl⟩
  · cases h

theorem Reachable.verdicts_of_failed (hs : Reachable s) {journal : List Note}
    {failure : LoginFailure}
    (hjournal : s.journal = journal ++ [.closed, .published (.loginFailed failure)]) :
    verdicts s.journal = [.error failure] := by
  have hverdicts : verdicts s.journal = verdicts journal ++ [.error failure] := by
    rw [hjournal]
    exact List.filterMap_append
  have hlength := hs.length_verdicts_le
  rw [hverdicts, List.length_append, List.length_singleton] at hlength
  rw [hverdicts, List.length_eq_zero_iff.1 (show (verdicts journal).length = 0 by omega),
    List.nil_append]

/-- The first call that connects, under settings that pass their check, returns what is
published. -/
theorem Connects.verdict (hs : Reachable s) (hfree : s.login = .idle) (hunused : s.used = false)
    (hcheck : s.config.check = .ok ()) {r : Except ClientError ConnectionAck}
    (h : Connects s r s') : ∃ outcome, r = outcome.mapError .connectionFailed
      ∧ ∀ t, Run s' t → verdicts t.journal = [outcome] := by
  have hconnect : Reachable s.connect.2 := hs.step (.connect hfree)
  cases h with
  | atOnce connect =>
      rw [connect] at hconnect
      rcases s.connect_eq with ⟨hused, _⟩ | ⟨_, e, herror, _⟩ | ⟨_, _, link, heq⟩
        | ⟨_, _, link, failure, _, heq⟩
      · rw [hunused] at hused
        cases hused
      · rw [hcheck] at herror
        cases herror
      · rw [heq] at connect
        cases connect
      · rw [heq] at connect
        cases connect
        have hjournal := (fail_continues
          { s with used := true, phase := .connecting, login := .awaited, link } failure).journal
        exact ⟨.error failure, rfl, fun t ht => ht.verdicts_eq hconnect
          (hconnect.verdicts_of_failed hjournal)⟩
  | @collected t u v r connect run taken =>
      rw [connect] at hconnect
      have hu := run.reachable hconnect
      obtain ⟨outcome, hlogin, rfl, rfl⟩ := outcome_eq_some taken
      exact ⟨outcome, rfl, fun t ht => ht.verdicts_eq (hu.step (.collect taken))
        (hu.recorded.settled outcome hlogin)⟩
  | @expired t u connect run awaited =>
      rw [connect] at hconnect
      have hexpire := (run.reachable hconnect).step (.expire awaited)
      exact ⟨.error .timedOut, rfl, fun t ht => ht.verdicts_eq hexpire
        (hexpire.verdicts_of_failed (fail_continues u .timedOut).journal)⟩

theorem Connects.refused (h : ¬(s.used = false ∧ s.config.check = .ok ()))
    {r : Except ClientError ConnectionAck} (hconnects : Connects s r s') :
    (r = .error .alreadyUsed ∨ ∃ e, r = .error (.config e))
      ∧ s'.phase = s.phase ∧ s'.journal = s.journal := by
  rcases s.connect_eq with ⟨_, heq⟩ | ⟨_, e, _, heq⟩ | ⟨hunused, hcheck, _⟩
    | ⟨hunused, hcheck, _⟩
  · cases hconnects with
    | atOnce connect =>
        rw [heq] at connect
        cases connect
        exact ⟨.inl rfl, rfl, rfl⟩
    | collected connect | expired connect => rw [heq] at connect; cases connect
  · cases hconnects with
    | atOnce connect =>
        rw [heq] at connect
        cases connect
        exact ⟨.inr ⟨e, rfl⟩, rfl, rfl⟩
    | collected connect | expired connect => rw [heq] at connect; cases connect
  · exact absurd ⟨hunused, hcheck⟩ h
  · exact absurd ⟨hunused, hcheck⟩ h

/-! ### The end of a login -/

theorem Effect.loggedIn_of_ok {m : Move} (h : s.Effect m notes s') {ack : ConnectionAck}
    (hack : .ok ack ∈ verdicts notes) : s'.phase = .loggedIn := by
  cases h with
  | sent _ hphase => exact hphase
  | reacted hreaction =>
      cases hreaction with
      | received _ _ hphase | accepted _ _ _ _ hphase => exact hphase
      | failed _ hnotes =>
          rcases hnotes with rfl | rfl <;>
            simp [verdicts, Note.verdict?, Notice.verdict?] at hack
      | _ => simp [verdicts, Note.verdict?, Notice.verdict?] at hack
  | _ => simp [verdicts, Note.verdict?, Notice.verdict?] at hack

theorem Reachable.ok_mem_verdicts (hs : Reachable s) :
    (∃ ack, .ok ack ∈ verdicts s.journal)
      ↔ ∃ t, Reachable t ∧ t.phase = .loggedIn ∧ Run t s := by
  constructor
  · rintro ⟨ack, hack⟩
    induction hs with
    | new config link time serial => cases hack
    | @step s s' m hs h ih =>
        obtain ⟨notes, heffect, _, hjournal, _⟩ := h.effect
        rw [hjournal, verdicts, List.filterMap_append] at hack
        rcases List.mem_append.1 hack with hbefore | hnow
        · obtain ⟨t, ht, hphase, hrun⟩ := ih hbefore
          exact ⟨t, ht, hphase, hrun.tail ⟨m, h⟩⟩
        · exact ⟨s', hs.step h, heffect.loggedIn_of_ok hnow, .refl⟩
  · rintro ⟨t, ht, hphase, hrun⟩
    have hbefore := ht.recorded.chronicle
    rw [hphase] at hbefore
    obtain ⟨ack, hack⟩ := hbefore.eq_of_loggedIn
    refine ⟨ack, (hrun.journal_prefix.filterMap _).subset ?_⟩
    show _ ∈ verdicts t.journal
    rw [← verdicts_turns, hack]
    exact List.mem_singleton_self _

/-! ### The close -/

theorem Reachable.countP_isClosed_of_live (hs : Reachable s)
    (hphase : s.phase = .loggedIn ∨ s.phase.isHandshaking) :
    s.journal.countP Note.isClosed = 0 := by
  rw [← countP_isClosed_turns]
  rcases hphase with hphase | hhand
  · have hchronicle := hs.recorded.chronicle
    rw [hphase] at hchronicle
    obtain ⟨ack, hturns⟩ := hchronicle.eq_of_loggedIn
    rw [hturns]
    rfl
  · rw [hs.recorded.turns_eq_nil hs.sound hhand]
    rfl

/-- A call that closes what is live ends it, and closes the link. -/
theorem close_of_live (hphase : s.phase = .loggedIn ∨ s.phase.isHandshaking) :
    s.close.phase = .disconnected
      ∧ s.close.journal.countP Note.isClosed = s.journal.countP Note.isClosed + 1 := by
  rcases hphase with hphase | hhand
  · obtain ⟨hphase', _, hcontinues⟩ := close_of_loggedIn hphase
    rw [hcontinues.journal, List.countP_append]
    exact ⟨hphase', rfl⟩
  · obtain ⟨hphase', _, hcontinues⟩ := close_of_handshaking hhand
    rw [hcontinues.journal, List.countP_append]
    exact ⟨hphase', rfl⟩

theorem Step.countP_isClosed_of_close (hs : Reachable s)
    (hphase : s.phase = .loggedIn ∨ s.phase.isHandshaking) (h : Step .close s s') {t : Session}
    (hrun : Run s' t) : t.journal.countP Note.isClosed = 1 := by
  have hsound := h.sound hs.sound
  cases h with
  | close free =>
      obtain ⟨hphase', hcount⟩ := close_of_live hphase
      rw [hrun.journal_eq_of_isTerminal hsound (by rw [hphase']; rfl), hcount,
        hs.countP_isClosed_of_live hphase]

theorem onClosed_of_live (hphase : s.phase = .loggedIn ∨ s.phase.isHandshaking) :
    s.onClosed.phase.isTerminal
      ∧ s.onClosed.journal.countP Note.isClosed = s.journal.countP Note.isClosed := by
  unfold onClosed
  dsimp only
  rcases hphase with hphase | hhand
  · rw [if_pos hphase]
    refine ⟨rfl, ?_⟩
    simp [publish, note, Note.isClosed]
  · have hphase : s.phase ≠ .loggedIn := by
      intro hphase
      rw [hphase] at hhand
      cases hhand
    rw [if_neg hphase, if_pos hhand]
    have hjournal := (failClosed_continues { s with link := s.link.deafen } .closed).journal
    refine ⟨?_, ?_⟩
    · rw [show (failClosed _ _).phase = _ from settle_phase _ _]
      rfl
    · rw [hjournal]
      simp [Note.isClosed]

theorem Step.countP_isClosed_of_closed (hs : Reachable s)
    (hphase : s.phase = .loggedIn ∨ s.phase.isHandshaking) (h : Step (.signal .closed) s s')
    {t : Session} (hrun : Run s' t) : t.journal.countP Note.isClosed = 0 := by
  have hsound := h.sound hs.sound
  cases h with
  | signal =>
      obtain ⟨hterminal, hcount⟩ := onClosed_of_live hphase
      rw [hrun.journal_eq_of_isTerminal hsound hterminal]
      exact hcount.trans (hs.countP_isClosed_of_live hphase)

end

/-- The law of how a session comes out. A login comes out once, and the first call that connects
returns what is published of it, while any other returns an error that nobody notices. The handler
is told of an end as often as an end is published: once if a session that was logged in has ended.
The link is closed from this end at most once: when a login fails, unless by the link's closing, and
when a session is closed that is live; and not when it ends by the link's closing. -/
theorem Reachable.concludes {s : Session} (hs : Reachable s) :
    ((verdicts s.journal).length ≤ 1
      ∧ ∀ r t, s.login = .idle → Connects s r t →
        if s.used = false ∧ s.config.check = .ok () then
          ∃ outcome, r = outcome.mapError .connectionFailed
            ∧ ∀ t', Run t t' → verdicts t'.journal = [outcome]
        else
          (r = .error .alreadyUsed ∨ ∃ e, r = .error (.config e))
            ∧ t.phase = s.phase ∧ t.journal = s.journal)
    ∧ (s.journal.countP Note.isEnded = s.journal.countP Note.isDisconnected
      ∧ s.journal.countP Note.isEnded ≤ 1
      ∧ (s.journal.countP Note.isEnded = 1 ↔
        (∃ t, Reachable t ∧ t.phase = .loggedIn ∧ Run t s) ∧ s.phase ≠ .loggedIn))
    ∧ (s.journal.countP Note.isClosed ≤ 1
      ∧ (∀ failure, .error failure ∈ verdicts s.journal →
        s.journal.countP Note.isClosed = if failure = .closed then 0 else 1)
      ∧ (s.phase = .loggedIn ∨ s.phase.isHandshaking → ∀ s' t, Step .close s s' → Run s' t →
        t.journal.countP Note.isClosed = 1)
      ∧ (s.phase = .loggedIn ∨ s.phase.isHandshaking → ∀ s' t, Step (.signal .closed) s s' →
        Run s' t → t.journal.countP Note.isClosed = 0)) := by
  have hchronicle := hs.recorded.chronicle
  have hended := hchronicle.countP_isEnded
  rw [countP_isEnded_turns, countP_isDisconnected_turns, verdicts_turns,
    hs.ok_mem_verdicts] at hended
  refine ⟨⟨hs.length_verdicts_le, ?_⟩, hended, ?_, ?_, ?_, ?_⟩
  · intro r t hfree hconnects
    split
    · rename_i hfirst
      exact hconnects.verdict hs hfree hfirst.1 hfirst.2
    · rename_i hother
      exact hconnects.refused hother
  · rw [← countP_isClosed_turns]
    exact hchronicle.countP_isClosed_le
  · intro failure hfailure
    rw [← verdicts_turns] at hfailure
    rw [← countP_isClosed_turns]
    exact hchronicle.countP_isClosed_of_error hfailure
  · intro hphase s' t hstep hrun
    exact hstep.countP_isClosed_of_close hs hphase hrun
  · intro hphase s' t hstep hrun
    exact hstep.countP_isClosed_of_closed hs hphase hrun

theorem Reachable.concludes_fresh : ∃ r t, Reachable fresh ∧ Connects fresh r t
    ∧ (∃ outcome, r = outcome.mapError .connectionFailed ∧ verdicts t.journal = [outcome])
    ∧ t.phase = .loggedIn ∧ Step .close t t.close ∧ t.close.journal.countP Note.isClosed = 1
    ∧ t.close.journal.countP Note.isEnded = 1 := by
  have hs : Reachable fresh := .new _ _ _ _
  obtain ⟨u, hrun, hsome, hloggedIn⟩ :
      ∃ u, Run fresh.connect.2 u ∧ u.outcome.isSome ∧ u.phase = .loggedIn :=
    ⟨_, .tail (.tail .refl ⟨_, .signal .opened⟩) ⟨_, .signal (.binary greeting)⟩,
      by decide +kernel⟩
  obtain ⟨⟨r, t⟩, htaken⟩ := Option.isSome_iff_exists.1 hsome
  have hconnects : Connects fresh r t := .collected rfl hrun htaken
  have ht : Reachable t := (hrun.reachable (hs.step (.connect rfl))).step (.collect htaken)
  obtain ⟨hphase, hfree⟩ : t.phase = .loggedIn ∧ t.login = .idle := by
    obtain ⟨_, _, _, rfl⟩ := outcome_eq_some htaken
    exact ⟨hloggedIn, rfl⟩
  have hclose : Step .close t t.close := .close hfree
  obtain ⟨⟨_, hresult⟩, _⟩ := hs.concludes
  have hverdict := hresult r t rfl hconnects
  rw [if_pos ⟨rfl, rfl⟩] at hverdict
  obtain ⟨outcome, hr, hverdicts⟩ := hverdict
  obtain ⟨_, _, _, _, hcloses, _⟩ := ht.concludes
  obtain ⟨_, ⟨_, _, hended⟩, _⟩ := (ht.step hclose).concludes
  refine ⟨r, t, hs, hconnects, ⟨outcome, hr, hverdicts t .refl⟩, hphase, hclose,
    hcloses (.inl hphase) _ _ hclose .refl, hended.2 ⟨⟨t, ht, hphase, .single ⟨_, hclose⟩⟩, ?_⟩⟩
  rw [(close_of_loggedIn hphase).1]
  decide

end Session

end DataGateway

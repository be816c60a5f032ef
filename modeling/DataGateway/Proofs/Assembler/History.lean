import DataGateway.Proofs.Arrival
import DataGateway.Proofs.Message.RoundTrip

/-!
# Where a message comes from

The slices that a message was pieced together from, read off what happened before. A run is recorded
as a list of events: which slices were taken in or refused, whether anything of their message was
still buffered afterwards, and what was discarded. The invariant says of each incomplete message
that its buffer is the slices taken in since its first one was, laid end to end, and that nothing
dropped it in between. So a message that comes out holds one course of slices and nothing else.
-/

namespace DataGateway

/-- The slice lies right after these in a payload of a type and announced size, and is marked as
first or last by its place there. -/
structure Slice.Follows (s : Slice) (before : List Slice) (type : DataType) (size : Int64)
    (last : Bool) : Prop where
  dataType : s.header.dataType = type
  fragmentation : ∃ offset, s.header.fragmentation = .slice before.isEmpty last offset size
    ∧ Assembler.count offset = (before.flatMap Slice.chunk).length

namespace Assembler

theorem count_inj {m n : Int64} : count m = count n ↔ m = n := by
  rw [count, count, UInt64.toNat_inj]
  exact ⟨fun h => by rw [← Int64.toInt64_toUInt64 m, h, Int64.toInt64_toUInt64], congrArg _⟩

/-- Counts that no memory exceeds are the numbers themselves. -/
theorem toInt_eq_count {n : Int64} (h : count n < 2 ^ 63) : n.toInt = count n := by
  have hn : n.toBitVec.toNat < 2 ^ 63 := h
  change n.toBitVec.toInt = n.toBitVec.toNat
  rw [BitVec.toInt_eq_toNat_cond]
  omega

/-- What happened to an assembler. Of a slice, `kept` says whether anything was buffered of its
message afterwards. -/
inductive Event
  | pushed (s : Slice) (outcome : Except ProtocolError (Option Message)) (kept : Bool)
  | discarded (id : String)

namespace Event

def id : Event → String
  | pushed s _ _ => s.header.messageId
  | discarded id => id

/-- The slice that was taken in. -/
def taken : Event → Option Slice
  | pushed s (.ok _) _ => some s
  | pushed _ (.error _) _ | discarded _ => none

/-- The first slice of a message was taken in. -/
def Begins (id : String) (e : Event) : Prop :=
  e.id = id ∧ ∃ s last offset size, e.taken = some s
    ∧ s.header.fragmentation = .slice true last offset size

/-- The event is of another message, or a slice after which something is still buffered: neither a
discard nor an error that drops the message. -/
def Keeps (id : String) (e : Event) : Prop := e.id = id → ∃ s outcome, e = .pushed s outcome true

end Event

/-- The slices of a message that were taken in. -/
def taken (id : String) (history : List Event) : List Slice :=
  history.filterMap fun e => if e.id = id then e.taken else none

/-- How a slice is recorded that is pushed to an assembler. -/
def pushEvent (a : Assembler) (s : Slice) : Event :=
  .pushed s (a.push s).1 ((a.push s).2.pending.get? s.header.messageId).isSome

/-- The runs of an assembler that is empty at first, with what happened. -/
inductive Run (maxPayload maxPending : Nat) : List Event → Assembler → Prop
  | start : Run maxPayload maxPending [] { maxPayload, maxPending }
  | push {history : List Event} {a : Assembler} (h : Run maxPayload maxPending history a)
      (s : Slice) : Run maxPayload maxPending (history ++ [a.pushEvent s]) (a.push s).2
  | discard {history : List Event} {a : Assembler} (h : Run maxPayload maxPending history a)
      (id : String) : Run maxPayload maxPending (history ++ [.discarded id]) (a.discard id).2

/-- The events begin with the first slice of a message, and with no later one. -/
def Recent (id : String) (events : List Event) : Prop :=
  ∃ e rest, events = e :: rest ∧ e.Begins id ∧ ∀ f ∈ rest, ¬f.Begins id

/-- The slices are consecutive from the beginning of a payload, and the header is that of their
first. `last` says whether they reach its end. -/
structure Pieces (slices : List Slice) (last : Bool) (header : Header) (size : Int64) :
    Prop where
  follows : ∀ before s after, slices = before ++ s :: after →
    s.Follows before header.dataType size (last && after.isEmpty)
  header_eq : ∀ s ∈ slices.head?, s.header = header

variable {a : Assembler} {s : Slice} {id : String} {history : List Event}
  {maxPayload maxPending : Nat}

/-! ### Slices that are taken in -/

theorem eq_ok_of_join {outcome : Except ProtocolError (Option Message)} {m : Message}
    (h : outcome.toOption.join = some m) : outcome = .ok (some m) := by
  cases outcome with
  | error e => cases h
  | ok message => exact congrArg _ h

theorem checkNext_eq_ok_iff {p : Partial} {header : Header} {offset size : Nat} :
    p.checkNext header offset size = .ok () ↔ offset = p.buffer.length ∧ size = p.size
      ∧ header.dataType = p.header.dataType := by
  unfold Partial.checkNext
  grind

theorem complete_eq_ok {p : Partial} {m : Message} (h : p.complete = .ok m) :
    p.buffer.length = p.size ∧ Payload.decode p.header.dataType p.buffer = .ok m.payload
      ∧ m.header = { p.header with fragmentation := .whole none } := by
  unfold Partial.complete at h
  split at h
  · cases h
  · rename_i hlength
    cases hdecode : Payload.decode p.header.dataType p.buffer with
    | error e => simp [hdecode, bind, Except.bind] at h
    | ok payload =>
        simp only [hdecode, bind, Except.bind, Message.new] at h
        split at h
        · cases h
        · cases h
          exact ⟨not_not.1 hlength, rfl, rfl⟩

/-- A slice that is taken in continues what it is added to, and is marked last exactly if it gives
a message. -/
structure Added (p : Partial) (s : Slice) (first : Bool) (size : Int64)
    (outcome : Option Message) (b : Assembler) : Prop where
  dataType : s.header.dataType = p.header.dataType
  size_eq : p.size = count size
  fragmentation : ∃ offset, s.header.fragmentation = .slice first outcome.isSome offset size
    ∧ count offset = p.buffer.length
  pending : b.pending.get? s.header.messageId
    = if outcome.isSome then none else some { p with buffer := p.buffer ++ s.chunk }
  complete : ∀ m, outcome = some m →
    Partial.complete { p with buffer := p.buffer ++ s.chunk } = .ok m

theorem extend_eq_ok {p : Partial} {first last : Bool} {offset size : Int64}
    {outcome : Option Message} (hs : s.header.fragmentation = .slice first last offset size)
    (hp : a.pending.get? s.header.messageId = some p)
    (h : (a.extend s last offset (count size)).1 = .ok outcome) :
    Added p s first size outcome (a.extend s last offset (count size)).2 := by
  unfold extend at h ⊢
  simp only [hp] at h ⊢
  cases hnext : p.checkNext s.header (count offset) (count size) with
  | error e => simp [hnext] at h
  | ok u =>
      obtain ⟨hoffset, hsize, htype⟩ := checkNext_eq_ok_iff.1 hnext
      simp only [hnext] at h ⊢
      cases last with
      | true =>
          simp only [if_true] at h ⊢
          cases hcomplete : Partial.complete { p with buffer := p.buffer ++ s.chunk } with
          | error e => simp [hcomplete] at h
          | ok m =>
              rw [hcomplete] at h
              cases h
              refine ⟨htype, hsize.symm, ⟨offset, hs, hoffset⟩, ?_, ?_⟩
              · simp [drop]
              · rintro _ ⟨⟩
                exact hcomplete
      | false =>
          simp only [Bool.false_eq_true, if_false] at h ⊢
          split at h
          · cases h
          · rename_i hmore
            cases h
            rw [if_neg hmore]
            refine ⟨htype, hsize.symm, ⟨offset, hs, hoffset⟩, ?_, ?_⟩
            · simp
            · rintro _ ⟨⟩

/-- A slice that is taken in is added to the beginning it makes, or to what is buffered. -/
theorem push_eq_ok {outcome : Option Message} (h : (a.push s).1 = .ok outcome) :
    ∃ p size,
      Added p s true size outcome (a.push s).2 ∧ p = ⟨s.header, count size, []⟩
          ∧ count size ≤ a.maxPayload
        ∨ Added p s false size outcome (a.push s).2
          ∧ a.pending.get? s.header.messageId = some p := by
  cases hs : s.header.fragmentation with
  | whole offset =>
      rw [push, hs] at h
      cases h
  | slice first last offset size =>
      cases first with
      | false =>
          rw [push_next hs] at h ⊢
          cases hp : a.pending.get? s.header.messageId with
          | none =>
              unfold extend at h
              simp [hp] at h
          | some p => exact ⟨p, size, .inr ⟨extend_eq_ok hs hp h, rfl⟩⟩
      | true =>
          by_cases hlarge : a.maxPayload < count size
          · rw [push_of_large hs hlarge] at h
            cases h
          · have hfree : ¬Crowded (a.push s).1 := by
              rintro ⟨n, id, herror⟩
              rw [herror] at h
              cases h
            rw [push_of_admits hs (Nat.le_of_not_lt hlarge) (admits_of_not_crowded hfree)] at h ⊢
            have hp : (a.begun s.header (count size)).pending.get? s.header.messageId
                = some ⟨s.header, count size, []⟩ := Dict.get?_insert_self ..
            exact ⟨_, size, .inl ⟨extend_eq_ok hs hp h, rfl, Nat.le_of_not_lt hlarge⟩⟩

/-! ### Slices end to end -/

/-- Of the buffered bytes of a payload and the next slice, what lies end to end. -/
theorem Pieces.concat {slices : List Slice} {header : Header} {size : Int64} {last : Bool}
    (h : Pieces slices false header size) (hs : s.Follows slices header.dataType size last)
    (hfirst : slices = [] → s.header = header) : Pieces (slices ++ [s]) last header size := by
  constructor
  · intro before t after heq
    rcases List.eq_nil_or_concat after with rfl | ⟨after, u, rfl⟩
    · obtain ⟨rfl, hst⟩ := List.append_inj' heq rfl
      obtain rfl := (List.cons.inj hst).1
      simpa using hs
    · have hsplit : slices ++ [s] = (before ++ t :: after) ++ [u] := by simpa using heq
      obtain ⟨rfl, -⟩ := List.append_inj' hsplit rfl
      have hmore : (after.concat u).isEmpty = false := by cases after <;> rfl
      rw [hmore, Bool.and_false]
      exact h.follows before t after rfl
  · cases slices with
    | nil => simpa using hfirst rfl
    | cons t slices => simpa using h.header_eq

theorem Pieces.nil (header : Header) (size : Int64) : Pieces [] false header size :=
  ⟨by simp, by simp⟩

theorem Added.follows {p : Partial} {slices : List Slice} {first : Bool} {size : Int64}
    {outcome : Option Message} {b : Assembler} (h : Added p s first size outcome b)
    (hbuffer : p.buffer = slices.flatMap Slice.chunk) (hfirst : slices.isEmpty = first) :
    s.Follows slices p.header.dataType size outcome.isSome := by
  obtain ⟨offset, hs, hoffset⟩ := h.fragmentation
  exact ⟨h.dataType, offset, by rw [hs, hfirst], by rw [hoffset, hbuffer]⟩

/-! ### Slices in the order of events -/

theorem taken_append (id : String) (before after : List Event) :
    taken id (before ++ after) = taken id before ++ taken id after :=
  List.filterMap_append

theorem taken_of_ne {e : Event} (h : e.id ≠ id) : taken id [e] = [] := by
  simp [taken, h]

theorem taken_pushEvent_of_error {e : ProtocolError} (h : (a.push s).1 = .error e) :
    taken id [a.pushEvent s] = [] := by
  simp [taken, pushEvent, h, Event.taken]

theorem taken_pushEvent {outcome : Option Message} (h : (a.push s).1 = .ok outcome) :
    taken s.header.messageId [a.pushEvent s] = [s] := by
  simp [taken, pushEvent, h, Event.taken, Event.id]

theorem begins_pushEvent_iff {p : Partial} {first : Bool} {size : Int64}
    {outcome : Option Message} {b : Assembler} (h : (a.push s).1 = .ok outcome)
    (hadded : Added p s first size outcome b) :
    (a.pushEvent s).Begins s.header.messageId ↔ first = true := by
  obtain ⟨offset, hs, -⟩ := hadded.fragmentation
  cases outcome <;> simp [Event.Begins, pushEvent, Event.id, Event.taken, h, hs]

theorem Recent.concat {events : List Event} {e : Event} (h : Recent id events)
    (he : ¬e.Begins id) : Recent id (events ++ [e]) := by
  obtain ⟨first, rest, rfl, hfirst, hrest⟩ := h
  refine ⟨first, rest ++ [e], rfl, hfirst, fun f hf => ?_⟩
  rcases List.mem_append.1 hf with hf | hf
  · exact hrest f hf
  · rw [List.mem_singleton.1 hf]
    exact he

theorem recent_singleton {e : Event} (h : e.Begins id) : Recent id [e] := ⟨e, [], rfl, h, by simp⟩

/-! ### The invariant -/

/-- What is buffered of a message is the slices taken in since its first one, and nothing has
dropped it since. -/
structure Since (id : String) (since : List Event) (p : Partial) : Prop where
  recent : Recent id since
  keeps : ∀ e ∈ since, e.Keeps id
  pieces : ∃ size, p.size = count size ∧ Pieces (taken id since) false p.header size
  buffer : p.buffer = (taken id since).flatMap Slice.chunk

/-- Everything that is buffered is told by what happened, and is of an allowed size. -/
def Traced (maxPayload : Nat) (history : List Event) (a : Assembler) : Prop :=
  ∀ id p, a.pending.get? id = some p → p.size ≤ maxPayload
    ∧ ∃ before since, history = before ++ since ∧ Since id since p

/-- Events of other messages, and errors that drop nothing, change nothing about a message. -/
theorem Since.concat {since : List Event} {p : Partial} {e : Event} (h : Since id since p)
    (hbegins : ¬e.Begins id) (htaken : taken id [e] = []) (hkeeps : e.Keeps id) :
    Since id (since ++ [e]) p := by
  have heq : taken id (since ++ [e]) = taken id since := by
    rw [taken_append, htaken, List.append_nil]
  refine ⟨h.recent.concat hbegins, ?_, heq ▸ h.pieces, heq ▸ h.buffer⟩
  intro f hf
  rcases List.mem_append.1 hf with hf | hf
  · exact h.keeps f hf
  · rw [List.mem_singleton.1 hf]
    exact hkeeps

/-- What a slice that is taken in makes of its message: a course of slices with this one at its
end. -/
theorem Traced.course (h : Traced a.maxPayload history a) {outcome : Option Message}
    (hpush : (a.push s).1 = .ok outcome) :
    ∃ before since p first size, history = before ++ since
      ∧ Added p s first size outcome (a.push s).2
      ∧ count size ≤ a.maxPayload
      ∧ p.buffer = (taken s.header.messageId since).flatMap Slice.chunk
      ∧ (∀ e ∈ since, e.Keeps s.header.messageId)
      ∧ Recent s.header.messageId (since ++ [a.pushEvent s])
      ∧ Pieces (taken s.header.messageId since ++ [s]) outcome.isSome p.header size := by
  obtain ⟨p, size, ⟨hadded, hp, hsize⟩ | ⟨hadded, hp⟩⟩ := push_eq_ok hpush
  · have hempty : p.buffer = ([] : List Slice).flatMap Slice.chunk := by
      rw [hp]
      rfl
    have hfollows := hadded.follows hempty rfl
    have hpieces := (Pieces.nil p.header size).concat hfollows fun _ => by rw [hp]
    have hbegins := (begins_pushEvent_iff hpush hadded).2 rfl
    exact ⟨history, [], p, true, size, by simp, hadded, hsize, by rw [hp]; rfl, by simp,
      recent_singleton hbegins, hpieces⟩
  · obtain ⟨hsize, before, since, hhistory, hsince⟩ := h _ p hp
    obtain ⟨size', hsize', hpieces⟩ := hsince.pieces
    obtain rfl : size' = size := count_inj.1 (hsize'.symm.trans hadded.size_eq)
    have hne : taken s.header.messageId since ≠ [] := by
      obtain ⟨e, rest, rfl, ⟨hid, t, -, -, -, htaken, -⟩, -⟩ := hsince.recent
      simp [taken, hid, htaken]
    have hfollows := hadded.follows hsince.buffer (by simpa using hne)
    have hbegins : ¬(a.pushEvent s).Begins s.header.messageId := by
      simp [begins_pushEvent_iff hpush hadded]
    have hpieces := hpieces.concat hfollows fun hnil => absurd hnil hne
    exact ⟨before, since, p, false, size', hhistory, hadded, hsize' ▸ hsize, hsince.buffer,
      hsince.keeps, hsince.recent.concat hbegins, hpieces⟩

theorem traced_start (maxPayload maxPending : Nat) :
    Traced maxPayload [] { maxPayload, maxPending } :=
  fun _ _ h => by cases h

theorem Traced.discard (h : Traced maxPayload history a) (id : String) :
    Traced maxPayload (history ++ [.discarded id]) (a.discard id).2 := by
  intro other p hp
  rw [Assembler.discard, drop, Dict.get?_erase] at hp
  split at hp
  · cases hp
  · rename_i hother
    obtain ⟨hsize, before, since, rfl, hsince⟩ := h other p hp
    have hid : (Event.discarded id).id ≠ other := fun heq => hother heq.symm
    refine ⟨hsize, before, since ++ [.discarded id], List.append_assoc .., ?_⟩
    exact hsince.concat (fun hbegins => hid hbegins.1) (taken_of_ne hid) fun heq => absurd heq hid

theorem Traced.push (h : Traced a.maxPayload history a) (s : Slice) :
    Traced a.maxPayload (history ++ [a.pushEvent s]) (a.push s).2 := by
  intro id p hp
  by_cases hid : id = s.header.messageId
  · subst hid
    cases hpush : (a.push s).1 with
    | error e =>
        -- What is buffered after an error was buffered before.
        have hkept : a.pending.get? s.header.messageId = some p := by
          rcases push_of_error hpush with hsame | hdrop
          · rwa [hsame] at hp
          · simp [hdrop, drop] at hp
        obtain ⟨hsize, before, since, rfl, hsince⟩ := h _ p hkept
        refine ⟨hsize, before, since ++ [a.pushEvent s], List.append_assoc .., ?_⟩
        refine hsince.concat ?_ (taken_pushEvent_of_error hpush) fun _ => ⟨s, (a.push s).1, ?_⟩
        · rintro ⟨-, t, -, -, -, htaken, -⟩
          simp [pushEvent, hpush, Event.taken] at htaken
        · rw [pushEvent, hp]
          rfl
    | ok outcome =>
        obtain ⟨before, since, q, first, size, rfl, hadded, hsize, hbuffer, hkeeps, hrecent,
          hpieces⟩ := h.course hpush
        have hpending := hadded.pending
        rw [hp] at hpending
        cases outcome with
        | some m => cases hpending
        | none =>
            cases hpending
            have htaken : taken s.header.messageId (since ++ [a.pushEvent s])
                = taken s.header.messageId since ++ [s] := by
              rw [taken_append, taken_pushEvent hpush]
            refine ⟨hadded.size_eq ▸ hsize, before, since ++ [a.pushEvent s],
              List.append_assoc .., hrecent, ?_, ⟨size, hadded.size_eq, ?_⟩, ?_⟩
            · intro e he
              rcases List.mem_append.1 he with he | he
              · exact hkeeps e he
              · rw [List.mem_singleton.1 he]
                exact fun _ => ⟨s, (a.push s).1, by rw [pushEvent, hp]; rfl⟩
            · rw [htaken]
              exact hpieces
            · rw [htaken, List.flatMap_append, ← hbuffer]
              simp
  · rw [get?_push_of_ne a hid] at hp
    obtain ⟨hsize, before, since, rfl, hsince⟩ := h id p hp
    have hne : (a.pushEvent s).id ≠ id := fun heq => hid heq.symm
    refine ⟨hsize, before, since ++ [a.pushEvent s], List.append_assoc .., ?_⟩
    exact hsince.concat (fun hbegins => hne hbegins.1) (taken_of_ne hne) fun heq => absurd heq hne

theorem Run.traced (h : Run maxPayload maxPending history a) :
    a.maxPayload = maxPayload ∧ Traced maxPayload history a := by
  induction h with
  | start => exact ⟨rfl, traced_start _ _⟩
  | push _ s ih =>
      obtain ⟨hlimit, htraced⟩ := ih
      subst hlimit
      exact ⟨(push_limits _ s).1, htraced.push s⟩
  | discard _ id ih => exact ⟨ih.1, ih.2.discard id⟩

theorem Run.pushAll (h : Run maxPayload maxPending history a) (slices : List Slice) :
    ∃ events, Run maxPayload maxPending events (a.pushAll slices).2 := by
  induction slices generalizing a history with
  | nil => exact ⟨history, h⟩
  | cons s slices ih => exact ih (h.push s)

/-- The message is pieced together from these slices, which make up its whole payload. -/
structure Spliced (maxPayload : Nat) (slices : List Slice) (m : Message) (first : Slice)
    (size : Int64) : Prop where
  head : slices.head? = some first
  pieces : Pieces slices true first.header size
  length_eq : (slices.flatMap Slice.chunk).length = count size
  exact : (slices.flatMap Slice.chunk).length < 2 ^ 63 →
    size.toInt = (slices.flatMap Slice.chunk).length
  within : count size ≤ maxPayload
  payload : Payload.decode first.header.dataType (slices.flatMap Slice.chunk) = .ok m.payload
  header : m.header = { first.header with fragmentation := .whole none }

/-- A course of slices that reaches the end of its payload makes up the message. -/
theorem Added.spliced {p : Partial} {slices : List Slice} {begins : Bool} {size : Int64}
    {m : Message} {b : Assembler} (h : Added p s begins size (some m) b)
    (hpieces : Pieces (slices ++ [s]) true p.header size)
    (hbuffer : p.buffer = slices.flatMap Slice.chunk) (hsize : count size ≤ maxPayload) :
    ∃ first, Spliced maxPayload (slices ++ [s]) m first size := by
  obtain ⟨hlength, hdecode, hheader⟩ := complete_eq_ok (h.complete m rfl)
  have hflat : (slices ++ [s]).flatMap Slice.chunk = p.buffer ++ s.chunk := by
    rw [List.flatMap_append, ← hbuffer]
    simp
  obtain ⟨first, hfirst⟩ : ∃ first, (slices ++ [s]).head? = some first := by
    rw [List.head?_append]
    cases slices.head? <;> exact ⟨_, rfl⟩
  have hlength : ((slices ++ [s]).flatMap Slice.chunk).length = count size := by
    rw [hflat, ← h.size_eq]
    exact hlength
  have hheaders := hpieces.header_eq first hfirst
  refine ⟨first, hfirst, hheaders ▸ hpieces, hlength, fun hsmall => ?_, hsize, ?_, ?_⟩
  · rw [hlength] at hsmall ⊢
    exact toInt_eq_count hsmall
  · rw [hflat, hheaders]
    exact hdecode
  · rw [hheaders]
    exact hheader

/-- A message that comes out holds the slices of it that were taken in since its first one, in
their order, and nothing else: nothing dropped it in between, and they make up exactly the payload
that they announce. -/
theorem Run.splices_nothing (h : Run maxPayload maxPending history a) {m : Message}
    (hpush : (a.push s).1 = .ok (some m)) :
    ∃ before since first size, history = before ++ since
      ∧ Recent s.header.messageId (since ++ [a.pushEvent s])
      ∧ (∀ e ∈ since, e.Keeps s.header.messageId)
      ∧ Spliced maxPayload (taken s.header.messageId (since ++ [a.pushEvent s])) m first size := by
  obtain ⟨rfl, htraced⟩ := h.traced
  obtain ⟨before, since, p, begins, size, hhistory, hadded, hsize, hbuffer, hkeeps, hrecent,
    hpieces⟩ := htraced.course hpush
  obtain ⟨first, hspliced⟩ := hadded.spliced hpieces hbuffer hsize
  refine ⟨before, since, first, size, hhistory, hrecent, hkeeps, ?_⟩
  rw [taken_append, taken_pushEvent hpush]
  exact hspliced

/-- A message that is begun twice, between whose slices another begins and a frame that is no slice
is refused. -/
def twice : List Slice :=
  let slice (id : String) (f : Fragmentation) (chunk : Bytes) : Slice :=
    ⟨{ Header.sample with messageId := id, dataType := .attachmentRequest, fragmentation := f },
      chunk⟩
  [slice "m" (.slice true false 0 5) [1], slice "m" (.slice true false 0 3) [0x91],
    slice "n" (.slice true false 0 9) [2], slice "m" (.whole none) [3],
    slice "m" (.slice false true 1 3) [0xa1, 0x78]]

theorem splices_nothing_twice : ∃ history a s m, Run 64 2 history a
    ∧ (a.push s).1 = .ok (some m)
    ∧ ∃ before since first size, history = before ++ since
      ∧ Recent s.header.messageId (since ++ [a.pushEvent s])
      ∧ (∀ e ∈ since, e.Keeps s.header.messageId)
      ∧ Spliced 64 (taken s.header.messageId (since ++ [a.pushEvent s])) m first size := by
  have hstart : Run 64 2 [] { maxPayload := 64, maxPending := 2 } := .start
  obtain ⟨history, hrun⟩ := hstart.pushAll (twice.take 4)
  obtain ⟨m, hm⟩ := Option.isSome_iff_exists.1 (show ((pushAll { maxPayload := 64, maxPending := 2 }
    (twice.take 4)).2.push twice[4]).1.toOption.join.isSome = true by decide +kernel)
  refine ⟨history, _, twice[4], m, hrun, ?_, hrun.splices_nothing ?_⟩ <;>
    exact eq_ok_of_join hm

end Assembler
end DataGateway

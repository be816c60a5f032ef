import DataGateway.Proofs.Assembler

/-!
# Frames on arrival

Frames go through an assembler in the order in which they arrive: a message comes out at once, a
slice is taken in, and a message whose slice is its last comes out. `Pushed` says what taking in a
slice can come to, and that it changes what is buffered of the slice's own message and nothing else.
So two assemblers that agree but for one message make the same of the slices of the others, as long
as neither is out of places; `AgreeBut.acceptAll` carries that along any arrivals.
-/

namespace DataGateway.Assembler

/-- What a frame comes to: a message, nothing yet, or an error. -/
def accept (a : Assembler) (frame : Bytes) : Except ProtocolError (Option Message) × Assembler :=
  match Inbound.decode frame with
  | .error e => (.error e, a)
  | .ok (.message m) => (.ok (some m), a)
  | .ok (.slice s) => a.push s

def acceptAll (a : Assembler) :
    List Bytes → List (Except ProtocolError (Option Message)) × Assembler
  | [] => ([], a)
  | frame :: frames =>
    let (outcome, a) := a.accept frame
    let (outcomes, a) := a.acceptAll frames
    (outcome :: outcomes, a)

theorem acceptAll_cons (a : Assembler) (frame : Bytes) (frames : List Bytes) :
    a.acceptAll (frame :: frames)
      = ((a.accept frame).1 :: ((a.accept frame).2.acceptAll frames).1,
        ((a.accept frame).2.acceptAll frames).2) :=
  rfl

theorem acceptAll_append (a : Assembler) (before after : List Bytes) :
    a.acceptAll (before ++ after)
      = ((a.acceptAll before).1 ++ ((a.acceptAll before).2.acceptAll after).1,
        ((a.acceptAll before).2.acceptAll after).2) := by
  induction before generalizing a with
  | nil => rfl
  | cons frame before ih => rw [List.cons_append, acceptAll_cons, acceptAll_cons, ih]; rfl

theorem length_acceptAll (a : Assembler) (frames : List Bytes) :
    (a.acceptAll frames).1.length = frames.length := by
  induction frames generalizing a with
  | nil => rfl
  | cons frame frames ih => rw [acceptAll_cons, List.length_cons, ih, List.length_cons]

theorem accept_of_slice (a : Assembler) {frame : Bytes} {s : Slice}
    (h : Inbound.decode frame = .ok (.slice s)) : a.accept frame = a.push s := by
  rw [accept, h]

theorem accept_of_message (a : Assembler) {frame : Bytes} {m : Message}
    (h : Inbound.decode frame = .ok (.message m)) : a.accept frame = (.ok (some m), a) := by
  rw [accept, h]

theorem accept_of_error (a : Assembler) {frame : Bytes} {e : ProtocolError}
    (h : Inbound.decode frame = .error e) : a.accept frame = (.error e, a) := by
  rw [accept, h]

/-- What taking in a slice can come to. -/
inductive Pushed (a : Assembler) (s : Slice) :
    Except ProtocolError (Option Message) → Assembler → Prop
  | refused (e : ProtocolError) : Pushed a s (.error e) a
  | dropped (e : ProtocolError) : Pushed a s (.error e) (a.drop s.header.messageId)
  | kept (p : Partial) :
      Pushed a s (.ok none) { a with pending := a.pending.insert s.header.messageId p }
  | completed {first : Bool} {offset size : Int64} {m : Message}
      (last : s.header.fragmentation = .slice first true offset size) :
      Pushed a s (.ok (some m)) (a.drop s.header.messageId)

variable {a b : Assembler} {s : Slice}

theorem begun_drop (a : Assembler) (header : Header) (size : Nat) :
    (a.begun header size).drop header.messageId = a.drop header.messageId := by
  have hpending : (a.begun header size).pending.erase header.messageId
      = a.pending.erase header.messageId := by
    apply Dict.ext_get?
    intro id
    rw [Dict.get?_erase, begun, Dict.get?_insert, Dict.get?_erase]
    split <;> rfl
  rw [drop, hpending]
  rfl

theorem begun_insert (a : Assembler) (header : Header) (size : Nat) (p : Partial) :
    (a.begun header size).pending.insert header.messageId p
      = a.pending.insert header.messageId p := by
  apply Dict.ext_get?
  intro id
  rw [Dict.get?_insert, begun, Dict.get?_insert, Dict.get?_erase, Dict.get?_insert]
  split <;> rfl

theorem extend_pushed {p : Partial} {first last : Bool} {offset size : Int64}
    (hs : s.header.fragmentation = .slice first last offset size)
    (hp : b.pending.get? s.header.messageId = some p)
    (hdrop : b.drop s.header.messageId = a.drop s.header.messageId)
    (hinsert : ∀ q, { b with pending := b.pending.insert s.header.messageId q }
      = { a with pending := a.pending.insert s.header.messageId q }) :
    a.Pushed s (b.extend s last offset (count size)).1
      (b.extend s last offset (count size)).2 := by
  unfold extend
  dsimp only
  rw [hp, hdrop]
  dsimp only
  split
  · exact .dropped _
  · split
    · rename_i hlast
      subst hlast
      cases Partial.complete { p with buffer := p.buffer ++ s.chunk } with
      | error e => exact .dropped e
      | ok m => exact .completed hs
    · split
      · exact .dropped _
      · rw [hinsert]
        exact .kept _

theorem start_cases (a : Assembler) (header : Header) (size : Nat) :
    (∃ e, a.start header size = (.error e, a))
      ∨ (∃ e, a.start header size = (.error e, a.drop header.messageId))
      ∨ a.start header size = (.ok (), a.begun header size) := by
  unfold start
  split
  · exact .inl ⟨_, rfl⟩
  · dsimp only
    split
    · exact .inr (.inl ⟨_, rfl⟩)
    · exact .inr (.inr rfl)

theorem push_of_start_error {last : Bool} {offset size : Int64} {e : ProtocolError}
    (hs : s.header.fragmentation = .slice true last offset size)
    (hstart : a.start s.header (count size) = (.error e, b)) : a.push s = (.error e, b) := by
  simp only [push, hs, hstart, if_true]

/-- Taking in a slice comes to nothing else. -/
theorem push_pushed (a : Assembler) (s : Slice) :
    ∃ outcome b, a.push s = (outcome, b) ∧ a.Pushed s outcome b := by
  cases hs : s.header.fragmentation with
  | whole offset => exact ⟨_, a, by rw [push, hs], .refused _⟩
  | slice first last offset size =>
      cases first with
      | false =>
          rw [push_next hs]
          cases hp : a.pending.get? s.header.messageId with
          | none => exact ⟨_, a, by simp only [extend, hp]; rfl, .refused _⟩
          | some p => exact ⟨_, _, rfl, extend_pushed hs hp rfl fun _ => rfl⟩
      | true =>
          rcases start_cases a s.header (count size) with ⟨e, hstart⟩ | ⟨e, hstart⟩ | hstart
          · exact ⟨_, _, push_of_start_error hs hstart, .refused e⟩
          · exact ⟨_, _, push_of_start_error hs hstart, .dropped e⟩
          · rw [push_first hs hstart]
            refine ⟨_, _, rfl, extend_pushed hs (Dict.get?_insert_self ..) ?_ fun q => ?_⟩
            · exact begun_drop a s.header (count size)
            · rw [begun_insert]
              rfl

theorem push_limits (a : Assembler) (s : Slice) :
    (a.push s).2.maxPayload = a.maxPayload ∧ (a.push s).2.maxPending = a.maxPending := by
  obtain ⟨outcome, b, hpush, hpushed⟩ := push_pushed a s
  rw [hpush]
  cases hpushed <;> exact ⟨rfl, rfl⟩

theorem get?_push_of_ne (a : Assembler) {s : Slice} {id : String} (h : id ≠ s.header.messageId) :
    (a.push s).2.pending.get? id = a.pending.get? id := by
  obtain ⟨outcome, b, hpush, hpushed⟩ := push_pushed a s
  rw [hpush]
  cases hpushed with
  | refused e => rfl
  | dropped e | completed last => rw [drop, Dict.get?_erase, if_neg h]
  | kept p => rw [Dict.get?_insert, if_neg h]

theorem accept_limits (a : Assembler) (frame : Bytes) :
    (a.accept frame).2.maxPayload = a.maxPayload
      ∧ (a.accept frame).2.maxPending = a.maxPending := by
  unfold accept
  split
  · exact ⟨rfl, rfl⟩
  · exact ⟨rfl, rfl⟩
  · exact push_limits a _

theorem push_of_error {e : ProtocolError} (h : (a.push s).1 = .error e) :
    (a.push s).2 = a ∨ (a.push s).2 = a.drop s.header.messageId := by
  obtain ⟨outcome, b, hpush, hpushed⟩ := push_pushed a s
  rw [hpush] at h ⊢
  cases hpushed with
  | refused => exact .inl rfl
  | dropped => exact .inr rfl
  | kept | completed => cases h

/-- A first slice was refused because too many other messages are incomplete. -/
def Crowded (outcome : Except ProtocolError (Option Message)) : Prop :=
  ∃ count id, outcome = .error (.invalid Slice.owner (.tooManyIncomplete count id))

theorem push_of_large {last : Bool} {offset size : Int64}
    (hs : s.header.fragmentation = .slice true last offset size)
    (hsize : a.maxPayload < count size) :
    a.push s = (.error (.tooLarge (count size) a.maxPayload), a) := by
  apply push_of_start_error hs
  rw [start, if_pos hsize]

/-- There is a place for the slice if it begins a message of an allowed size. The place that its
message has already counts as free. -/
def Admits (a : Assembler) (s : Slice) : Prop :=
  ∀ last offset size, s.header.fragmentation = .slice true last offset size →
    count size ≤ a.maxPayload → (a.drop s.header.messageId).pending.size < a.maxPending

theorem push_of_admits {last : Bool} {offset size : Int64}
    (hs : s.header.fragmentation = .slice true last offset size)
    (hsize : count size ≤ a.maxPayload) (h : a.Admits s) :
    a.push s = (a.begun s.header (count size)).extend s last offset (count size) := by
  apply push_first hs
  rw [start, if_neg (Nat.not_lt.2 hsize)]
  exact if_neg (Nat.not_le.2 (h last offset size hs hsize))

theorem admits_of_not_crowded (hfree : ¬Crowded (a.push s).1) : a.Admits s := by
  intro last offset size hs hsize
  by_contra hfull
  have hstart : a.start s.header (count size)
      = (.error (.invalid Slice.owner (.tooManyIncomplete
          (a.drop s.header.messageId).pending.size s.header.messageId)),
        a.drop s.header.messageId) := by
    rw [start, if_neg (Nat.not_lt.2 hsize)]
    exact if_pos (Nat.not_lt.1 hfull)
  apply hfree
  rw [push_of_start_error hs hstart]
  exact ⟨_, _, rfl⟩

theorem extend_congr {last : Bool} {offset : Int64} {size : Nat}
    (h : a.pending.get? s.header.messageId = b.pending.get? s.header.messageId) :
    (a.extend s last offset size).1 = (b.extend s last offset size).1
      ∧ (a.extend s last offset size).2.pending.get? s.header.messageId
        = (b.extend s last offset size).2.pending.get? s.header.messageId := by
  unfold extend
  dsimp only
  rw [h]
  cases hp : b.pending.get? s.header.messageId with
  | none => exact ⟨rfl, h⟩
  | some p =>
      dsimp only
      split
      · simp [drop]
      · split
        · simp [drop]
        · split <;> simp [drop]

/-- What a slice comes to is told by what is buffered of its message, as long as there is a place
for it. -/
theorem push_congr (hlimit : a.maxPayload = b.maxPayload)
    (h : a.pending.get? s.header.messageId = b.pending.get? s.header.messageId)
    (ha : a.Admits s) (hb : b.Admits s) :
    (a.push s).1 = (b.push s).1
      ∧ (a.push s).2.pending.get? s.header.messageId
        = (b.push s).2.pending.get? s.header.messageId := by
  cases hs : s.header.fragmentation with
  | whole offset =>
      unfold push
      rw [hs]
      exact ⟨rfl, h⟩
  | slice first last offset size =>
      cases first with
      | false =>
          rw [push_next hs, push_next hs]
          exact extend_congr h
      | true =>
          by_cases hsize : a.maxPayload < count size
          · rw [push_of_large hs hsize, push_of_large hs (hlimit ▸ hsize), hlimit]
            exact ⟨rfl, h⟩
          · have hfits := Nat.le_of_not_lt hsize
            rw [push_of_admits hs hfits ha, push_of_admits hs (hlimit ▸ hfits) hb]
            apply extend_congr
            rw [begun, begun, Dict.get?_insert_self, Dict.get?_insert_self]

/-- Two assemblers with the same limit that have the same of every message but one. -/
structure AgreeBut (id : String) (a b : Assembler) : Prop where
  maxPayload : a.maxPayload = b.maxPayload
  get? : ∀ other, other ≠ id → a.pending.get? other = b.pending.get? other

variable {id : String}

theorem AgreeBut.push (h : AgreeBut id a b) (s : Slice) (ha : ¬Crowded (a.push s).1)
    (hb : ¬Crowded (b.push s).1) :
    (s.header.messageId ≠ id → (a.push s).1 = (b.push s).1)
      ∧ AgreeBut id (a.push s).2 (b.push s).2 := by
  have hlimits : (a.push s).2.maxPayload = (b.push s).2.maxPayload := by
    rw [(push_limits a s).1, (push_limits b s).1, h.maxPayload]
  have hcongr (hs : s.header.messageId ≠ id) := push_congr h.maxPayload (h.get? _ hs)
    (admits_of_not_crowded ha) (admits_of_not_crowded hb)
  refine ⟨fun hs => (hcongr hs).1, hlimits, fun other hother => ?_⟩
  by_cases hown : other = s.header.messageId
  · subst hown
    exact (hcongr hother).2
  · rw [get?_push_of_ne a hown, get?_push_of_ne b hown, h.get? other hother]

/-- The frame is a slice of the message with this id. -/
def IsSliceOf (id : String) (frame : Bytes) : Prop :=
  ∃ s, Inbound.decode frame = .ok (.slice s) ∧ s.header.messageId = id

theorem AgreeBut.accept (h : AgreeBut id a b) {frame : Bytes} (ha : ¬Crowded (a.accept frame).1)
    (hb : ¬Crowded (b.accept frame).1) :
    (¬IsSliceOf id frame → (a.accept frame).1 = (b.accept frame).1)
      ∧ AgreeBut id (a.accept frame).2 (b.accept frame).2 := by
  cases hdecode : Inbound.decode frame with
  | error e =>
      rw [accept_of_error a hdecode, accept_of_error b hdecode]
      exact ⟨fun _ => rfl, h⟩
  | ok inbound =>
      cases inbound with
      | message m =>
          rw [accept_of_message a hdecode, accept_of_message b hdecode]
          exact ⟨fun _ => rfl, h⟩
      | slice s =>
          rw [accept_of_slice a hdecode] at ha ⊢
          rw [accept_of_slice b hdecode] at hb ⊢
          obtain ⟨hsame, hagree⟩ := h.push s ha hb
          exact ⟨fun hother => hsame fun hid => hother ⟨s, hdecode, hid⟩, hagree⟩

/-- Whatever arrives, all but the slices of one message come to the same, as long as there are
places for all. -/
theorem AgreeBut.acceptAll {frames : List Bytes} (h : AgreeBut id a b)
    (ha : ∀ outcome ∈ (a.acceptAll frames).1, ¬Crowded outcome)
    (hb : ∀ outcome ∈ (b.acceptAll frames).1, ¬Crowded outcome) {i : Nat} {frame : Bytes}
    (hi : frames[i]? = some frame) (hother : ¬IsSliceOf id frame) :
    (a.acceptAll frames).1[i]? = (b.acceptAll frames).1[i]? := by
  -- Each frame, of this message or not, leaves the two agreeing but for this message.
  induction frames generalizing a b i with
  | nil => rfl
  | cons next frames ih =>
      rw [acceptAll_cons] at ha hb ⊢
      obtain ⟨ha, harest⟩ := List.forall_mem_cons.1 ha
      obtain ⟨hb, hbrest⟩ := List.forall_mem_cons.1 hb
      obtain ⟨hsame, hagree⟩ := h.accept ha hb
      cases i with
      | zero =>
          cases hi
          exact congrArg some (hsame hother)
      | succ i => exact ih hagree harest hbrest hi

end DataGateway.Assembler

import DataGateway.Proofs.Arrival
import DataGateway.Proofs.Reassembly
import DataGateway.Proofs.Session.Run

/-!
# From a session to its service

Messages that are sent at the same time may interleave their frames, and the service may take out
what has arrived at any time. What is upcoming on a link are the messages that the frames on their
way come to, and taking one out takes off its first, so it is enough to follow what is upcoming. The
invariant is that what was received and what is upcoming are the messages whose last frame has gone
out, in that order, and that what the service is left with are the beginnings of those of which some
frames have gone out and some have not.
-/

namespace DataGateway

namespace Link

/-- What the service is told of what a frame comes to. -/
def told : Except ProtocolError (Option Message) → Option (Except ClientError Message)
  | .error e => some (.error (.protocol e))
  | .ok m => m.map .ok

/-- What the service will be told of the frames on their way. -/
def upcoming (l : Link) : List (Except ClientError Message) :=
  (l.assembler.acceptAll l.frames).1.filterMap told

/-- What the service will have of incomplete messages once it has taken out all frames. -/
def leftover (l : Link) : Assembler := (l.assembler.acceptAll l.frames).2

theorem receiveFrom_cons (a : Assembler) (frame : Bytes) (frames : List Bytes) :
    receiveFrom a (frame :: frames) = match told (a.accept frame).1 with
      | some r => (some r, (a.accept frame).2, frames)
      | none => receiveFrom (a.accept frame).2 frames := by
  rw [receiveFrom]
  cases hdecode : Inbound.decode frame with
  | error e =>
      rw [a.accept_of_error hdecode]
      rfl
  | ok inbound =>
      cases inbound with
      | message m =>
          rw [a.accept_of_message hdecode]
          rfl
      | slice s =>
          rw [a.accept_of_slice hdecode]
          rcases hpush : a.push s with ⟨e | m, b⟩
          · simp only [hpush]
            rfl
          · cases m <;>
            · simp only [hpush]
              rfl

theorem receiveFrom_eq (a : Assembler) (frames : List Bytes)
    {r : Option (Except ClientError Message)} {b : Assembler} {rest : List Bytes}
    (h : receiveFrom a frames = (r, b, rest)) :
    (a.acceptAll frames).1.filterMap told = r.toList ++ (b.acceptAll rest).1.filterMap told
      ∧ (b.acceptAll rest).2 = (a.acceptAll frames).2 ∧ (r = none → rest = []) := by
  induction frames generalizing a with
  | nil =>
      cases h
      exact ⟨rfl, rfl, fun _ => rfl⟩
  | cons frame frames ih =>
      rw [receiveFrom_cons] at h
      rw [Assembler.acceptAll_cons]
      cases htold : told (a.accept frame).1 with
      | some r' =>
          rw [htold] at h
          cases h
          exact ⟨List.filterMap_cons_some htold, rfl, nofun⟩
      | none =>
          rw [htold] at h
          rw [List.filterMap_cons_none htold]
          exact ih _ h

/-- Taking out the next message takes off the first of what is upcoming. -/
theorem receive_eq {l l' : Link} {r : Option (Except ClientError Message)}
    (h : l.receive = (r, l')) :
    l.upcoming = r.toList ++ l'.upcoming ∧ l'.leftover = l.leftover
      ∧ (r = none → l'.frames = []) := by
  unfold receive at h
  cases hreceive : receiveFrom l.assembler l.frames with
  | mk r' rest =>
      rw [hreceive] at h
      cases h
      exact receiveFrom_eq _ _ hreceive

theorem receive_eq_head? (l : Link) : l.receive.1 = l.upcoming.head? := by
  rcases hreceive : l.receive with ⟨r, l'⟩
  obtain ⟨hupcoming, _, hframes⟩ := receive_eq hreceive
  rw [hupcoming]
  cases r with
  | some r => rfl
  | none =>
      rw [upcoming, hframes rfl]
      rfl

theorem upcoming_append (l : Link) (frame : Bytes) :
    { l with frames := l.frames ++ [frame] }.upcoming
        = l.upcoming ++ (told (l.leftover.accept frame).1).toList
      ∧ { l with frames := l.frames ++ [frame] }.leftover = (l.leftover.accept frame).2 := by
  unfold upcoming leftover
  rw [Assembler.acceptAll_append, Assembler.acceptAll_cons]
  refine ⟨?_, rfl⟩
  rw [List.filterMap_append]
  rfl

end Link

def Message.parts (m : Message) : Header × Payload := (m.header, m.payload)

namespace Session

/-- A message that is being sent. -/
structure Outgoing where
  header : Header
  payload : Payload
  /-- Whether some of its frames have gone out. -/
  begun : Bool
  /-- The frames that have not. -/
  rest : List Bytes

/-- The ids of the messages of which some frames have gone out and some have not. -/
def openIds (os : List Outgoing) : List String := (os.filter (·.begun)).map (·.header.messageId)

/-- Messages that are sent at the same time have different ids, and are not too many. -/
structure Orderly (os : List Outgoing) : Prop where
  distinct : (openIds os).Nodup
  few : (openIds os).length ≤ 16

section Outgoing

variable {before after : List Outgoing} {o : Outgoing}

theorem openIds_middle_of_begun (before after : List Outgoing) (h : o.begun = true) :
    (openIds (before ++ o :: after)).Perm (o.header.messageId :: openIds (before ++ after)) := by
  have hmiddle : (before ++ o :: after).Perm (o :: (before ++ after)) := List.perm_middle
  have hperm := hmiddle.filter (·.begun)
  rw [List.filter_cons_of_pos h] at hperm
  exact hperm.map _

theorem openIds_middle_of_not_begun (before after : List Outgoing) (h : o.begun = false) :
    openIds (before ++ o :: after) = openIds (before ++ after) := by
  simp [openIds, h]

theorem mem_openIds_middle {id : String} (h : id ∈ openIds (before ++ o :: after)) :
    id = o.header.messageId ∨ id ∈ openIds (before ++ after) := by
  cases hbegun : o.begun with
  | false => exact .inr (openIds_middle_of_not_begun before after hbegun ▸ h)
  | true => exact List.mem_cons.1 ((openIds_middle_of_begun before after hbegun).mem_iff.1 h)

theorem mem_openIds_of_mem {os : List Outgoing} (h : o ∈ os) (hbegun : o.begun = true) :
    o.header.messageId ∈ openIds os :=
  List.mem_map_of_mem (List.mem_filter.2 ⟨h, hbegun⟩)

theorem Orderly.id_ne (h : Orderly (before ++ o :: after)) (hbegun : o.begun = true)
    {other : Outgoing} (hother : other ∈ before ++ after) (hbegun' : other.begun = true) :
    other.header.messageId ≠ o.header.messageId := by
  intro heq
  have hdistinct := (openIds_middle_of_begun before after hbegun).nodup_iff.1 h.distinct
  exact (List.nodup_cons.1 hdistinct).1 (heq ▸ mem_openIds_of_mem hother hbegun')

theorem Orderly.remove (h : Orderly (before ++ o :: after)) : Orderly (before ++ after) := by
  have hsub : (openIds (before ++ after)).Sublist (openIds (before ++ o :: after)) := by
    have hlist := (List.sublist_cons_self o after).append_left before
    exact (hlist.filter _).map _
  exact ⟨h.distinct.sublist hsub, hsub.length_le.trans h.few⟩

end Outgoing

/-! ### What the service has of a message -/

/-- The frames carry, in slices, the chunks that these first bytes of a payload lack. -/
structure Remains (h : Header) (p : Payload) (bytes buffer : Bytes) (chunks frames : List Bytes) :
    Prop where
  whole : h.fragmentation = .whole none
  small : bytes.length ≤ 64 * 1024 * 1024
  payload : Payload.decode h.dataType bytes = .ok p
  flatten : buffer ++ chunks.flatten = bytes
  chunk_ne : ∀ chunk ∈ chunks, chunk ≠ []
  slices : List.Forall₂ (fun frame s => Inbound.decode frame = .ok (.slice s)) frames
    (Slice.cut h bytes.length buffer.length chunks)

/-- The frames of a message that have not gone out are what an assembler lacks of it. -/
inductive Underway (a : Assembler) : Outgoing → Prop
  | whole {h : Header} {p : Payload} {frame : Bytes} {kept : Kept}
      (decodes : Inbound.decode frame = .ok (.message ⟨h, p, kept⟩)) :
      Underway a ⟨h, p, false, [frame]⟩
  | fresh {h : Header} {p : Payload} {bytes : Bytes} {chunks frames : List Bytes}
      (remains : Remains h p bytes [] chunks frames) (several : 2 ≤ chunks.length) :
      Underway a ⟨h, p, false, frames⟩
  | begun {h : Header} {p : Payload} {bytes buffer : Bytes} {chunks frames : List Bytes}
      (remains : Remains h p bytes buffer chunks frames) (some : buffer ≠ [])
      (holds : a.Holds h bytes.length buffer) : Underway a ⟨h, p, true, frames⟩

theorem Underway.congr {a b : Assembler} {o : Outgoing} (ho : Underway a o)
    (h : o.begun = true →
      b.pending.get? o.header.messageId = a.pending.get? o.header.messageId) : Underway b o := by
  cases ho with
  | whole decodes => exact .whole decodes
  | fresh remains several => exact .fresh remains several
  | begun remains some holds =>
      refine .begun remains some ?_
      unfold Assembler.Holds
      rw [h rfl]
      exact holds

section Remains

variable {h : Header} {p : Payload} {bytes buffer : Bytes} {chunks frames : List Bytes}

theorem Remains.total_lt (hr : Remains h p bytes buffer chunks frames) : bytes.length < 2 ^ 32 := by
  have := hr.small
  omega

theorem Remains.length_eq (hr : Remains h p bytes buffer chunks frames) :
    buffer.length + chunks.flatten.length = bytes.length := by
  rw [← hr.flatten, List.length_append]

theorem Remains.cons {frame : Bytes} (hr : Remains h p bytes buffer chunks (frame :: frames)) :
    ∃ chunk rest, chunks = chunk :: rest ∧ chunk ≠ []
      ∧ Inbound.decode frame
        = .ok (.slice ⟨Slice.headerAt h bytes.length buffer.length chunk, chunk⟩)
      ∧ Remains h p bytes (buffer ++ chunk) rest frames := by
  cases chunks with
  | nil => exact nomatch hr.slices
  | cons chunk rest =>
      obtain ⟨hchunk, hrest⟩ := List.forall_mem_cons.1 hr.chunk_ne
      obtain ⟨hframe, hframes⟩ := List.forall₂_cons.1 hr.slices
      refine ⟨chunk, rest, rfl, hchunk, hframe, hr.whole, hr.small, hr.payload, ?_, hrest, ?_⟩
      · rw [List.append_assoc]
        exact hr.flatten
      · rw [List.length_append]
        exact hframes

theorem Remains.lt_of_frames (hr : Remains h p bytes buffer chunks frames) (hne : frames ≠ []) :
    buffer.length < bytes.length := by
  obtain ⟨frame, frames, rfl⟩ := List.exists_cons_of_ne_nil hne
  obtain ⟨chunk, rest, rfl, hchunk, _, _⟩ := hr.cons
  have hpos := List.length_pos_iff.2 hchunk
  have hlength := hr.length_eq
  rw [List.flatten_cons, List.length_append] at hlength
  omega

theorem Remains.eq_of_no_frames (hr : Remains h p bytes buffer chunks []) : buffer = bytes := by
  cases chunks with
  | nil => simpa using hr.flatten
  | cons chunk rest => exact nomatch hr.slices

end Remains

def Standard (a : Assembler) : Prop := a.maxPayload = 64 * 1024 * 1024 ∧ a.maxPending = 16

section Underway

variable {a : Assembler} {h : Header} {p : Payload} {begun : Bool} {frame : Bytes}

theorem Remains.accept_more {bytes buffer : Bytes} {chunks rest : List Bytes} {chunk : Bytes}
    {b : Assembler} (hchunk : chunk ≠ [])
    (hdecode : Inbound.decode frame
      = .ok (.slice ⟨Slice.headerAt h bytes.length buffer.length chunk, chunk⟩))
    (hremains : Remains h p bytes (buffer ++ chunk) chunks rest) (hrest : rest ≠ [])
    (hb : b.Holds h bytes.length buffer)
    (hpush : a.push ⟨Slice.headerAt h bytes.length buffer.length chunk, chunk⟩
      = b.extend ⟨Slice.headerAt h bytes.length buffer.length chunk, chunk⟩
        (decide (buffer.length + chunk.length = bytes.length))
        (Fragmentation.long buffer.length) bytes.length) :
    (a.accept frame).1 = .ok none ∧ Underway (a.accept frame).2 ⟨h, p, true, rest⟩
      ∧ ∀ id, id ≠ h.messageId → (a.accept frame).2.pending.get? id = a.pending.get? id := by
  have hmore := hremains.lt_of_frames hrest
  rw [List.length_append] at hmore
  obtain ⟨c, hextend, hc⟩ := hb.extend hremains.total_lt hmore
  have hsame : ∀ id, id ≠ h.messageId → _ := fun id hid => a.get?_push_of_ne
    (s := ⟨Slice.headerAt h bytes.length buffer.length chunk, chunk⟩) hid
  rw [a.accept_of_slice hdecode]
  rw [hpush, hextend] at hsame ⊢
  exact ⟨rfl, .begun hremains (by simp [hchunk]) hc, hsame⟩

/-- A frame that is not the last of its message is a slice that is buffered. -/
theorem Underway.accept_more {rest : List Bytes} (ho : Underway a ⟨h, p, begun, frame :: rest⟩)
    (hrest : rest ≠ []) (hlimits : Standard a)
    (hroom : begun = false → a.pending.size < a.maxPending) :
    (a.accept frame).1 = .ok none ∧ Underway (a.accept frame).2 ⟨h, p, true, rest⟩
      ∧ ∀ id, id ≠ h.messageId → (a.accept frame).2.pending.get? id = a.pending.get? id := by
  cases ho with
  | whole decodes => exact absurd rfl hrest
  | fresh remains several =>
      obtain ⟨chunk, chunks, rfl, hchunk, hdecode, hremains⟩ := remains.cons
      have hroom := hroom rfl
      obtain ⟨b, hb, hpush⟩ := Assembler.push_cut_first hroom.le chunk remains.whole
        remains.total_lt (hlimits.1 ▸ remains.small) (.inl hroom)
      exact hremains.accept_more hchunk hdecode hrest hb hpush
  | begun remains some holds =>
      obtain ⟨chunk, chunks, rfl, hchunk, hdecode, hremains⟩ := remains.cons
      have hoffset := fun hzero => some (List.length_eq_zero_iff.1 hzero)
      exact hremains.accept_more hchunk hdecode hrest holds
        (Assembler.push_cut_next a h chunk remains.total_lt hoffset)

/-- The last frame of a message completes it, and nothing of it is left. -/
theorem Underway.accept_last (ho : Underway a ⟨h, p, begun, [frame]⟩) :
    ∃ kept, a.accept frame
      = (.ok (some ⟨h, p, kept⟩), if begun then a.drop h.messageId else a) := by
  cases ho with
  | whole decodes => exact ⟨_, a.accept_of_message decodes⟩
  | fresh remains several =>
      have hlength := remains.slices.length_eq
      rw [Slice.length_cut] at hlength
      exact absurd several (hlength ▸ by simp)
  | @begun _ _ bytes buffer chunks _ remains some holds =>
      obtain ⟨chunk, chunks, rfl, hchunk, hdecode, hremains⟩ := remains.cons
      have hoffset := fun hzero => some (List.length_eq_zero_iff.1 hzero)
      have hbytes := hremains.eq_of_no_frames
      have hextend := holds.extend_last remains.total_lt
        (show buffer.length + chunk.length = bytes.length by rw [← hbytes, List.length_append])
      rw [hbytes, remains.payload] at hextend
      have hpush := Assembler.push_cut_next a h chunk remains.total_lt hoffset
      exact ⟨_, (a.accept_of_slice hdecode).trans (hpush.trans hextend)⟩

end Underway

/-- An assembler has what has gone out of the messages that are being sent, and nothing else. -/
structure Tracks (a : Assembler) (os : List Outgoing) : Prop where
  limits : Standard a
  orderly : Orderly os
  underway : ∀ o ∈ os, Underway a o
  opened : ∀ id, a.pending.get? id ≠ none → id ∈ openIds os

namespace Tracks

variable {a : Assembler} {before after : List Outgoing} {h : Header} {p : Payload} {begun : Bool}
  {frame : Bytes} {rest : List Bytes}

theorem fresh : Tracks {} [] where
  limits := ⟨rfl, rfl⟩
  orderly := ⟨List.nodup_nil, Nat.zero_le 16⟩
  underway := by simp
  opened id hid := absurd (Dict.get?_empty id) hid

theorem eq_fresh (ht : Tracks a []) : a = {} := by
  have hpending : a.pending = .empty := by
    apply Dict.ext_get?
    intro id
    by_contra hid
    exact nomatch ht.opened id hid
  obtain ⟨hpayload, hlimit⟩ := ht.limits
  cases a
  cases hpending
  cases hpayload
  cases hlimit
  rfl

theorem begin {os : List Outgoing} (ht : Tracks a os)
    (ho : Underway a ⟨h, p, false, rest⟩) : Tracks a (os ++ [⟨h, p, false, rest⟩]) := by
  have hids : openIds (os ++ [⟨h, p, false, rest⟩]) = openIds os := by
    rw [openIds_middle_of_not_begun os [] rfl, List.append_nil]
  refine ⟨ht.limits, ?_, ?_, fun id hid => hids ▸ ht.opened id hid⟩
  · exact ⟨hids ▸ ht.orderly.distinct, hids ▸ ht.orderly.few⟩
  · exact List.forall_mem_append.2 ⟨ht.underway, List.forall_mem_singleton.2 ho⟩

theorem give (ht : Tracks a (before ++ ⟨h, p, begun, frame :: rest⟩ :: after)) (hrest : rest ≠ [])
    (horderly : Orderly (before ++ ⟨h, p, true, rest⟩ :: after)) :
    (a.accept frame).1 = .ok none
      ∧ Tracks (a.accept frame).2 (before ++ ⟨h, p, true, rest⟩ :: after) := by
  have hids := openIds_middle_of_begun before after (o := ⟨h, p, true, rest⟩) rfl
  -- A message that begins counts among the open ones afterwards, so at most fifteen others are.
  have hroom : begun = false → a.pending.size < a.maxPending := by
    rintro rfl
    have hsize := Dict.size_le_of_forall_mem ht.opened
    have hfew := horderly.few
    rw [openIds_middle_of_not_begun before after rfl] at hsize
    rw [hids.length_eq, List.length_cons] at hfew
    rw [ht.limits.2]
    omega
  obtain ⟨hnone, hunder, hsame⟩ :=
    (ht.underway _ (List.mem_append_right _ List.mem_cons_self)).accept_more hrest ht.limits hroom
  have hlimits := a.accept_limits frame
  refine ⟨hnone, ⟨hlimits.1.trans ht.limits.1, hlimits.2.trans ht.limits.2⟩, horderly, ?_, ?_⟩
  · intro o ho
    rcases List.mem_cons.1 (List.perm_middle.mem_iff.1 ho) with rfl | ho
    · exact hunder
    · have hmem : o ∈ before ++ ⟨h, p, begun, frame :: rest⟩ :: after :=
        List.perm_middle.mem_iff.2 (List.mem_cons_of_mem _ ho)
      exact (ht.underway o hmem).congr fun hbegun => hsame _ (horderly.id_ne rfl ho hbegun)
  · intro id hid
    apply hids.mem_iff.2
    by_cases hown : id = h.messageId
    · exact hown ▸ List.mem_cons_self
    · rw [hsame id hown] at hid
      rcases mem_openIds_middle (ht.opened id hid) with hown' | hother
      · exact absurd hown' hown
      · exact List.mem_cons_of_mem _ hother

theorem finish (ht : Tracks a (before ++ ⟨h, p, begun, [frame]⟩ :: after)) :
    (∃ kept, (a.accept frame).1 = .ok (some ⟨h, p, kept⟩))
      ∧ Tracks (a.accept frame).2 (before ++ after) := by
  obtain ⟨kept, haccept⟩ :=
    (ht.underway _ (List.mem_append_right _ List.mem_cons_self)).accept_last
  rw [haccept]
  have hmem {o : Outgoing} (ho : o ∈ before ++ after) :
      o ∈ before ++ ⟨h, p, begun, [frame]⟩ :: after :=
    List.perm_middle.mem_iff.2 (List.mem_cons_of_mem _ ho)
  refine ⟨⟨kept, rfl⟩, ?_⟩
  cases begun with
  | false =>
      have hids := openIds_middle_of_not_begun before after (o := ⟨h, p, false, [frame]⟩) rfl
      exact ⟨ht.limits, ht.orderly.remove, fun o ho => ht.underway o (hmem ho),
        fun id hid => hids ▸ ht.opened id hid⟩
  | true =>
      refine ⟨ht.limits, ht.orderly.remove, fun o ho => ?_, fun id hid => ?_⟩
      · refine (ht.underway o (hmem ho)).congr fun hbegun => ?_
        rw [if_pos rfl, Assembler.drop, Dict.get?_erase, if_neg (ht.orderly.id_ne rfl ho hbegun)]
      · rw [if_pos rfl, Assembler.drop, Dict.get?_erase] at hid
        split at hid
        · exact absurd rfl hid
        · rename_i hother
          exact (mem_openIds_middle (ht.opened id hid)).resolve_left hother

end Tracks

/-! ### Sending and receiving -/

/-- A message that arrives as it was: its header has no offset, its dynamic values can be carried,
and its payload is not too large if it is split. -/
structure Portable (s : Session) (h : Header) (p : Payload) : Prop where
  whole : h.fragmentation = .whole none
  fits : ∀ v ∈ p.dynamics, v.Fits
  small : ∀ unit bytes, s.unit = some unit → p.encode = .ok bytes → unit < bytes.length →
    bytes.length ≤ 64 * 1024 * 1024

/-- Messages are sent and received: what is still being sent, what has been sent, in the order of
the last frames, and what the service was told. A call that sends does so frame by frame, and
between two frames other calls may be under way, the service may take out a message, and anything
may happen that leaves alone what has arrived. -/
inductive Exchange : Session → List Outgoing → List (Header × Payload) →
    List (Except ClientError Message) → Prop
  | start {s : Session} (idle : s.link.frames = []) (fresh : s.link.assembler = {}) :
      Exchange s [] [] []
  | begin {s : Session} {os : List Outgoing} {done : List (Header × Payload)}
      {received : List (Except ClientError Message)} {h : Header} {p : Payload}
      {frames : List Bytes} (hs : Exchange s os done received) (loggedIn : s.phase = .loggedIn)
      (portable : s.Portable h p) (framed : s.framesOf h p = .ok frames) :
      Exchange s (os ++ [⟨h, p, false, frames⟩]) done received
  | give {s s' : Session} {before after : List Outgoing} {done : List (Header × Payload)}
      {received : List (Except ClientError Message)} {h : Header} {p : Payload} {begun : Bool}
      {frame : Bytes} {rest : List Bytes}
      (hs : Exchange s (before ++ ⟨h, p, begun, frame :: rest⟩ :: after) done received)
      (more : rest ≠ []) (sent : s.transmit frame = (.ok (), s'))
      (orderly : Orderly (before ++ ⟨h, p, true, rest⟩ :: after)) :
      Exchange s' (before ++ ⟨h, p, true, rest⟩ :: after) done received
  | finish {s s' : Session} {before after : List Outgoing} {done : List (Header × Payload)}
      {received : List (Except ClientError Message)} {h : Header} {p : Payload} {begun : Bool}
      {frame : Bytes} (hs : Exchange s (before ++ ⟨h, p, begun, [frame]⟩ :: after) done received)
      (sent : s.transmit frame = (.ok (), s')) :
      Exchange s' (before ++ after) (done ++ [(h, p)]) received
  | receive {s : Session} {os : List Outgoing} {done : List (Header × Payload)}
      {received : List (Except ClientError Message)} (hs : Exchange s os done received) :
      Exchange { s with link := s.link.receive.2 } os done (received ++ s.link.receive.1.toList)
  | elsewhere {s s' : Session} {os : List Outgoing} {done : List (Header × Payload)}
      {received : List (Except ClientError Message)} (hs : Exchange s os done received)
      (frames : s'.link.frames = s.link.frames) (assembler : s'.link.assembler = s.link.assembler) :
      Exchange s' os done received

theorem transmit_eq_ok {s s' : Session} {frame : Bytes} (h : s.transmit frame = (.ok (), s')) :
    s'.link = { s.link with frames := s.link.frames ++ [frame] } := by
  by_cases hopen : s.link.attached ∧ s.link.served
  · rw [transmit_of_open hopen] at h
    cases h
    rfl
  · obtain ⟨e, herror⟩ := transmit_of_not_open hopen frame
    rw [herror] at h
    cases h

theorem Portable.underway {s : Session} {h : Header} {p : Payload} {frames : List Bytes}
    (hp : s.Portable h p) (hframes : s.framesOf h p = .ok frames) (a : Assembler) :
    Underway a ⟨h, p, false, frames⟩ := by
  have decodes {frame : Bytes} (hframe : Message.encode h p = .ok frame) :
      Inbound.decode frame = .ok (.message ⟨h, p, ⟨some frame⟩⟩) := by
    obtain ⟨_, _, hspells, hmatch, hshallow⟩ := Message.matches_of_encode hframe hp.fits
    exact Inbound.decode_of_matches hspells hmatch hshallow
  unfold framesOf at hframes
  cases hunit : s.unit with
  | none =>
      rw [hunit] at hframes
      cases hencode : Message.encode h p with
      | error e =>
          rw [hencode] at hframes
          cases hframes
      | ok frame =>
          rw [hencode] at hframes
          cases hframes
          exact .whole (decodes hencode)
  | some unit =>
      rw [hunit] at hframes
      obtain ⟨hpos, hpair, bytes, hencode, hframes⟩ := Message.split_eq_ok.1 hframes
      split at hframes
      · obtain ⟨frame, hframe, rfl⟩ := hframes
        exact .whole (decodes hframe)
      · rename_i hlarge
        have hlarge := Nat.lt_of_not_le hlarge
        have hflatten := flatten_chunks hpos bytes
        have hpayload := Payload.decode_of_encode hencode hp.fits
        rw [← (Message.checkPair_eq_ok.1 hpair).1] at hpayload
        have hremains : Remains h p bytes [] (chunks unit bytes) frames :=
          ⟨hp.whole, hp.small unit bytes hunit hencode hlarge, hpayload, hflatten,
            ne_nil_of_mem_chunks hpos bytes,
            Slice.decode_of_encodeFrom hframes (hflatten.symm ▸ Nat.zero_add _)⟩
        exact .fresh hremains (two_le_length_chunks hpos hlarge)

theorem Underway.rest_ne_nil {a : Assembler} {h : Header} {p : Payload} {frames : List Bytes}
    (ho : Underway a ⟨h, p, false, frames⟩) : frames ≠ [] := by
  cases ho with
  | whole decodes => exact List.cons_ne_nil _ _
  | fresh remains several =>
      rintro rfl
      have hlength := remains.slices.length_eq
      rw [Slice.length_cut] at hlength
      exact absurd several (hlength ▸ by simp)

namespace Exchange

variable {s : Session} {os : List Outgoing} {done : List (Header × Payload)}
  {received : List (Except ClientError Message)}

/-- What was received and what is upcoming is what has been sent, and what is left over is what is
being sent. -/
theorem faithful (hs : Exchange s os done received) :
    (received ++ s.link.upcoming).map (Except.map Message.parts) = done.map .ok
      ∧ Tracks s.link.leftover os := by
  -- Frames that do not end a message come to nothing yet, so only `finish` adds to what is upcoming.
  induction hs with
  | start idle fresh =>
      rw [Link.upcoming, Link.leftover, idle, fresh]
      exact ⟨rfl, .fresh⟩
  | begin _ _ portable framed ih =>
      exact ⟨ih.1, ih.2.begin (portable.underway framed _)⟩
  | @give s _ _ _ _ _ _ _ _ frame _ _ more sent orderly ih =>
      obtain ⟨hupcoming, hleftover⟩ := s.link.upcoming_append frame
      obtain ⟨hnone, htracks⟩ := ih.2.give more orderly
      rw [transmit_eq_ok sent, hupcoming, hleftover, hnone]
      refine ⟨?_, htracks⟩
      rw [Link.told, Option.map_none, Option.toList_none, List.append_nil]
      exact ih.1
  | @finish s _ _ _ _ _ _ _ _ frame _ sent ih =>
      obtain ⟨hupcoming, hleftover⟩ := s.link.upcoming_append frame
      obtain ⟨⟨kept, hmessage⟩, htracks⟩ := ih.2.finish
      rw [transmit_eq_ok sent, hupcoming, hleftover, hmessage]
      refine ⟨?_, htracks⟩
      rw [← List.append_assoc, List.map_append, ih.1, List.map_append]
      rfl
  | @receive s _ _ _ _ ih =>
      obtain ⟨hupcoming, hleftover, _⟩ := Link.receive_eq (l := s.link) Prod.mk.eta.symm
      rw [List.append_assoc, ← hupcoming, hleftover]
      exact ih
  | elsewhere _ frames assembler ih =>
      rw [Link.upcoming, Link.leftover, frames, assembler]
      exact ih

theorem transmitAll {h : Header} {p : Payload} {begun : Bool} {frames : List Bytes} {s' : Session}
    (hs : Exchange s (os ++ [⟨h, p, begun, frames⟩]) done received) (hne : frames ≠ [])
    (horderly : ∀ rest, Orderly (os ++ [⟨h, p, true, rest⟩]))
    (hsent : s.transmitAll frames = (.ok (), s')) : Exchange s' os (done ++ [(h, p)]) received := by
  induction frames generalizing s begun with
  | nil => exact absurd rfl hne
  | cons frame rest ih =>
      rw [Session.transmitAll] at hsent
      rcases htransmit : s.transmit frame with ⟨e | _, t⟩
      · rw [htransmit] at hsent
        cases hsent
      · rw [htransmit] at hsent
        by_cases hrest : rest = []
        · subst hrest
          cases hsent
          have hfinish := hs.finish htransmit
          rwa [List.append_nil] at hfinish
        · exact ih (hs.give hrest htransmit (horderly rest)) hrest hsent

/-- A call that sends and succeeds, with none of its frames held up, has sent its message. -/
theorem send {h : Header} {p : Payload} {s' : Session} (hs : Exchange s os done received)
    (hp : s.Portable h p) (hsent : s.send h p = (.ok (), s')) (hid : h.messageId ∉ openIds os)
    (hfew : (openIds os).length < 16) : Exchange s' os (done ++ [(h, p)]) received := by
  have hphase : s.phase = .loggedIn := by
    by_contra hphase
    rw [send_of_not_loggedIn hphase] at hsent
    cases hsent
  cases hframes : s.framesOf h p with
  | error e =>
      rw [send_of_error hphase hframes] at hsent
      cases hsent
  | ok frames =>
      rw [send_of_ok hphase hframes] at hsent
      apply (hs.begin hphase hp hframes).transmitAll (hp.underway hframes {}).rest_ne_nil _ hsent
      intro rest
      have hids := openIds_middle_of_begun os [] (o := ⟨h, p, true, rest⟩) rfl
      rw [List.append_nil] at hids
      refine ⟨hids.nodup_iff.2 (List.nodup_cons.2 ⟨hid, hs.faithful.2.orderly.distinct⟩), ?_⟩
      rw [hids.length_eq]
      exact hfew

/-- The law of reception. What the service receives is what has been sent, each message once and
as it was, in the order of the last frames; and when nothing is being sent any more and everything
has been received, nothing is left behind. -/
theorem receives_in_order (hs : Exchange s os done received) :
    received.map (Except.map Message.parts) = (done.take received.length).map .ok
      ∧ s.link.receive.1.map (Except.map Message.parts) = done[received.length]?.map .ok
      ∧ (os = [] → s.link.receive.1 = none →
        s.link.receive.2.frames = [] ∧ s.link.receive.2.assembler = {}) := by
  obtain ⟨hreceived, htracks⟩ := hs.faithful
  obtain ⟨_, hleftover, hframes⟩ := Link.receive_eq (l := s.link) Prod.mk.eta.symm
  rw [List.map_append] at hreceived
  have hlength : (received.map (Except.map Message.parts)).length = received.length :=
    List.length_map _
  refine ⟨?_, ?_, fun hos hnone => ⟨hframes hnone, ?_⟩⟩
  · rw [List.map_take, ← hreceived, ← hlength, List.take_left]
  · rw [← List.getElem?_map, ← hreceived, ← hlength, List.getElem?_append_right le_rfl,
      Nat.sub_self, ← List.head?_eq_getElem?, List.head?_map, Link.receive_eq_head?]
  · have hrest : s.link.receive.2.leftover = s.link.receive.2.assembler := by
      rw [Link.leftover, hframes hnone]
      rfl
    rw [hos, ← hleftover, hrest] at htracks
    exact htracks.eq_fresh

theorem receives_between : ∃ s small, Exchange s [] [small, (Header.sample, Payload.sample)] []
    ∧ s.link.receive.1.map (Except.map Message.parts) = some (.ok small) := by
  let s : Session :=
    { config := {}, phase := .loggedIn, unit := some 20, link := { attached := true } }
  let h : Header := { Header.sample with messageId := "n" }
  let p : Payload := ⟨.eventDocument, { tableName := "t", descriptors := [], records := [] }⟩
  obtain ⟨bytes, hencode, hlength⟩ :
      ∃ bytes, Payload.sample.encode = .ok bytes ∧ bytes.length = 40 := ⟨_, rfl, by decide⟩
  have hlarge : Portable s Header.sample Payload.sample := by
    refine ⟨rfl, by decide, fun _ bytes' _ hencode' _ => ?_⟩
    obtain rfl := Except.ok.inj (hencode.symm.trans hencode')
    rw [hlength]
    decide
  have htwo : (chunks 20 bytes).length = 2 := by
    have hrest : (bytes.drop 20).length = 20 := by rw [List.length_drop, hlength]
    have hnone : ((bytes.drop 20).drop 20).length = 0 := by rw [List.length_drop, hrest]
    have hne {rest : Bytes} (h : rest.length ≠ 0) : ¬(20 = 0 ∨ rest = []) := by
      rintro (hzero | rfl)
      · cases hzero
      · exact h rfl
    rw [chunks, dif_neg (hne (by omega)), chunks, dif_neg (hne (by omega)), chunks,
      dif_pos (.inr (List.length_eq_zero_iff.1 hnone))]
    rfl
  have hflatten : 0 + (chunks 20 bytes).flatten.length = bytes.length := by
    rw [flatten_chunks (by decide), Nat.zero_add]
  have hsend : Header.sample.Sendable := ⟨by decide, by decide, by decide⟩
  obtain ⟨frames, hframes⟩ := Slice.exists_encodeFrom hsend (by omega)
    (ne_nil_of_mem_chunks (by decide) bytes) hflatten
  have hcount := (Slice.decode_of_encodeFrom hframes hflatten).length_eq
  rw [Slice.length_cut, htwo] at hcount
  obtain ⟨first, last, rfl⟩ := List.length_eq_two.1 hcount
  have hframes : Message.split Header.sample Payload.sample 20 = .ok [first, last] := by
    refine Message.split_eq_ok.2 ⟨by decide, rfl, bytes, hencode, ?_⟩
    rwa [if_neg (by omega)]
  obtain ⟨frame, hframe⟩ : ∃ frame, s.framesOf h p = .ok [frame] := ⟨_, rfl⟩
  have hsmall : Portable s h p := by
    refine ⟨rfl, by decide, fun _ bytes' _ hencode' _ => ?_⟩
    cases hencode'
    decide
  let large (begun : Bool) (rest : List Bytes) : Outgoing :=
    ⟨Header.sample, Payload.sample, begun, rest⟩
  let small : Outgoing := ⟨h, p, false, [frame]⟩
  have hbegun : Exchange s ([] ++ large false [first, last] :: [small]) [] [] :=
    ((Exchange.start rfl rfl).begin rfl hlarge hframes).begin rfl hsmall hframe
  have hgiven : Exchange _ ([large true [last]] ++ small :: []) [] [] :=
    hbegun.give (List.cons_ne_nil _ _) (transmit_of_open ⟨rfl, rfl⟩ first)
      ⟨List.nodup_singleton "m", by simp [openIds, small]⟩
  have hbetween : Exchange _ ([] ++ large true [last] :: []) [(h, p)] [] :=
    hgiven.finish (transmit_of_open ⟨rfl, rfl⟩ frame)
  have hdone := hbetween.finish (transmit_of_open ⟨rfl, rfl⟩ last)
  exact ⟨_, _, hdone, hdone.receives_in_order.2.1⟩

end Exchange

end Session

end DataGateway

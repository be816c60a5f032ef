import DataGateway.Proofs.MessagePack.Spelling
import DataGateway.Wire.Reader
import Mathlib.Data.List.Forall2

/-!
# What a reader has taken

A reader that gives a result has taken some bytes off the front, and which bytes those can be is all
that later proofs need of it. The first part turns the combinators around: each equation says what
must have happened for a result to be there. The second part says of every typed read that it takes
a nil or a value of its family, and nothing else (`Takes`). The third part reads lists: a reader
that takes what spells a value, run several times, takes what spells the values in order.
-/

namespace DataGateway.Reader

open MessagePack

variable {α β : Type}

theorem bind_eq_ok {read : Reader α} {next : α → Reader β} {s t : Bytes} {b : β} :
    (read >>= next) s = .ok b t ↔ ∃ a r, read s = .ok a r ∧ next a r = .ok b t := by
  change EStateM.bind read next s = _ ↔ _
  unfold EStateM.bind
  cases read s <;> simp

theorem bind_of_ok {read : Reader α} {s t : Bytes} {a : α} (h : read s = .ok a t)
    (next : α → Reader β) : (read >>= next) s = next a t := by
  change EStateM.bind read next s = _
  rw [EStateM.bind, h]

theorem bind_of_error {read : Reader α} {s t : Bytes} {e : ProtocolError} (h : read s = .error e t)
    (next : α → Reader β) : (read >>= next) s = .error e t := by
  change EStateM.bind read next s = _
  rw [EStateM.bind, h]

theorem map_eq_ok {read : Reader α} {f : α → β} {s t : Bytes} {b : β} :
    (f <$> read) s = .ok b t ↔ ∃ a, read s = .ok a t ∧ f a = b := by
  change EStateM.map f read s = _ ↔ _
  unfold EStateM.map
  cases read s <;> simp [and_comm]

theorem pure_eq_ok {s t : Bytes} {a b : α} :
    (pure a : Reader α) s = .ok b t ↔ a = b ∧ s = t := by
  change EStateM.pure a s = _ ↔ _
  simp [EStateM.pure]

theorem throw_eq_ok {s t : Bytes} {e : ProtocolError} {b : α} :
    (throw e : Reader α) s = .ok b t ↔ False := by
  constructor
  · intro h
    cases h
  · exact False.elim

theorem ofExcept_eq_ok {x : Except ProtocolError α} {s t : Bytes} {a : α} :
    ofExcept x s = .ok a t ↔ x = .ok a ∧ s = t := by
  cases x with
  | ok b => simp [ofExcept, pure_eq_ok]
  | error e => simp [ofExcept, throw_eq_ok]

theorem outcome_eq_ok {read : Reader α} {bytes : Bytes} {a : α} :
    outcome read bytes = .ok a ↔ ∃ t, read bytes = .ok a t := by
  unfold outcome EStateM.run
  cases read bytes <;> simp

theorem finish_eq_ok {s t : Bytes} {u : Unit} : finish s = .ok u t ↔ s = [] ∧ t = [] := by
  cases s <;> simp [finish, eq_comm]

theorem takeOr_eq_ok {cut : Nat → ProtocolError} {n : Nat} {s t taken : Bytes} :
    takeOr cut n s = .ok taken t ↔ taken.length = n ∧ s = taken ++ t := by
  constructor
  · intro h
    simp only [takeOr, List.splitAt_eq] at h
    split at h
    · rename_i hfound
      cases h
      exact ⟨hfound, (List.take_append_drop n s).symm⟩
    · cases h
  · rintro ⟨rfl, rfl⟩
    exact takeOr_append cut taken t

theorem peek_eq_ok {s t : Bytes} {marker : Marker} :
    peek s = .ok marker t ↔ s = t ∧ ∃ b r, s = b :: r ∧ Marker.ofByte b = some marker := by
  unfold peek
  cases s with
  | nil => simp
  | cons b r =>
      cases hb : Marker.ofByte b with
      | none => simp [hb]
      | some marker => simp [hb, and_comm]

theorem skip_eq_ok {s t : Bytes} {u : Unit} : skip s = .ok u t ↔ s.tail = t := by
  change EStateM.Result.ok () s.tail = _ ↔ _
  simp

theorem numberOr_eq_ok {cut : ProtocolError} {operand : Operand} {s t : Bytes} {n : Int} :
    numberOr cut operand s = .ok n t
      ↔ ∃ bytes, bytes.length = operand.width ∧ s = bytes ++ t ∧ operand.value bytes = n := by
  simp only [numberOr, map_eq_ok, takeOr_eq_ok, and_assoc]

theorem required_eq_ok {read : Slot → Reader (Option α)} {slot : Slot} {s t : Bytes} {a : α} :
    required read slot s = .ok a t ↔ read slot s = .ok (some a) t := by
  simp only [required, bind_eq_ok]
  constructor
  · rintro ⟨_ | b, r, hread, hnext⟩
    · simp [throw_eq_ok] at hnext
    · obtain ⟨rfl, rfl⟩ := pure_eq_ok.1 hnext
      exact hread
  · intro hread
    exact ⟨some a, t, hread, pure_eq_ok.2 ⟨rfl, rfl⟩⟩

/-! ### Typed reads -/

/-- What follows the marker that a typed read has seen. -/
private def afterMarker (slot : Slot) (family : Family) (body : Operand → Reader α)
    (marker : Marker) : Reader (Option α) :=
  if marker.family = .nil then skip >>= fun _ => pure none
  else if marker.family ≠ family then throw (.typeMismatch slot marker.family family)
  else skip >>= fun _ => some <$> body marker.operand

private theorem typed_eq {slot : Slot} {family : Family} {body : Operand → Reader α} :
    typed slot family body = peek >>= afterMarker slot family body := rfl

/-- What a typed read makes of a byte that is a marker. -/
theorem typed_of_marker {slot : Slot} {family : Family} {body : Operand → Reader α} {b : UInt8}
    {marker : Marker} (hb : Marker.ofByte b = some marker) (r : Bytes) :
    typed slot family body (b :: r) = if marker.family = .nil then .ok none r
      else if marker.family ≠ family then .error (.typeMismatch slot marker.family family) (b :: r)
      else (some <$> body marker.operand) r := by
  rw [typed_eq, bind_of_ok (peek_eq_ok.2 ⟨rfl, b, r, rfl, hb⟩), afterMarker]
  split
  · rfl
  split <;> rfl

theorem typed_of_reserved {slot : Slot} {family : Family} {body : Operand → Reader α} {b : UInt8}
    (hb : Marker.ofByte b = none) (r : Bytes) :
    typed slot family body (b :: r) = .error (.malformed .reservedMarker) (b :: r) := by
  have hpeek : peek (b :: r) = .error (.malformed .reservedMarker) (b :: r) := by
    simp [peek, hb]
  exact bind_of_error hpeek _

/-- The same for the header of an array. -/
theorem sequence_of_marker {owner : String} {count : Nat} {b : UInt8} {marker : Marker}
    (hb : Marker.ofByte b = some marker) (r : Bytes) :
    sequence owner count (b :: r) = if marker.family ≠ .array then
        .error (.typeMismatch ⟨"<sequence>", owner⟩ marker.family .array) (b :: r)
      else (length marker.operand >>= fun found =>
        if found ≠ count then throw (.elementCount owner count found) else pure ()) r := by
  unfold sequence
  rw [bind_of_ok (peek_eq_ok.2 ⟨rfl, b, r, rfl, hb⟩)]
  split <;> rfl

theorem sequence_of_reserved {owner : String} {count : Nat} {b : UInt8}
    (hb : Marker.ofByte b = none) (r : Bytes) :
    sequence owner count (b :: r) = .error (.malformed .reservedMarker) (b :: r) := by
  have hpeek : peek (b :: r) = .error (.malformed .reservedMarker) (b :: r) := by
    simp [peek, hb]
  exact bind_of_error hpeek _

theorem typed_eq_ok {slot : Slot} {family : Family} (hfamily : family ≠ .nil)
    {body : Operand → Reader α} {s t : Bytes} {o : Option α} :
    typed slot family body s = .ok o t ↔
      o = none ∧ s = 0xc0 :: t ∨
      ∃ b marker r a, Marker.ofByte b = some marker ∧ marker.family = family ∧ s = b :: r
        ∧ body marker.operand r = .ok a t ∧ o = some a := by
  rw [typed_eq]
  simp only [bind_eq_ok, peek_eq_ok, afterMarker]
  constructor
  · rintro ⟨marker, _, ⟨rfl, b, r, rfl, hb⟩, h⟩
    by_cases hnil : marker.family = .nil
    · rw [if_pos hnil] at h
      simp only [bind_eq_ok, skip_eq_ok, pure_eq_ok, List.tail_cons] at h
      obtain ⟨_, _, rfl, rfl, rfl⟩ := h
      left
      rw [(Marker.family_eq_nil_iff hb).1 hnil]
      exact ⟨rfl, rfl⟩
    · by_cases hmarker : marker.family = family
      · rw [if_neg hnil, if_neg (not_not.2 hmarker)] at h
        simp only [bind_eq_ok, skip_eq_ok, map_eq_ok, List.tail_cons] at h
        obtain ⟨_, _, rfl, a, hbody, rfl⟩ := h
        right
        exact ⟨b, marker, _, a, hb, hmarker, rfl, hbody, rfl⟩
      · rw [if_neg hnil, if_pos hmarker] at h
        exact (throw_eq_ok.1 h).elim
  · rintro (⟨rfl, rfl⟩ | ⟨b, marker, r, a, hb, rfl, rfl, hbody, rfl⟩)
    · refine ⟨⟨.nil, .here 0⟩, _, ⟨rfl, 0xc0, t, rfl, rfl⟩, ?_⟩
      exact bind_eq_ok.2 ⟨(), t, skip_eq_ok.2 rfl, pure_eq_ok.2 ⟨rfl, rfl⟩⟩
    · refine ⟨marker, _, ⟨rfl, b, r, rfl, hb⟩, ?_⟩
      rw [if_neg hfamily, if_neg (not_not.2 rfl)]
      simp only [bind_eq_ok, skip_eq_ok, map_eq_ok, List.tail_cons]
      exact ⟨(), r, rfl, a, hbody, rfl⟩

/-- A typed read takes a nil, or a head of its family and what the number of that head calls for. -/
theorem typed_number_eq_ok {slot : Slot} {family : Family} (hfamily : family ≠ .nil)
    {next : Int → Reader α} {s t : Bytes} {o : Option α} :
    typed slot family (fun operand => number operand >>= next) s = .ok o t ↔
      o = none ∧ s = 0xc0 :: t ∨
      ∃ n head r a, Head family n head ∧ s = head ++ r ∧ next n r = .ok a t ∧ o = some a := by
  simp only [typed_eq_ok hfamily, bind_eq_ok, number, numberOr_eq_ok]
  refine or_congr_right ⟨?_, ?_⟩
  · rintro ⟨b, marker, _, a, hb, hmarker, rfl, ⟨n, r, ⟨operand, hlength, rfl, hn⟩, hnext⟩, rfl⟩
    exact ⟨n, b :: operand, r, a, ⟨b, marker, operand, hb, hmarker, hlength, hn, rfl⟩, rfl, hnext,
      rfl⟩
  · rintro ⟨n, _, r, a, ⟨b, marker, operand, hb, hmarker, hlength, hn, rfl⟩, rfl, hnext, rfl⟩
    exact ⟨b, marker, _, a, hb, hmarker, rfl, ⟨n, r, ⟨operand, hlength, rfl, hn⟩, hnext⟩, rfl⟩

/-- The same where the number is a length. -/
theorem typed_length_eq_ok {slot : Slot} {family : Family} (hfamily : family.widest = 4)
    {next : Nat → Reader α} {s t : Bytes} {o : Option α} :
    typed slot family (fun operand => length operand >>= next) s = .ok o t ↔
      o = none ∧ s = 0xc0 :: t ∨
      ∃ (n : Nat) (head r : Bytes) (a : α),
        Head family n head ∧ s = head ++ r ∧ next n r = .ok a t ∧ o = some a := by
  have hnil : family ≠ .nil := by
    rintro rfl
    cases hfamily
  simp only [length, bind_map_left, typed_number_eq_ok hnil]
  refine or_congr_right ⟨?_, ?_⟩
  · rintro ⟨n, head, r, a, hhead, hs, hnext, ho⟩
    obtain ⟨k, rfl⟩ := Int.eq_ofNat_of_zero_le (hhead.length_lt hfamily).1
    exact ⟨k, head, r, a, hhead, hs, hnext, ho⟩
  · rintro ⟨n, head, r, a, hhead, hs, hnext, ho⟩
    exact ⟨n, head, r, a, hhead, hs, hnext, ho⟩

/-- What a typed read takes: a nil, which is read as nothing, or bytes that stand for what it
reads. -/
def Takes (read : Reader (Option α)) (stands : α → Bytes → Prop) : Prop :=
  ∀ s o t, read s = .ok o t ↔
    o = none ∧ s = 0xc0 :: t ∨ ∃ a front, o = some a ∧ stands a front ∧ s = front ++ t

theorem boolean_takes (slot : Slot) :
    Takes (boolean slot) fun b front => ∃ n, Head .boolean n front ∧ b = (n != 0) := by
  intro s o t
  simp only [boolean, map_eq_pure_bind, typed_number_eq_ok (by decide : Family.boolean ≠ .nil),
    pure_eq_ok]
  refine or_congr_right ⟨?_, ?_⟩
  · rintro ⟨n, head, r, a, hhead, rfl, ⟨rfl, rfl⟩, rfl⟩
    exact ⟨_, head, rfl, ⟨n, hhead, rfl⟩, rfl⟩
  · rintro ⟨_, head, rfl, ⟨n, hhead, rfl⟩, rfl⟩
    exact ⟨n, head, t, _, hhead, rfl, ⟨rfl, rfl⟩, rfl⟩

theorem long_takes (slot : Slot) :
    Takes (long slot) fun n front => Head .integer n.toInt front := by
  intro s o t
  simp only [long, typed_number_eq_ok (by decide : Family.integer ≠ .nil)]
  refine or_congr_right ⟨?_, ?_⟩
  · rintro ⟨n, head, r, a, hhead, rfl, hnext, rfl⟩
    split at hnext
    · rename_i hsmall
      obtain ⟨rfl, rfl⟩ := pure_eq_ok.1 hnext
      have hback : (Int64.ofInt n).toInt = n :=
        Int64.toInt_ofInt_of_le hhead.integer_bounds.1 hsmall
      exact ⟨_, head, rfl, hback.symm ▸ hhead, rfl⟩
    · exact (throw_eq_ok.1 hnext).elim
  · rintro ⟨n, head, rfl, hhead, rfl⟩
    refine ⟨n.toInt, head, t, n, hhead, rfl, ?_, rfl⟩
    have hsmall : n.toInt < 0x8000000000000000 := n.toInt_lt
    rw [if_pos hsmall]
    simp [pure_eq_ok]

theorem int_takes (slot : Slot) : Takes (int slot) fun n front => Head .integer n.toInt front := by
  intro s o t
  rw [int, bind_eq_ok]
  constructor
  · rintro ⟨o, r, hlong, hnext⟩
    rcases (long_takes slot s o r).1 hlong with ⟨rfl, rfl⟩ | ⟨n, front, rfl, hhead, rfl⟩
    · obtain ⟨rfl, rfl⟩ := pure_eq_ok.1 hnext
      exact .inl ⟨rfl, rfl⟩
    · simp only at hnext
      split at hnext
      · rename_i hrange
        obtain ⟨rfl, rfl⟩ := pure_eq_ok.1 hnext
        have hback : n.toInt32.toInt = n.toInt := by
          rw [Int64.toInt_toInt32]
          exact Int.bmod_eq_of_le (by omega) (by omega)
        exact .inr ⟨_, front, rfl, by simpa only [hback] using hhead, rfl⟩
      · exact (throw_eq_ok.1 hnext).elim
  · rintro (⟨rfl, rfl⟩ | ⟨n, front, rfl, hhead, rfl⟩)
    · exact ⟨none, t, (long_takes slot _ _ _).2 (.inl ⟨rfl, rfl⟩), pure_eq_ok.2 ⟨rfl, rfl⟩⟩
    · have hwide : n.toInt64.toInt = n.toInt := Int32.toInt_toInt64 n
      refine ⟨some n.toInt64, t, (long_takes slot _ _ _).2 (.inr ⟨_, front, rfl, ?_, rfl⟩), ?_⟩
      · simpa only [hwide] using hhead
      · simp only [hwide]
        have hrange : -0x80000000 ≤ n.toInt ∧ n.toInt < 0x80000000 := ⟨n.le_toInt, n.toInt_lt⟩
        rw [if_pos hrange, Int32.toInt32_toInt64]
        exact pure_eq_ok.2 ⟨rfl, rfl⟩

theorem text_takes (slot : Slot) : Takes (text slot) fun x front =>
    ∃ head, Head .string (Text.octets x).length head ∧ front = head ++ Text.octets x := by
  intro s o t
  simp only [text, typed_length_eq_ok (rfl : Family.string.widest = 4), bind_eq_ok, takeOr_eq_ok]
  refine or_congr_right ⟨?_, ?_⟩
  · rintro ⟨n, head, r, a, hhead, rfl, ⟨octets, r, ⟨rfl, rfl⟩, hnext⟩, rfl⟩
    cases htext : Text.ofOctets octets with
    | ok x =>
        rw [htext] at hnext
        obtain ⟨rfl, rfl⟩ := pure_eq_ok.1 hnext
        rw [← Text.octets_of_ofOctets htext] at hhead ⊢
        exact ⟨x, _, rfl, ⟨head, hhead, rfl⟩, (List.append_assoc ..).symm⟩
    | error fault =>
        rw [htext] at hnext
        exact (throw_eq_ok.1 hnext).elim
  · rintro ⟨x, head, rfl, ⟨head, hhead, rfl⟩, rfl⟩
    refine ⟨_, head, _, x, hhead, List.append_assoc .., ⟨_, t, ⟨rfl, rfl⟩, ?_⟩, rfl⟩
    simp [Text.ofOctets_octets, pure_eq_ok]

theorem binary_takes (slot : Slot) : Takes (binary slot) fun bytes front =>
    ∃ head, Head .binary bytes.length head ∧ front = head ++ bytes := by
  intro s o t
  simp only [binary, typed_length_eq_ok (rfl : Family.binary.widest = 4), takeOr_eq_ok]
  refine or_congr_right ⟨?_, ?_⟩
  · rintro ⟨_, head, r, a, hhead, rfl, ⟨rfl, rfl⟩, rfl⟩
    exact ⟨a, _, rfl, ⟨head, hhead, rfl⟩, (List.append_assoc ..).symm⟩
  · rintro ⟨a, _, rfl, ⟨head, hhead, rfl⟩, rfl⟩
    exact ⟨_, head, _, a, hhead, List.append_assoc .., ⟨rfl, rfl⟩, rfl⟩

private theorem typed_length_takes (slot : Slot) {family : Family} (hfamily : family.widest = 4) :
    Takes (typed slot family length) fun n front => Head family n front := by
  intro s o t
  have hlength :
      typed slot family length = typed slot family fun operand => length operand >>= pure := by
    simp only [bind_pure]
  rw [hlength, typed_length_eq_ok hfamily]
  refine or_congr_right ⟨?_, ?_⟩
  · rintro ⟨n, head, r, a, hhead, rfl, hnext, rfl⟩
    obtain ⟨rfl, rfl⟩ := pure_eq_ok.1 hnext
    exact ⟨n, head, rfl, hhead, rfl⟩
  · rintro ⟨n, head, rfl, hhead, rfl⟩
    exact ⟨n, head, t, n, hhead, rfl, pure_eq_ok.2 ⟨rfl, rfl⟩, rfl⟩

theorem arrayLength_takes (slot : Slot) :
    Takes (arrayLength slot) fun n front => Head .array n front :=
  typed_length_takes slot rfl

theorem mapLength_takes (slot : Slot) :
    Takes (mapLength slot) fun n front => Head .map n front :=
  typed_length_takes slot rfl

/-! ### Reading several values -/

/-- If what a reader takes stands for what it reads, then so does what it takes when it reads
several times. `Taken` is said of the bytes, and `spelled` is what one `γ` has there. -/
theorem taken_of_times {β γ : Type} {Taken : List β → Bytes → Prop} (nil : Taken [] [])
    (append : ∀ {xs ys a b}, Taken xs a → Taken ys b → Taken (xs ++ ys) (a ++ b))
    (spelled : γ → List β) (stands : γ → α → Prop) {read : Reader α}
    (hread : ∀ s a t, read s = .ok a t →
      ∃ front c, s = front ++ t ∧ Taken (spelled c) front ∧ stands c a)
    {n : Nat} {s t : Bytes} {as : List α} (h : times n read s = .ok as t) :
    as.length = n ∧ ∃ front cs, s = front ++ t ∧ Taken (cs.flatMap spelled) front
      ∧ List.Forall₂ stands cs as := by
  induction n generalizing s as with
  | zero =>
      obtain ⟨rfl, rfl⟩ := pure_eq_ok.1 h
      exact ⟨rfl, [], [], rfl, nil, .nil⟩
  | succ n ih =>
      simp only [times_succ, bind_eq_ok, pure_eq_ok] at h
      obtain ⟨a, r, ha, as, _, has, rfl, rfl⟩ := h
      obtain ⟨front, c, rfl, hfront, hstands⟩ := hread s a r ha
      obtain ⟨rfl, back, cs, rfl, hback, hall⟩ := ih has
      exact ⟨rfl, front ++ back, c :: cs, (List.append_assoc ..).symm, append hfront hback,
        .cons hstands hall⟩

/-- The same of values that are spelled. -/
theorem spells_of_times {γ : Type} (spelled : γ → List Value) (stands : γ → α → Prop)
    {read : Reader α} {reserved : Prop}
    (hread : ∀ s a t, read s = .ok a t →
      ∃ front c, s = front ++ t ∧ Spells reserved (spelled c) front ∧ stands c a)
    {n : Nat} {s t : Bytes} {as : List α} (h : times n read s = .ok as t) :
    as.length = n ∧ ∃ front cs, s = front ++ t ∧ Spells reserved (cs.flatMap spelled) front
      ∧ List.Forall₂ stands cs as :=
  taken_of_times .nil .append spelled stands hread h

theorem times_of_spells {γ : Type} (spelled : γ → List Value) (stands : γ → α → Prop)
    {read : Reader α} {reserved : Prop}
    (hread : ∀ c a front t, stands c a → Spells reserved (spelled c) front →
      read (front ++ t) = .ok a t)
    {cs : List γ} {as : List α} (hall : List.Forall₂ stands cs as) {front t : Bytes}
    (h : Spells reserved (cs.flatMap spelled) front) :
    times as.length read (front ++ t) = .ok as t := by
  induction hall generalizing front with
  | nil =>
      rw [Spells.nil_iff.1 h]
      exact pure_eq_ok.2 ⟨rfl, rfl⟩
  | cons hstands _ ih =>
      rw [List.flatMap_cons] at h
      obtain ⟨a, b, rfl, ha, hb⟩ := Spells.append_iff.1 h
      simp only [List.length_cons, times_succ, bind_eq_ok, pure_eq_ok, List.append_assoc]
      exact ⟨_, b ++ t, hread _ _ a (b ++ t) hstands ha, _, t, ih hb, rfl, rfl⟩

end DataGateway.Reader

import DataGateway.Proofs.Wire.Dynamic
import DataGateway.Wire.Layout

/-!
# Where reading ends

Every value says where it ends, so what a reader gives is settled by the bytes it takes. More bytes
behind them are left over and change nothing; and when bytes are missing at their end, the reader
gets as far as they go and then fails for want of the next one, never because of what it has read so
far. `Delimited` says both of a reader. Looking at a marker without taking it counts as well: the
look-ahead needs a byte that the value has in any case.

The property passes from readers to the readers built from them, so it is proved along the readers
of dynamic values by induction on the budget (`delimited_readWithin`), and along layouts by
induction on the layout (`delimited`). It says nothing about readers that fail on the whole bytes.
-/

namespace DataGateway

open MessagePack (Family Marker Operand Value)

namespace Reader

variable {α β : Type} {read : Reader α}

/-- What the reader gives is settled by the bytes it takes: with more bytes it gives the same, and
with some of them missing it fails to decode, unless it can do without those. -/
structure Delimited (read : Reader α) : Prop where
  extend {s t : Bytes} {a : α} (h : read s = .ok a t) (x : Bytes) : read (s ++ x) = .ok a (t ++ x)
  cut {s x t : Bytes} {a : α} (h : read (s ++ x) = .ok a t) :
    (∃ u, read s = .ok a u ∧ t = u ++ x) ∨ ∃ e u, read s = .error e u ∧ e.kind = .decode

namespace Delimited

/-! ### Combinators -/

theorem pure (a : α) : Delimited (Pure.pure a : Reader α) where
  extend h x := by
    obtain ⟨rfl, rfl⟩ := pure_eq_ok.1 h
    exact pure_eq_ok.2 ⟨rfl, rfl⟩
  cut h := by
    obtain ⟨rfl, rfl⟩ := pure_eq_ok.1 h
    exact .inl ⟨_, pure_eq_ok.2 ⟨rfl, rfl⟩, rfl⟩

/-- Whatever fails on all bytes is delimited, since nothing is said of failures. -/
theorem throw (e : ProtocolError) : Delimited (MonadExcept.throw e : Reader α) where
  extend h := (throw_eq_ok.1 h).elim
  cut h := (throw_eq_ok.1 h).elim

theorem ofExcept (x : Except ProtocolError α) : Delimited (Reader.ofExcept x) := by
  cases x with
  | ok a => exact .pure a
  | error e => exact .throw e

theorem bind (h : Delimited read) {next : α → Reader β} (hnext : ∀ a, Delimited (next a)) :
    Delimited (read >>= next) where
  extend hread x := by
    obtain ⟨a, r, hfirst, hrest⟩ := bind_eq_ok.1 hread
    exact bind_eq_ok.2 ⟨a, r ++ x, h.extend hfirst x, (hnext a).extend hrest x⟩
  cut {s x} _ _ hread := by
    obtain ⟨a, r, hfirst, hrest⟩ := bind_eq_ok.1 hread
    rcases h.cut hfirst with ⟨u, hu, rfl⟩ | ⟨e, u, hu, he⟩
    · rw [bind_of_ok hu]
      exact (hnext a).cut hrest
    · exact .inr ⟨e, u, bind_of_error hu next, he⟩

theorem map (h : Delimited read) (f : α → β) : Delimited (f <$> read) := by
  rw [map_eq_pure_bind]
  exact h.bind fun a => .pure (f a)

theorem required {read : Slot → Reader (Option α)} {slot : Slot} (h : Delimited (read slot)) :
    Delimited (Reader.required read slot) := by
  refine h.bind fun o => ?_
  cases o with
  | some a => exact .pure a
  | none => exact .throw _

theorem times (h : Delimited read) (n : Nat) : Delimited (Reader.times n read) := by
  induction n with
  | zero => exact .pure []
  | succ n ih =>
      rw [times_succ]
      exact h.bind fun a => ih.bind fun rest => .pure (a :: rest)

/-- A reader that needs a first byte is delimited if, whatever byte that is, it refuses it or goes
on behind it as a delimited reader does. -/
theorem of_first {e : ProtocolError} (hempty : read [] = .error e []) (he : e.kind = .decode)
    (hfirst : ∀ b, (∃ e', ∀ r, read (b :: r) = .error e' (b :: r))
      ∨ ∃ next, Delimited next ∧ ∀ r, read (b :: r) = next r) : Delimited read where
  extend {s _ _} h x := by
    cases s with
    | nil =>
        rw [hempty] at h
        cases h
    | cons b r =>
        rcases hfirst b with ⟨e', hrefused⟩ | ⟨next, hnext, hread⟩
        · rw [hrefused] at h
          cases h
        · rw [List.cons_append, hread]
          exact hnext.extend ((hread r).symm.trans h) x
  cut {s x _ _} h := by
    cases s with
    | nil => exact .inr ⟨e, [], hempty, he⟩
    | cons b r =>
        rcases hfirst b with ⟨e', hrefused⟩ | ⟨next, hnext, hread⟩
        · rw [List.cons_append, hrefused] at h
          cases h
        · rw [List.cons_append, hread] at h
          simpa only [hread] using hnext.cut h

/-! ### Typed reads -/

theorem peek : Delimited Reader.peek where
  extend h x := by
    obtain ⟨rfl, b, r, rfl, hb⟩ := peek_eq_ok.1 h
    exact peek_eq_ok.2 ⟨rfl, b, r ++ x, rfl, hb⟩
  cut {s x _ _} h := by
    obtain ⟨rfl, b, r, hs, hb⟩ := peek_eq_ok.1 h
    cases s with
    | nil => exact .inr ⟨.unexpectedEnd, [], rfl, rfl⟩
    | cons c s =>
        obtain ⟨rfl, rfl⟩ := List.cons.inj hs
        exact .inl ⟨c :: s, peek_eq_ok.2 ⟨rfl, c, s, rfl, hb⟩, rfl⟩

theorem takeOr {cut : Nat → ProtocolError} (hcut : ∀ found, (cut found).kind = .decode) (n : Nat) :
    Delimited (Reader.takeOr cut n) where
  extend h x := by
    obtain ⟨hlength, rfl⟩ := takeOr_eq_ok.1 h
    exact takeOr_eq_ok.2 ⟨hlength, List.append_assoc ..⟩
  cut {s x t taken} h := by
    obtain ⟨hlength, hs⟩ := takeOr_eq_ok.1 h
    rcases Nat.lt_or_ge s.length n with hshort | hlong
    · exact .inr ⟨_, s, takeOr_eq_error cut hshort, hcut _⟩
    · obtain ⟨u, rfl, rfl⟩ | ⟨u, rfl, rfl⟩ := List.append_eq_append_iff.1 hs
      · obtain rfl : u = [] := by
          rw [List.length_append] at hlength
          exact List.length_eq_zero_iff.1 (by omega)
        exact .inl ⟨[], takeOr_eq_ok.2 ⟨by simpa using hlength, by simp⟩, rfl⟩
      · exact .inl ⟨u, takeOr_eq_ok.2 ⟨hlength, rfl⟩, rfl⟩

theorem numberOr {cut : ProtocolError} (hcut : cut.kind = .decode) (operand : Operand) :
    Delimited (Reader.numberOr cut operand) :=
  (takeOr (fun _ => hcut) operand.width).map _

theorem number (operand : Operand) : Delimited (Reader.number operand) := numberOr rfl operand

theorem length (operand : Operand) : Delimited (Reader.length operand) := (number operand).map _

theorem typed {slot : Slot} {family : Family} {body : Operand → Reader α}
    (hbody : ∀ operand, Delimited (body operand)) : Delimited (Reader.typed slot family body) := by
  refine of_first (e := .unexpectedEnd) rfl rfl fun b => ?_
  cases hb : Marker.ofByte b with
  | none => exact .inl ⟨_, fun r => typed_of_reserved hb r⟩
  | some marker =>
      simp only [typed_of_marker hb]
      by_cases hnil : marker.family = .nil
      · simp only [if_pos hnil]
        exact .inr ⟨_, .pure none, fun _ => rfl⟩
      by_cases hfamily : marker.family ≠ family
      · simp only [if_neg hnil, if_pos hfamily]
        exact .inl ⟨_, fun _ => rfl⟩
      · simp only [if_neg hnil, if_neg hfamily]
        exact .inr ⟨_, (hbody marker.operand).map some, fun _ => rfl⟩

theorem boolean (slot : Slot) : Delimited (Reader.boolean slot) :=
  typed fun operand => (number operand).map _

theorem long (slot : Slot) : Delimited (Reader.long slot) := by
  refine typed fun operand => (number operand).bind fun n => ?_
  split
  · exact .pure _
  · exact .throw _

theorem int (slot : Slot) : Delimited (Reader.int slot) := by
  refine (long slot).bind fun o => ?_
  cases o with
  | none => exact .pure none
  | some n =>
      dsimp only
      split
      · exact .pure _
      · exact .throw _

theorem text (slot : Slot) : Delimited (Reader.text slot) := by
  refine typed fun operand => (length operand).bind fun n => ?_
  refine (takeOr (fun _ => rfl) n).bind fun octets => ?_
  cases Text.ofOctets octets with
  | ok s => exact .pure s
  | error fault => exact .throw _

theorem binary (slot : Slot) : Delimited (Reader.binary slot) :=
  typed fun operand => (length operand).bind fun n => takeOr (fun _ => rfl) n

theorem arrayLength (slot : Slot) : Delimited (Reader.arrayLength slot) := typed length

theorem mapLength (slot : Slot) : Delimited (Reader.mapLength slot) := typed length

theorem sequence (owner : String) (count : Nat) : Delimited (Reader.sequence owner count) := by
  refine of_first (e := .unexpectedEnd) rfl rfl fun b => ?_
  cases hb : Marker.ofByte b with
  | none => exact .inl ⟨_, fun r => sequence_of_reserved hb r⟩
  | some marker =>
      simp only [sequence_of_marker hb]
      by_cases hfamily : marker.family ≠ .array
      · simp only [if_pos hfamily]
        exact .inl ⟨_, fun _ => rfl⟩
      · simp only [if_neg hfamily]
        refine .inr ⟨_, (length marker.operand).bind fun found => ?_, fun _ => rfl⟩
        split
        · exact .throw _
        · exact .pure ()

end Delimited

end Reader

/-! ### Dynamic values -/

namespace MessagePack.Value

open Reader (Delimited)

theorem delimited_marker : Delimited marker where
  extend h x := by
    obtain ⟨b, rfl, hb⟩ := marker_eq_ok.1 h
    exact marker_eq_ok.2 ⟨b, rfl, hb⟩
  cut {s x _ _} h := by
    obtain ⟨b, hs, hb⟩ := marker_eq_ok.1 h
    cases s with
    | nil => exact .inr ⟨_, [], rfl, rfl⟩
    | cons c s =>
        obtain ⟨rfl, rfl⟩ := List.cons.inj hs
        exact .inl ⟨s, marker_eq_ok.2 ⟨c, rfl, hb⟩, rfl⟩

theorem delimited_number (operand : Operand) : Delimited (number operand) := .numberOr rfl operand

theorem delimited_extensionType : Delimited extensionType := (delimited_number (.signed 1)).map _

theorem delimited_afford (left units : Nat) : Delimited (afford left units) := by
  unfold afford
  split
  · exact .throw _
  · exact .pure ()

theorem delimited_body (n : Nat) : Delimited (body n) := .takeOr (fun _ => rfl) n

theorem delimited_readWithin (budget : Nat) : Delimited (readWithin budget) := by
  -- Strong induction, since a container takes two units before its elements are read.
  induction budget using Nat.strongRecOn with
  | ind budget ih =>
  cases budget with
  | zero => exact .throw _
  | succ left =>
      rw [readWithin]
      refine delimited_marker.bind fun m => (delimited_number m.operand).bind fun n => ?_
      cases m.family with
      | nil | boolean | integer | float => exact .pure _
      | string =>
          exact (delimited_afford left 2).bind fun _ => (delimited_body n.toNat).bind fun _ =>
            .pure _
      | binary =>
          exact (delimited_afford left 1).bind fun _ => (delimited_body n.toNat).bind fun _ =>
            .pure _
      | extension =>
          exact (delimited_afford left 1).bind fun _ => delimited_extensionType.bind fun _ =>
            (delimited_afford left 2).bind fun _ => (delimited_body n.toNat).bind fun _ => .pure _
      | array =>
          cases left with
          | zero => exact .throw _
          | succ left =>
              exact ((ih left (by omega)).times n.toNat).bind fun _ => .pure _
      | map =>
          cases left with
          | zero => exact .throw _
          | succ left =>
              have hentry := (ih left (by omega)).bind fun key =>
                (ih left (by omega)).bind fun value => .pure (key, value)
              exact (hentry.times n.toNat).bind fun _ => .pure _

theorem delimited_read : Delimited read :=
  Delimited.peek.bind fun _ => delimited_readWithin depthBudget

end MessagePack.Value

/-! ### Layouts -/

namespace Layout

/-- Reading within a layout is delimited, in every slot and for every owner. -/
def Delimited : {g : Grade} → {α : Type} → Layout g α → Prop
  | .value, _, l => ∀ slot, Reader.Delimited (l.read slot)
  | .row, _, l => ∀ owner, Reader.Delimited (l.read owner)

theorem delimited {g : Grade} {α : Type} (l : Layout g α) : l.Delimited := by
  induction l with
  | boolean => exact Reader.Delimited.boolean
  | long => exact Reader.Delimited.long
  | int => exact Reader.Delimited.int
  | text => exact Reader.Delimited.text
  | binary => exact Reader.Delimited.binary
  | dynamic => exact fun _ => Value.delimited_read.map some
  | list item ih =>
      refine fun slot => (Reader.Delimited.arrayLength slot).bind fun o => ?_
      cases o with
      | none => exact .pure none
      | some n => exact ((ih slot).required.times n).map some
  | dict key item ihkey ihitem =>
      refine fun slot => (Reader.Delimited.mapLength slot).bind fun o => ?_
      cases o with
      | none => exact .pure none
      | some n =>
          have hentry := (ihkey slot).required.bind fun k =>
            (ihitem slot).required.bind fun v => .pure (k, v)
          exact (hentry.times n).bind fun _ => .pure _
  | coded base code meaning hcode hmeaning ih =>
      refine fun slot => (ih slot).bind fun o => ?_
      cases o with
      | none => exact .pure none
      | some a => exact (Reader.Delimited.ofExcept (meaning a)).map some
  | mapOr left right ihleft ihright =>
      refine fun slot => Reader.Delimited.peek.bind fun marker => ?_
      split
      · exact (ihleft slot).map _
      · exact (ihright slot).map _
  | record name row toRow ofRow check hofRow htoRow ih =>
      refine fun slot => Reader.Delimited.typed fun operand =>
        (Reader.Delimited.length operand).bind fun found => ?_
      have hfields := (ih name).bind fun r => (Reader.Delimited.ofExcept (ofRow r)).bind fun a =>
        (Reader.Delimited.ofExcept (check a)).bind fun _ => .pure a
      dsimp only
      split
      · exact (Reader.Delimited.throw _).bind fun _ => hfields
      · exact hfields
  | done => exact fun _ => .pure ()
  | required name value rest ihvalue ihrest =>
      exact fun owner => (ihvalue ⟨name, owner⟩).required.bind fun a =>
        (ihrest owner).bind fun r => .pure (a, r)
  | optional name value rest ihvalue ihrest =>
      exact fun owner => (ihvalue ⟨name, owner⟩).bind fun o =>
        (ihrest owner).bind fun r => .pure (o, r)

end Layout

end DataGateway

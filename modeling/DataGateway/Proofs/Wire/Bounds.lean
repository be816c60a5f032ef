import DataGateway.Proofs.Wire.Failing
import Mathlib.Algebra.Order.BigOperators.Group.List
import Mathlib.Algebra.Order.Group.Nat

/-!
# Numbers that are announced and bytes that are there

A length of up to four bytes may announce more elements than any input holds, so what a reader does
has to be bounded by the bytes and not by the number. Everything that is read takes at least one
byte: a loop that is told to read more elements than there are bytes fails, and it fails before it
has read more than there are bytes (`Consumes.exists_failsAfter`). `tally` counts what reading
leaves behind, at every depth. Each thing that it counts is a value of its own in the bytes, so the
bytes are at least as many (`tally_le`).
-/

namespace DataGateway

open MessagePack (Value Head Spells)

namespace Reader

variable {α β : Type} {read : Reader α}

/-! ### Loops that fail -/

/-- A reader that is run again and again from `s` on succeeds so many times and then fails. -/
def FailsAfter (read : Reader α) (k : Nat) (s : Bytes) (e : ProtocolError) (u : Bytes) : Prop :=
  ∃ as t, times k read s = .ok as t ∧ read t = .error e u

theorem failsAfter_succ {k : Nat} {s t u : Bytes} {a : α} {e : ProtocolError}
    (h : read s = .ok a t) (hfails : FailsAfter read k t e u) : FailsAfter read (k + 1) s e u := by
  obtain ⟨as, v, has, hv⟩ := hfails
  refine ⟨a :: as, v, ?_, hv⟩
  simp only [times_succ, bind_eq_ok, pure_eq_ok]
  exact ⟨a, t, h, as, v, has, rfl, rfl⟩

/-- A loop reads as often as it is told to, or its outcome is the first failure. -/
theorem times_cases (read : Reader α) (n : Nat) (s : Bytes) :
    (∃ as t, times n read s = .ok as t)
      ∨ ∃ k < n, ∃ e u, FailsAfter read k s e u ∧ times n read s = .error e u := by
  induction n generalizing s with
  | zero => exact .inl ⟨[], s, rfl⟩
  | succ n ih =>
      rw [times_succ]
      cases ha : read s with
      | error e u =>
          exact .inr ⟨0, Nat.succ_pos n, e, u, ⟨[], s, rfl, ha⟩, bind_of_error ha _⟩
      | ok a r =>
          rw [bind_of_ok ha]
          rcases ih r with ⟨as, t, has⟩ | ⟨k, hk, e, u, hfails, htimes⟩
          · exact .inl ⟨a :: as, t, bind_of_ok has _⟩
          · exact .inr ⟨k + 1, Nat.succ_lt_succ hk, e, u, failsAfter_succ ha hfails,
              bind_of_error htimes _⟩

/-- Reading takes at least so many bytes. -/
def Consumes (w : Nat) (read : Reader α) : Prop :=
  ∀ s a t, read s = .ok a t → w + t.length ≤ s.length

namespace Consumes

theorem bind {v w : Nat} (h : Consumes v read) {next : α → Reader β}
    (hnext : ∀ a, Consumes w (next a)) : Consumes (v + w) (read >>= next) := by
  intro s b t hread
  obtain ⟨a, r, ha, hb⟩ := bind_eq_ok.1 hread
  have hfirst := h s a r ha
  have hsecond := hnext a r b t hb
  omega

theorem pure (a : α) : Consumes 0 (Pure.pure a : Reader α) := by
  intro s b t h
  obtain ⟨_, rfl⟩ := pure_eq_ok.1 h
  exact Nat.le_of_eq (Nat.zero_add _)

theorem times {w : Nat} (h : Consumes w read) (n : Nat) : Consumes (n * w) (times n read) := by
  induction n with
  | zero =>
      rw [Nat.zero_mul]
      exact .pure []
  | succ n ih =>
      rw [times_succ, Nat.succ_mul, Nat.add_comm]
      exact h.bind fun a => ih.bind fun as => .pure (a :: as)

/-- Told to read more than the bytes can hold, a loop fails, and by then it has read no more than
they can hold. -/
theorem exists_failsAfter {w n : Nat} {s : Bytes} (h : Consumes w read)
    (hshort : s.length < n * w) : ∃ k e u, k * w ≤ s.length ∧ FailsAfter read k s e u
      ∧ Reader.times n read s = .error e u := by
  rcases times_cases read n s with ⟨as, t, has⟩ | ⟨k, _, e, u, hfails, htimes⟩
  · have htaken := h.times n s as t has
    omega
  · have ⟨as, t, has, _⟩ := hfails
    have htaken := h.times k s as t has
    exact ⟨k, e, u, by omega, hfails, htimes⟩

end Consumes

end Reader

/-! ### Elements and entries that are read -/

namespace Layout

variable {κ α : Type}

theorem consumes_required (item : Layout .value α) (slot : Slot) :
    Reader.Consumes 1 (Reader.required item.read slot) := by
  intro s a t h
  obtain ⟨front, v, rfl, hspells, _⟩ := (sound item).required h
  obtain _ | ⟨opening, _, _⟩ := hspells
  have hpos := opening.length_pos
  simp only [List.length_append]
  omega

/-- Reads an entry of a map. -/
def readEntry (key : Layout .value κ) (item : Layout .value α) (slot : Slot) : Reader (κ × α) := do
  let k ← Reader.required key.read slot
  let v ← Reader.required item.read slot
  return (k, v)

theorem consumes_readEntry (key : Layout .value κ) (item : Layout .value α) (slot : Slot) :
    Reader.Consumes 2 (key.readEntry item slot) :=
  (key.consumes_required slot).bind fun k => (item.consumes_required slot).bind fun v =>
    .pure (k, v)

/-- After its head a list is its elements. -/
theorem read_list {item : Layout .value α} {slot : Slot} {n : Nat} {head : Bytes}
    (hhead : Head .array n head) (rest : Bytes) : (list item).read slot (head ++ rest)
      = (some <$> Reader.times n (Reader.required item.read slot)) rest :=
  Reader.bind_of_ok ((Reader.arrayLength_takes slot _ _ _).2 (.inr ⟨n, head, rfl, hhead, rfl⟩)) _

/-- After its head a map is its entries. -/
theorem read_dict [Ord κ] [Std.TransOrd κ] {key : Layout .value κ} {item : Layout .value α}
    {slot : Slot} {n : Nat} {head : Bytes} (hhead : Head .map n head) (rest : Bytes) :
    (dict key item).read slot (head ++ rest)
      = (Reader.times n (key.readEntry item slot) >>= fun pairs =>
          pure (some (Dict.ofList pairs))) rest :=
  Reader.bind_of_ok ((Reader.mapLength_takes slot _ _ _).2 (.inr ⟨n, head, rfl, hhead, rfl⟩)) _

/-- A list that announces more elements than there are bytes is refused. -/
theorem list_fails (item : Layout .value α) (slot : Slot) {n : Nat} {head rest : Bytes}
    (hhead : Head .array n head) (hshort : rest.length < n) : ∃ k e u, k ≤ rest.length
      ∧ Reader.FailsAfter (Reader.required item.read slot) k rest e u
      ∧ (list item).read slot (head ++ rest) = .error e u := by
  obtain ⟨k, e, u, hk, hfails, htimes⟩ :=
    (item.consumes_required slot).exists_failsAfter (n := n) (s := rest) (by omega)
  refine ⟨k, e, u, by omega, hfails, ?_⟩
  rw [read_list hhead]
  exact Reader.map_of_error htimes _

/-- A map that announces more entries than there is room for keys and values is refused. -/
theorem dict_fails [Ord κ] [Std.TransOrd κ] (key : Layout .value κ) (item : Layout .value α)
    (slot : Slot) {n : Nat} {head rest : Bytes} (hhead : Head .map n head)
    (hshort : rest.length < 2 * n) : ∃ k e u, 2 * k ≤ rest.length
      ∧ Reader.FailsAfter (key.readEntry item slot) k rest e u
      ∧ (dict key item).read slot (head ++ rest) = .error e u := by
  obtain ⟨k, e, u, hk, hfails, htimes⟩ :=
    (key.consumes_readEntry item slot).exists_failsAfter (n := n) (s := rest) (by omega)
  refine ⟨k, e, u, by omega, hfails, ?_⟩
  rw [read_dict hhead]
  exact Reader.bind_of_error htimes _

end Layout

/-! ### What has been read -/

/-- What is counted of the entries that stand is no more than what is counted of all pairs. -/
theorem Dict.sum_le_of_latest {κ α : Type} [Ord κ] [Std.TransOrd κ] {d : Dict κ α}
    {pairs : List (κ × α)} (f : κ × α → Nat) (h : ∀ e ∈ d.entries, Latest pairs e) :
    (d.entries.map f).sum ≤ (pairs.map f).sum := by
  obtain ⟨es, hperm, hsub⟩ := List.subperm_of_subset d.nodup_entries fun e he => (h e he).mem
  rw [← (hperm.map f).sum_eq]
  exact (hsub.map f).sum_le_sum fun _ _ => Nat.zero_le _

namespace MessagePack

namespace Value

/-- How many elements or entries a value has. -/
def width : Value → Nat
  | .array items => items.length
  | .map entries => entries.length
  | _ => 0

/-- How many elements and entries there are in a value, at every depth. -/
def tally (v : Value) : Nat := (v.parts.map width).sum

theorem width_le_children (v : Value) : v.width ≤ v.children.length := by
  cases v with
  | map entries =>
      rw [width, children, length_flat]
      omega
  | _ => simp [width, children]

theorem tallyItems_le (vs : List Value) :
    ((partsItems vs).map width).sum + vs.length ≤ (partsItems vs).length := by
  induction vs using forest_induction with
  | nil => simp [partsItems]
  | cons v vs inside rest =>
      have hwidth := v.width_le_children
      simp only [partsItems, parts_eq, List.map_cons, List.map_append, List.sum_cons,
        List.sum_append, List.length_cons, List.length_append, List.cons_append]
      omega

theorem length_le_parts (vs : List Value) : vs.length ≤ (partsItems vs).length :=
  Nat.le_trans (Nat.le_add_left ..) (tallyItems_le vs)

/-- What is counted of each of several things is bounded by the values that stand for it. -/
theorem sum_le_parts {α γ : Type} (spelled : γ → List Value) (f : α → Nat) {cs : List γ}
    {as : List α} (h : List.Forall₂ (fun c a => f a ≤ (partsItems (spelled c)).length) cs as) :
    (as.map f).sum ≤ (partsItems (cs.flatMap spelled)).length := by
  induction h with
  | nil => simp
  | cons hle _ ih =>
      rw [List.map_cons, List.sum_cons, List.flatMap_cons, partsItems_append, List.length_append]
      omega

end Value

/-- Each value takes a byte of its own. -/
theorem Spells.length_parts_le {reserved : Prop} {vs : List Value} {bytes : Bytes}
    (h : Spells reserved vs bytes) : (Value.partsItems vs).length ≤ bytes.length := by
  induction h with
  | nil => exact Nat.le_refl _
  | cons opening _ _ inside rest =>
      have hpos := opening.length_pos
      simp only [Value.partsItems, Value.parts_eq, List.cons_append, List.length_cons,
        List.length_append]
      omega

end MessagePack

namespace Layout

/-- How many list elements, map entries and fields of records there are in what a layout describes,
at every depth. A field that is left out counts; those of a row are counted by its record. -/
def tally : {g : Grade} → {α : Type} → Layout g α → α → Nat
  | _, _, dynamic => Value.tally
  | _, _, list item => fun as => (as.map fun a => item.tally a + 1).sum
  | _, _, dict key item => fun d =>
    (d.entries.map fun e => key.tally e.1 + item.tally e.2 + 1).sum
  | _, _, coded base code _ _ _ => fun b => base.tally (code b)
  | _, _, mapOr left right => Sum.elim left.tally right.tally
  | _, _, record _ row toRow _ _ _ _ => fun a => row.tally (toRow a) + row.count
  | _, _, required _ value rest => fun (a, r) => value.tally a + rest.tally r
  | _, _, optional _ value rest => fun (o, r) => o.elim 0 value.tally + rest.tally r
  | _, _, boolean | _, _, long | _, _, int | _, _, text | _, _, binary | _, _, done => fun _ => 0

/-- What is counted of one value and of those after it is counted apart. -/
private theorem tally_cons_le {v : Value} {vs : List Value} {m n : Nat}
    (hv : m + [v].length ≤ (Value.partsItems [v]).length)
    (hvs : n + vs.length ≤ (Value.partsItems vs).length) :
    m + n + (v :: vs).length ≤ (Value.partsItems (v :: vs)).length := by
  simp only [Value.partsItems, List.append_nil, List.length_append, List.length_cons,
    List.length_nil] at hv ⊢
  omega

/-- Everything that is counted is a value of its own. -/
theorem tally_le {g : Grade} {α : Type} (l : Layout g α) : ∀ t a, l.Matches t a →
    l.tally a + (g.forest t).length ≤ (Value.partsItems (g.forest t)).length := by
  induction l with
  | boolean | long | int | text | binary | done =>
      intro t a _
      rw [tally, Nat.zero_add]
      exact Value.length_le_parts _
  | dynamic =>
      rintro v _ rfl
      simpa [tally, Value.tally, Value.partsItems] using Value.tallyItems_le [v]
  | list item ih =>
      rintro _ as ⟨items, rfl, hall⟩
      have hsum := Value.sum_le_parts ([·]) (fun a => item.tally a + 1)
        (hall.imp fun v a hmatch => ih v a hmatch)
      rw [List.flatMap_singleton'] at hsum
      simp only [tally, Value.partsItems, Value.parts, List.append_nil, List.length_cons,
        List.length_nil]
      omega
  | dict key item ihkey ihitem =>
      rintro _ d ⟨entries, pairs, rfl, hall, hlatest⟩
      have hsum := Value.sum_le_parts (fun e : Value × Value => [e.1, e.2])
        (fun p : _ × _ => key.tally p.1 + item.tally p.2 + 1)
        (hall.imp fun e p hmatch => Nat.le_of_succ_le
          (tally_cons_le (ihkey e.1 p.1 hmatch.1) (ihitem e.2 p.2 hmatch.2)))
      have hlast := Dict.sum_le_of_latest (fun e => key.tally e.1 + item.tally e.2 + 1)
        fun e he => (hlatest e).1 he
      simp only [tally, Value.partsItems, Value.parts, Value.partsEntries_eq, Value.flat,
        List.append_nil, List.length_cons, List.length_nil]
      omega
  | coded base code meaning hcode hmeaning ih =>
      rintro v b ⟨a, hbase, hb⟩
      change base.tally (code b) + _ ≤ _
      rw [hmeaning a b hb]
      exact ih v a hbase
  | mapOr left right ihleft ihright =>
      rintro v (a | b) ⟨_, hmatch⟩
      · exact ihleft v a hmatch
      · exact ihright v b hmatch
  | record name row toRow ofRow check hofRow htoRow ih =>
      rintro _ a ⟨items, r, rfl, hcount, hmatch, hr, _⟩
      have hrow := ih items r hmatch
      simp only [tally, htoRow r a hr, Grade.forest, Value.partsItems, Value.parts, List.append_nil,
        List.length_cons, List.length_nil] at hrow ⊢
      omega
  | required name value rest ihvalue ihrest =>
      rintro _ ⟨a, r⟩ ⟨v, vs, rfl, hmatch, hrest⟩
      exact tally_cons_le (ihvalue v a hmatch) (ihrest vs r hrest)
  | optional name value rest ihvalue ihrest =>
      rintro _ ⟨o, r⟩ ⟨v, vs, rfl, hmatch, hrest⟩
      cases o with
      | none =>
          have hv : 0 + [v].length ≤ (Value.partsItems [v]).length := by
            rw [Nat.zero_add]
            exact Value.length_le_parts [v]
          exact tally_cons_le hv (ihrest vs r hrest)
      | some a => exact tally_cons_le (ihvalue v a hmatch) (ihrest vs r hrest)

end Layout

end DataGateway

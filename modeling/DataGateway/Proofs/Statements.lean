import DataGateway.Proofs.Validity
import Mathlib.Data.List.TakeWhile

/-!
# Joined statements

An event of a list of statements has the statements of each member, in order: joining puts one
separator between two members, so a text that is cut at its separators is cut between members too,
and what trimming takes off the ends of a member would be trimmed off its first and last statement
anyway. A statement of an event has no separator and no blank at its ends, so as a member of a list
it is its own only statement.
-/

namespace DataGateway

namespace Text

variable {sep : Char} {a b p : List Char}

/-! ### Trimming -/

theorem trim_append_left (h : allBlank a) (cs : List Char) : trim (a ++ cs) = trim cs := by
  rw [trim, List.dropWhile_append_of_pos (List.all_eq_true.1 h), trim]

theorem trim_append_right (h : allBlank b) (cs : List Char) : trim (cs ++ b) = trim cs := by
  have hb : ∀ c ∈ b, isBlank c := List.all_eq_true.1 h
  rw [trim, trim, List.dropWhile_append]
  split
  · rename_i hcs
    rw [List.isEmpty_iff.1 hcs, List.dropWhile_eq_nil_iff.2 hb]
  · rw [List.reverse_append, List.dropWhile_append_of_pos]
    exact fun c hc => hb c (List.mem_reverse.1 hc)

/-- Trimming takes blanks off both ends and nothing else. -/
theorem exists_trim (cs : List Char) :
    ∃ a b, allBlank a ∧ allBlank b ∧ cs = a ++ (trim cs ++ b) := by
  refine ⟨cs.takeWhile isBlank, ((cs.dropWhile isBlank).reverse.takeWhile isBlank).reverse,
    List.all_takeWhile, ?_, ?_⟩
  · rw [allBlank, List.all_reverse]
    exact List.all_takeWhile
  · rw [trim, ← List.reverse_append, List.takeWhile_append_dropWhile, List.reverse_reverse,
      List.takeWhile_append_dropWhile]

theorem trim_trim (cs : List Char) : trim (trim cs) = trim cs := by
  obtain ⟨a, b, ha, hb, hcs⟩ := exists_trim cs
  conv_rhs => rw [hcs, trim_append_left ha, trim_append_right hb]

theorem mem_of_mem_trim {c : Char} {cs : List Char} (h : c ∈ trim cs) : c ∈ cs := by
  obtain ⟨a, b, _, _, hcs⟩ := exists_trim cs
  rw [hcs]
  exact List.mem_append_right _ (List.mem_append_left _ h)

/-! ### Cutting -/

theorem pieces_eq_cons (sep : Char) (cs : List Char) : ∃ p ps, pieces sep cs = p :: ps := by
  cases cs with
  | nil => exact ⟨_, _, rfl⟩
  | cons c cs =>
      unfold pieces
      split
      · exact ⟨_, _, rfl⟩
      · split <;> exact ⟨_, _, rfl⟩

theorem pieces_cons_of_ne {c : Char} {cs : List Char} {ps : List (List Char)} (hc : c ≠ sep)
    (h : pieces sep cs = p :: ps) : pieces sep (c :: cs) = (c :: p) :: ps := by
  rw [pieces, if_neg hc, h]

theorem not_mem_of_mem_pieces {cs : List Char} (h : p ∈ pieces sep cs) : sep ∉ p := by
  induction cs generalizing p with
  | nil =>
      rw [List.mem_singleton.1 h]
      exact List.not_mem_nil
  | cons c cs ih =>
      by_cases hc : c = sep
      · rw [pieces, if_pos hc, List.mem_cons] at h
        rcases h with rfl | h
        · exact List.not_mem_nil
        · exact ih h
      · obtain ⟨q, qs, hcs⟩ := pieces_eq_cons sep cs
        rw [pieces_cons_of_ne hc hcs, List.mem_cons] at h
        rcases h with rfl | h
        · exact List.not_mem_cons_of_ne_of_not_mem (Ne.symm hc) (ih (hcs ▸ List.mem_cons_self))
        · exact ih (hcs ▸ List.mem_cons_of_mem _ h)

/-- At a separator a text is cut, and each side is cut by itself. -/
theorem pieces_append_sep (sep : Char) (a b : List Char) :
    pieces sep (a ++ sep :: b) = pieces sep a ++ pieces sep b := by
  induction a with
  | nil =>
      show pieces sep (sep :: b) = [] :: pieces sep b
      rw [pieces, if_pos rfl]
  | cons c a ih =>
      rw [List.cons_append]
      by_cases hc : c = sep
      · rw [pieces, if_pos hc, ih, pieces, if_pos hc, List.cons_append]
      · obtain ⟨p, ps, ha⟩ := pieces_eq_cons sep a
        rw [ha, List.cons_append] at ih
        rw [pieces_cons_of_ne hc ih, pieces_cons_of_ne hc ha, List.cons_append]

/-- What stands in front of a text without a separator belongs to its first piece. -/
theorem pieces_append_left (ha : sep ∉ a) (cs : List Char) :
    ∃ p ps, pieces sep cs = p :: ps ∧ pieces sep (a ++ cs) = (a ++ p) :: ps := by
  induction a with
  | nil =>
      obtain ⟨p, ps, hcs⟩ := pieces_eq_cons sep cs
      exact ⟨p, ps, hcs, hcs⟩
  | cons c a ih =>
      obtain ⟨p, ps, hcs, happend⟩ := ih (List.not_mem_of_not_mem_cons ha)
      exact ⟨p, ps, hcs, pieces_cons_of_ne (Ne.symm (List.ne_of_not_mem_cons ha)) happend⟩

theorem pieces_of_not_mem {cs : List Char} (h : sep ∉ cs) : pieces sep cs = [cs] := by
  obtain ⟨p, ps, hnil, hcs⟩ := pieces_append_left h []
  obtain ⟨rfl, rfl⟩ := List.cons.inj hnil
  rwa [List.append_nil] at hcs

/-- What stands behind a text without a separator belongs to its last piece. -/
theorem pieces_append_right (hb : sep ∉ b) (cs : List Char) :
    ∃ ps p, pieces sep cs = ps ++ [p] ∧ pieces sep (cs ++ b) = ps ++ [p ++ b] := by
  induction cs with
  | nil => exact ⟨[], [], rfl, pieces_of_not_mem hb⟩
  | cons c cs ih =>
      obtain ⟨ps, p, hcs, happend⟩ := ih
      by_cases hc : c = sep
      · refine ⟨[] :: ps, p, ?_, ?_⟩
        · rw [pieces, if_pos hc, hcs, List.cons_append]
        · rw [List.cons_append, pieces, if_pos hc, happend, List.cons_append]
      · cases ps with
        | nil => exact ⟨[], c :: p, pieces_cons_of_ne hc hcs, pieces_cons_of_ne hc happend⟩
        | cons q qs =>
            exact ⟨(c :: q) :: qs, p, pieces_cons_of_ne hc hcs, pieces_cons_of_ne hc happend⟩

end Text

namespace Event

open Text (allBlank isBlank pieces trim)

variable {a b cs s : List Char}

theorem separator_not_mem_of_allBlank (h : allBlank a) : separator ∉ a := fun hmem =>
  absurd (List.all_eq_true.1 h separator hmem) (by decide)

/-! ### Statements of a text -/

theorem statementsOf_of_not_mem (h : separator ∉ cs) :
    statementsOf cs = [trim cs].filter (· ≠ []) := by
  rw [statementsOf, Text.pieces_of_not_mem h, List.map_singleton]

theorem statementsOf_append_separator (a b : List Char) :
    statementsOf (a ++ separator :: b) = statementsOf a ++ statementsOf b := by
  rw [statementsOf, Text.pieces_append_sep, List.map_append, List.filter_append]
  rfl

theorem statementsOf_append_left (h : allBlank a) (cs : List Char) :
    statementsOf (a ++ cs) = statementsOf cs := by
  obtain ⟨p, ps, hcs, happend⟩ := Text.pieces_append_left (separator_not_mem_of_allBlank h) cs
  rw [statementsOf, statementsOf, happend, hcs, List.map_cons, List.map_cons,
    Text.trim_append_left h]

theorem statementsOf_append_right (h : allBlank b) (cs : List Char) :
    statementsOf (cs ++ b) = statementsOf cs := by
  obtain ⟨ps, p, hcs, happend⟩ := Text.pieces_append_right (separator_not_mem_of_allBlank h) cs
  rw [statementsOf, statementsOf, happend, hcs, List.map_append, List.map_append,
    List.map_singleton, List.map_singleton, Text.trim_append_right h]

/-- Trimming a text costs it no statement. -/
theorem statementsOf_trim (cs : List Char) : statementsOf (trim cs) = statementsOf cs := by
  obtain ⟨a, b, ha, hb, hcs⟩ := Text.exists_trim cs
  conv_rhs => rw [hcs, statementsOf_append_left ha, statementsOf_append_right hb]

theorem statementsOf_intercalate (texts : List (List Char)) :
    statementsOf ([separator].intercalate texts) = texts.flatMap statementsOf := by
  induction texts with
  | nil => rfl
  | cons t texts ih =>
      cases texts with
      | nil => simp [List.intercalate]
      | cons u texts =>
          rw [List.intercalate_cons_cons, List.append_assoc, List.singleton_append,
            statementsOf_append_separator, ih,
            List.flatMap_cons (x := t)]

/-- A statement of a text is its own only statement. -/
theorem statementsOf_of_mem (h : s ∈ statementsOf cs) : statementsOf s = [s] := by
  obtain ⟨hmap, hs⟩ := List.mem_filter.1 h
  obtain ⟨p, hp, rfl⟩ := List.mem_map.1 hmap
  have hsep : separator ∉ trim p := fun hmem =>
    Text.not_mem_of_mem_pieces hp (Text.mem_of_mem_trim hmem)
  rw [statementsOf_of_not_mem hsep, Text.trim_trim]
  exact List.filter_eq_self.2 (List.forall_mem_singleton.2 hs)

/-! ### Statements of an event -/

theorem statements_ofStatements (xs : List String) : (ofStatements xs).statements
    = xs.flatMap fun x => ({ operations := x } : Event).statements := by
  have htrim : (fun x : String => statementsOf (trim x.toList)) = fun x => statementsOf x.toList :=
    funext fun x => statementsOf_trim x.toList
  rw [statements, ofStatements, String.toList_ofList, statementsOf_intercalate, List.flatMap_map,
    htrim, List.map_flatMap]
  rfl

/-- A text without a separator is one statement, or none if it is blank. -/
theorem statements_of_not_mem {x : String} (h : separator ∉ x.toList) :
    ({ operations := x } : Event).statements
      = [String.ofList (trim x.toList)].filter (· ≠ "") := by
  rw [statements, statementsOf_of_not_mem h]
  by_cases hnil : trim x.toList = [] <;> simp [hnil]

theorem statements_of_mem {e : Event} {x : String} (h : x ∈ e.statements) :
    ({ operations := x } : Event).statements = [x] := by
  obtain ⟨s, hs, rfl⟩ := List.mem_map.1 h
  rw [statements, String.toList_ofList, statementsOf_of_mem hs, List.map_singleton]

/-- The statements of a list that is joined are those of its members, in order; these are the
members themselves without the blanks at their ends, apart from blank ones, if none has a separator.
Joining the statements of an event gives them back, and what is joined is a valid event exactly if a
member has a statement. -/
theorem ofStatements_joins (xs : List String) :
    (ofStatements xs).statements = xs.flatMap (fun x => ({ operations := x } : Event).statements)
    ∧ ((∀ x ∈ xs, separator ∉ x.toList) → (ofStatements xs).statements
      = (xs.map fun x => String.ofList (trim x.toList)).filter (· ≠ ""))
    ∧ (∀ e : Event, (ofStatements e.statements).statements = e.statements)
    ∧ ((ofStatements xs).check = .ok ()
      ↔ ∃ x ∈ xs, ({ operations := x } : Event).statements ≠ []) := by
  refine ⟨statements_ofStatements xs, fun hxs => ?_, fun e => ?_, ?_⟩
  · rw [statements_ofStatements, List.map_eq_flatMap, List.filter_flatMap]
    exact List.flatMap_congr fun x hx => statements_of_not_mem (hxs x hx)
  · rw [statements_ofStatements, List.flatMap_congr fun x hx => statements_of_mem hx]
    exact List.flatMap_singleton' e.statements
  · rw [check_eq_ok_iff, statements_ofStatements, Ne, List.flatMap_eq_nil_iff]
    simp only [not_forall, exists_prop, ne_eq]

/-- Blanks of one and of three bytes, an empty text and a blank one. -/
theorem ofStatements_joins_spaced :
    (∀ x ∈ [" a", "", "\u3000", "b\u2003"], separator ∉ x.toList)
      ∧ (ofStatements [" a", "", "\u3000", "b\u2003"]).statements = ["a", "b"]
      ∧ (ofStatements [" a", "", "\u3000", "b\u2003"]).check = .ok () := by
  have hxs : ∀ x ∈ [" a", "", "\u3000", "b\u2003"], separator ∉ x.toList := by decide
  obtain ⟨_, htrimmed, _, hcheck⟩ := ofStatements_joins [" a", "", "\u3000", "b\u2003"]
  refine ⟨hxs, (htrimmed hxs).trans (by decide), hcheck.2 ⟨" a", List.mem_cons_self, by decide⟩⟩

end Event

end DataGateway

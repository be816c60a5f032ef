/-!
# Blanks

A blank is a character with the Unicode property `White_Space`; there are twenty-five of them.
Trimming removes blanks from both ends of a text, and `pieces` cuts a text at every occurrence of
one character, so a text with `n` separators has `n + 1` pieces, empty ones included.
-/

namespace DataGateway.Text

/-- Whether a character has the Unicode property `White_Space`. -/
def isBlank (c : Char) : Bool :=
  let n := c.val
  (0x09 ≤ n && n ≤ 0x0d) || n == 0x20 || n == 0x85 || n == 0xa0 || n == 0x1680
    || (0x2000 ≤ n && n ≤ 0x200a) || n == 0x2028 || n == 0x2029 || n == 0x202f
    || n == 0x205f || n == 0x3000

/-- A text without the blanks at its two ends. -/
def trim (cs : List Char) : List Char :=
  ((cs.dropWhile isBlank).reverse.dropWhile isBlank).reverse

/-- Whether a text has nothing but blanks. -/
def allBlank (cs : List Char) : Bool := cs.all isBlank

/-- The stretches of a text between the occurrences of `sep`. -/
def pieces (sep : Char) : List Char → List (List Char)
  | [] => [[]]
  | c :: cs =>
    if c = sep then [] :: pieces sep cs
    else match pieces sep cs with
      | [] => [[c]]
      | p :: ps => (c :: p) :: ps

theorem trim_eq_nil_iff (cs : List Char) : trim cs = [] ↔ allBlank cs = true := by
  constructor
  · intro h
    have drop : ∀ l : List Char, l.dropWhile isBlank = [] ↔ l.all isBlank = true := by
      intro l
      induction l with
      | nil => simp
      | cons c l ih => by_cases hc : isBlank c <;> simp [hc, ih]
    have h' : (cs.dropWhile isBlank).reverse.all isBlank = true :=
      (drop _).1 (by simpa [trim] using h)
    have split := List.takeWhile_append_dropWhile (p := isBlank) (l := cs)
    rw [allBlank, ← split, List.all_append, Bool.and_eq_true]
    exact ⟨List.all_takeWhile, by simpa using h'⟩
  · intro h
    have all : ∀ l : List Char, l.all isBlank = true → l.dropWhile isBlank = [] := by
      intro l hl
      induction l with
      | nil => rfl
      | cons c l ih =>
          rw [List.all_cons, Bool.and_eq_true] at hl
          simp [hl.1, ih hl.2]
    simp [trim, all cs h]

end DataGateway.Text

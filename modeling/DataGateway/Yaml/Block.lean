import DataGateway.Yaml.Scalar

/-!
# Literal and folded blocks

A block is a scalar of whole lines, indented by one width, which the block announces or its first
line shows. The breaks of a literal block stand as they are; a folded block reads a break between
two lines that begin with no blank as a space.
-/

namespace DataGateway.Yaml

/-- A line and the break that ends it. -/
structure Line where
  spots : List Spot
  ending : List Spot

namespace Line

/-- The lines of a text. -/
def ofSpots : List Spot → List Line
  | [] => []
  | s :: rest =>
    if isBreak s.char then ⟨[], [s]⟩ :: ofSpots rest
    else match ofSpots rest with
      | [] => [⟨[s], []⟩]
      | l :: ls => { l with spots := s :: l.spots } :: ls

theorem flatMap_ofSpots (spots : List Spot) :
    (ofSpots spots).flatMap (fun l => l.spots ++ l.ending) = spots := by
  induction spots with
  | nil => rfl
  | cons s rest ih =>
    rw [ofSpots]
    split
    · simp [ih]
    · split <;> simp_all

/-- How many spaces a line begins with. -/
def width (l : Line) : Nat := (l.spots.takeWhile fun s => s.char = ' ').length

/-- Whether a line holds nothing but spaces. -/
def isEmpty (l : Line) : Bool := l.spots.all fun s => s.char = ' '

/-- Whether a tab comes after the spaces of a line. -/
def hasTab (l : Line) : Bool := (l.spots.drop l.width).head?.any fun s => s.char = '\t'

/-- A line without its indentation; a line of fewer spaces is empty. -/
def dedent (width : Nat) (l : Line) : Line := { l with spots := l.spots.drop width }

end Line

/-- How many breaks at the end of a block belong to it: none, the last line's own, or all. -/
inductive Chomp
  | strip | clip | keep

/-- The text of a block, from its lines without their indentation: `lead` is the break after the
line before and `gap` the breaks of the empty lines since. -/
def blockFrom (literal : Bool) (chomp : Chomp) (leadBlank : Bool) (lead gap : List Char) :
    List Line → List Char
  | [] =>
    match chomp with
    | .strip => []
    | .clip => lead
    | .keep => lead ++ gap
  | l :: ls =>
    if l.spots.isEmpty then blockFrom literal chomp leadBlank lead (gap ++ chars l.ending) ls
    else
      let blank := (next? l.spots).any isBlank
      let join :=
        if !literal && lead == ['\n'] && !leadBlank && !blank then if gap = [] then [' '] else gap
        else lead ++ gap
      join ++ chars l.spots ++ blockFrom literal chomp blank (chars l.ending) [] ls

/-- The chomping that a character announces. -/
def chomp? : Char → Option Chomp
  | '-' => some .strip
  | '+' => some .keep
  | _ => none

/-- The indentation and the chomping that the first line of a block announces, in either order, and
the spots after them. -/
def blockHints (spots : List Spot) : Option Nat × Chomp × List Spot :=
  let digit? := fun (c : Char) => if c.isDigit then some (c.toNat - '0'.toNat) else none
  match (next? spots).bind chomp? with
  | some chomp =>
    match (next? (spots.drop 1)).bind digit? with
    | some width => (some width, chomp, spots.drop 2)
    | none => (none, chomp, spots.drop 1)
  | none =>
    match (next? spots).bind digit? with
    | some width =>
      match (next? (spots.drop 1)).bind chomp? with
      | some chomp => (some width, chomp, spots.drop 2)
      | none => (some width, .clip, spots.drop 1)
    | none => (none, .clip, spots)

/-- The text of a block within what is indented by `floor` or more, from the hints on, and the spots
after it. The widest of the first lines up to one that is not empty shows the width. A tab is no
indentation. -/
def block? (literal : Bool) (floor : Nat) (spots : List Spot) :
    Option (List Char × List Spot) := do
  let (hint, chomp, rest) := blockHints spots
  if hint = some 0 then none
  else
    let lines := Line.ofSpots (← endLine rest)
    let first := (lines.dropWhile Line.isEmpty).take 1
    let shown := ((lines.takeWhile Line.isEmpty ++ first).map Line.width).foldl max (max floor 1)
    let width := hint.elim shown (floor - 1 + ·)
    let inside := fun (l : Line) => l.isEmpty || width ≤ l.width
    let after := lines.dropWhile inside
    let misled := (hint.isNone && first.any Line.hasTab) || (after.take 1).any Line.hasTab
    if misled then none
    else
      let lines := (lines.takeWhile inside).map (·.dedent width)
      some (blockFrom literal chomp false [] [] lines, after.flatMap fun l => l.spots ++ l.ending)

end DataGateway.Yaml

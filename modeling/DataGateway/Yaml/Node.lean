import DataGateway.Yaml.Indentation

/-!
# Nodes

A document holds one node: a scalar, a sequence or a mapping, or an alias for a node that has an
anchor. Where nothing stands there is an empty plain scalar. `read?` takes a text that holds no more
than one document.

Functions that read a part of a document have as fuel more than twice the number of its tokens, for
of every two calls in turn one takes a token.
-/

namespace DataGateway.Yaml

/-- What a document holds, with the numbers of the anchors. -/
inductive Node
  | scalar (anchor : Option Nat) (s : Scalar)
  | reference (number : Nat)
  | sequence (anchor : Option Nat) (items : List Node)
  | mapping (anchor : Option Nat) (entries : List (Node × Node))

namespace Node

def empty : Node := .scalar none { text := "" }

mutual

/-- The nodes with a number, outer nodes before what they hold. -/
def numbered : Node → List (Nat × Node)
  | n@(.scalar anchor _) => anchor.toList.map (·, n)
  | .reference _ => []
  | n@(.sequence anchor items) => anchor.toList.map (·, n) ++ numberedItems items
  | n@(.mapping anchor entries) => anchor.toList.map (·, n) ++ numberedEntries entries

def numberedItems : List Node → List (Nat × Node)
  | [] => []
  | n :: ns => n.numbered ++ numberedItems ns

def numberedEntries : List (Node × Node) → List (Nat × Node)
  | [] => []
  | (k, v) :: es => k.numbered ++ v.numbered ++ numberedEntries es

end

/-- The scalar that a node of a document is or stands for: an alias stands for the last node with
its number. -/
def scalar? (root node : Node) : Option Scalar :=
  let node := match node with
    | .reference n => (root.numbered.reverse.lookup n).getD node
    | _ => node
  match node with
  | .scalar _ s => some s
  | _ => none

end Node

/-- A document read in part: the tokens that are left, and the anchors by their names. -/
structure Reading where
  tokens : List Token
  anchors : List (String × Nat)

abbrev Read (α : Type) := StateT Reading Option α

namespace Read

def peek : Read (Option Token) := return (← get).tokens.head?

def skip : Read Unit := modify fun r => { r with tokens := r.tokens.tail }

/-- Whether a certain token comes next, which is then taken. -/
def takes (t : Token) : Read Bool := do
  if (← peek) = some t then
    skip
    return true
  else return false

/-- The number of an anchor that comes next. It is how many names there are before it, so after a
name that came twice a new name takes the number of an older one. -/
def anchor? : Read (Option Nat) := do
  match ← peek with
  | some (.anchor name) =>
    skip
    modifyGet fun r =>
      let n := r.anchors.length
      (some n, { r with anchors := (name, n) :: r.anchors.filter (·.1 ≠ name) })
  | _ => return none

/-- A tag that comes next, in full. The handle, if there is one, must be known. -/
def tag? (handles : List (String × String)) : Read (Option String) := do
  match ← peek with
  | some (.tag handle suffix) =>
    skip
    if handle = "" then return some suffix
    else
      let start ← (handles.lookup handle).elim failure pure
      return some (start ++ suffix)
  | _ => return none

/-- An anchor and a tag, in either order. -/
def properties (handles : List (String × String)) : Read (Option Nat × Option String) := do
  let anchor ← anchor?
  let tag ← tag? handles
  return (← if anchor.isSome then pure anchor else anchor?, tag)

/-- A node that may be left out before certain tokens. -/
def orEmpty (ends : List Token) (node : Read Node) : Read Node := do
  if (← peek).any ends.contains then return .empty else node

/-- Whether there is another item between brackets. A comma may come after the last. -/
def another (b : Bracket) (first : Bool) : Read Bool := do
  if ← takes (.closing b) then return false
  else if first then return true
  else if ← takes .comma then return !(← takes (.closing b))
  else failure

/-- What ends a key or a value in a block. -/
def blockMarks : List Token := [.key, .value, .blockEnd]

mutual

/-- A node, laid out in a block only if `block`. The items of a sequence that is not indented are
not marked as a block, and belong to a node only if `loose`. -/
def node (handles : List (String × String)) (block loose : Bool) : (fuel : Nat) → Read Node
  | 0 => failure
  | fuel + 1 => do
    match ← peek with
    | some (.reference name) =>
      skip
      return .reference (← ((← get).anchors.lookup name).elim failure pure)
    | _ =>
      let (anchor, tag) ← properties handles
      let next ← peek
      match next with
      | some (.scalar style text) =>
        skip
        return .scalar anchor { text, style, tag }
      | some (.opening .square) =>
        skip
        return .sequence anchor (← bracketItems handles true fuel)
      | some (.opening .curly) =>
        skip
        return .mapping anchor (← bracketEntries handles true fuel)
      | _ =>
        if loose ∧ next = some .item then
          return .sequence anchor (← items handles true fuel)
        else if block ∧ next = some .sequenceStart then
          skip
          return .sequence anchor (← items handles false fuel)
        else if block ∧ next = some .mappingStart then
          skip
          return .mapping anchor (← entries handles fuel)
        else if anchor.isSome ∨ tag.isSome then return .scalar anchor { text := "", tag }
        else failure

/-- The items of a sequence in a block. -/
def items (handles : List (String × String)) (loose : Bool) : (fuel : Nat) → Read (List Node)
  | 0 => failure
  | fuel + 1 => do
    if ← takes .item then
      let ends := if loose then .item :: blockMarks else [.item, .blockEnd]
      let item ← orEmpty ends (node handles true false fuel)
      return item :: (← items handles loose fuel)
    else if loose then return []
    else if ← takes .blockEnd then return []
    else failure

/-- The entries of a mapping in a block. -/
def entries (handles : List (String × String)) : (fuel : Nat) → Read (List (Node × Node))
  | 0 => failure
  | fuel + 1 => do
    if ← takes .key then
      let key ← orEmpty blockMarks (node handles true true fuel)
      let value ←
        if ← takes .value then orEmpty blockMarks (node handles true true fuel)
        else pure .empty
      return (key, value) :: (← entries handles fuel)
    else if ← takes .blockEnd then return []
    else failure

/-- The items between square brackets; a key there begins a mapping of one entry. -/
def bracketItems (handles : List (String × String)) (first : Bool) :
    (fuel : Nat) → Read (List Node)
  | 0 => failure
  | fuel + 1 => do
    if ← another .square first then
      let item ←
        if ← takes .key then pure (.mapping none [← bracketPair handles fuel])
        else node handles false false fuel
      return item :: (← bracketItems handles false fuel)
    else return []

/-- The only entry of a mapping between square brackets. A key that is left out takes the token
after it along. -/
def bracketPair (handles : List (String × String)) : (fuel : Nat) → Read (Node × Node)
  | 0 => failure
  | fuel + 1 => do
    let key ←
      if (← peek).any [Token.value, .comma, .closing .square].contains then
        skip
        pure .empty
      else node handles false false fuel
    let value ←
      if ← takes .value then orEmpty [.comma, .closing .square] (node handles false false fuel)
      else pure .empty
    return (key, value)

/-- The entries between curly brackets; one without a key is a key. -/
def bracketEntries (handles : List (String × String)) (first : Bool) :
    (fuel : Nat) → Read (List (Node × Node))
  | 0 => failure
  | fuel + 1 => do
    if ← another .curly first then
      let entry ←
        if ← takes .key then
          let ends := [.comma, .closing .curly]
          let key ← orEmpty (.value :: ends) (node handles false false fuel)
          let value ←
            if ← takes .value then orEmpty ends (node handles false false fuel)
            else pure .empty
          pure (key, value)
        else pure (← node handles false false fuel, .empty)
      return entry :: (← bracketEntries handles false fuel)
    else return []

end

end Read

/-- The handles that directives define, and the tokens after them. Each is defined once. -/
def directives? (version : Bool) (handles : List (String × String)) :
    List Token → Option (List (String × String) × List Token)
  | .version major minor :: rest =>
    if version ∨ major ≠ 1 ∨ (minor ≠ 1 ∧ minor ≠ 2) then none else directives? true handles rest
  | .handle name start :: rest =>
    if (handles.lookup name).isSome then none
    else directives? version ((name, start) :: handles) rest
  | rest => some (handles, rest)

/-- The handles that need no directive. -/
def commonHandles : List (String × String) := [("!", "!"), ("!!", "tag:yaml.org,2002:")]

/-- Whether a document is empty whose next token this is. -/
def endsDocument : Option Token → Bool
  | none | some .documentStart | some .documentEnd | some (.version ..) | some (.handle ..) => true
  | _ => false

/-- The node of a document. After directives a line says that the document begins. -/
def document? (tokens : List Token) : Option Node := do
  let (handles, rest) ← directives? false [] tokens
  let explicit := rest.head? = some .documentStart
  let body := if explicit then rest.tail else rest
  if rest.length < tokens.length ∧ !explicit then none
  else if tokens = [] ∨ (explicit ∧ endsDocument body.head?) then
    if body.all (· = .documentEnd) then some .empty else none
  else
    let reader := Read.node (handles ++ commonHandles) true false (2 * body.length + 1)
    let (node, after) ← reader.run ⟨body, []⟩
    if after.tokens.all (· = .documentEnd) then some node else none

/-- The node of the only document in a text. -/
def read? (s : String) : Option Node := do document? (← tokens? (← spots? s))

end DataGateway.Yaml

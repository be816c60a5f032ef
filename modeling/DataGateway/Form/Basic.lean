import DataGateway.Text.Digits

/-!
# Forms

A form is a tree of named fields, which people can write by hand and logs can show. What has a form
is an instance of `ToForm`, and of `OfForm` if it can be made from one: a field that is absent is as
one that is not there, bytes are in hexadecimal digits, and a long text may be given in pieces. An
integer may be given by its decimal digits.
-/

namespace DataGateway

/-- A tree of named fields. -/
inductive Form
  | absent
  | truth (b : Bool)
  | number (n : Int)
  | text (s : String)
  | list (items : List Form)
  | fields (entries : List (String × Form))
  deriving Inhabited

/-- What has a form. -/
class ToForm (α : Type) where
  toForm : α → Form

/-- What can be made from a form, or why it cannot. -/
class OfForm (α : Type) where
  ofForm : Form → Except String α

export ToForm (toForm)
export OfForm (ofForm)

namespace Form

/-- The field with a name. -/
def field (f : Form) (name : String) : Form :=
  match f with
  | fields entries => (entries.lookup name).getD absent
  | _ => absent

def isAbsent : Form → Bool
  | absent => true
  | _ => false

/-- Whether there is something in the field with a name. -/
def has (f : Form) (name : String) : Bool := !(f.field name).isAbsent

/-- What the field with a name stands for. -/
def get {α : Type} [OfForm α] (f : Form) (name : String) : Except String α := ofForm (f.field name)

/-- A form with one field set. -/
def set (f : Form) (name : String) (value : Form) : Form :=
  match f with
  | fields entries => fields ((name, value) :: entries.filter (·.1 ≠ name))
  | _ => f

/-- A form with a field filled in if there is nothing in it. -/
def fill (f : Form) (name : String) (value : Form) : Form :=
  if f.has name then f else f.set name value

mutual

/-- A text, from one piece or many. -/
def joined : Form → Except String String
  | text s => .ok s
  | list pieces => joinedAll pieces
  | _ => .error "text expected"

def joinedAll : List Form → Except String String
  | [] => .ok ""
  | f :: fs => do return (← joined f) ++ (← joinedAll fs)

end

/-- An integer, as a number or by its digits. -/
def integer : Form → Except String Int
  | number n => .ok n
  | text s =>
    match s.toInt? with
    | some n => .ok n
    | none => .error "integer expected"
  | _ => .error "integer expected"

def items : Form → Except String (List Form)
  | list items => .ok items
  | _ => .error "list expected"

def bytes (f : Form) : Except String Bytes := do
  match Text.unhex? (← joined f).toList with
  | some bytes => return bytes
  | none => throw "hexadecimal digits expected"

end Form

instance : ToForm Form := ⟨id⟩
instance : ToForm Bool := ⟨.truth⟩
/-- That something was done without a result. -/
instance : ToForm Unit := ⟨fun _ => .truth true⟩
instance : ToForm String := ⟨.text⟩
instance : ToForm Int := ⟨.number⟩
instance : ToForm Nat := ⟨fun n => .number n⟩
instance : ToForm Int64 := ⟨fun n => .number n.toInt⟩
instance : ToForm Int32 := ⟨fun n => .number n.toInt⟩
instance {α : Type} [ToForm α] : ToForm (List α) := ⟨fun as => .list (as.map toForm)⟩
instance : ToForm Bytes := ⟨fun bytes => .text (Text.hex bytes)⟩
instance {α : Type} [ToForm α] : ToForm (Option α) := ⟨fun a => (a.map toForm).getD .absent⟩
instance {α β : Type} [ToForm α] [ToForm β] : ToForm (α × β) :=
  ⟨fun (a, b) => .list [toForm a, toForm b]⟩

/-- A result, or the error in its place. -/
instance {ε α : Type} [ToForm ε] [ToForm α] : ToForm (Except ε α) where
  toForm
    | .ok a => toForm a
    | .error e => toForm e

instance : OfForm Form := ⟨.ok⟩
instance : OfForm String := ⟨Form.joined⟩
instance : OfForm Int := ⟨Form.integer⟩
instance : OfForm Nat := ⟨fun f => Int.toNat <$> f.integer⟩
instance : OfForm Int64 := ⟨fun f => Int64.ofInt <$> f.integer⟩
instance : OfForm Int32 := ⟨fun f => Int32.ofInt <$> f.integer⟩
instance : OfForm UInt64 := ⟨fun f => UInt64.ofInt <$> f.integer⟩
instance {α : Type} [OfForm α] : OfForm (List α) := ⟨fun f => do (← f.items).mapM ofForm⟩
instance : OfForm Bytes := ⟨Form.bytes⟩

instance : OfForm Bool where
  ofForm
    | .truth b => .ok b
    | _ => .error "truth value expected"

instance {α : Type} [OfForm α] : OfForm (Option α) where
  ofForm f := if f.isAbsent then .ok none else some <$> ofForm f

instance {α β : Type} [OfForm α] [OfForm β] : OfForm (α × β) where
  ofForm
    | .list [a, b] => do return (← ofForm a, ← ofForm b)
    | _ => .error "pair expected"

end DataGateway

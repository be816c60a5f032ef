import DataGateway.Wire.Layout

/-!
# Codes

Values that stand on the wire as a number or a text from a fixed list: statuses, data types, the
types of columns and the consistency of a paged query. A code outside its list is an error that
names the code.
-/

namespace DataGateway

/-- The type that a field descriptor gives a column. -/
inductive FieldType
  | keyword | text | boolean | integer | long | double | stringMap | keywordArray | textArray
  | booleanArray | integerArray | longArray | doubleArray | binary | binaryArray
  deriving DecidableEq, Repr

/-- How consistent the pages of a query are with each other. -/
inductive Consistency
  | none | pages | pagesConsistent
  deriving DecidableEq, Repr

namespace FieldType

def all : List FieldType :=
  [keyword, text, boolean, integer, long, double, stringMap, keywordArray, textArray, booleanArray,
    integerArray, longArray, doubleArray, binary, binaryArray]

/-- The text of a column type on the wire. -/
def name : FieldType → String
  | keyword => "KEYWORD"
  | text => "TEXT"
  | boolean => "BOOLEAN"
  | integer => "INTEGER"
  | long => "LONG"
  | double => "DOUBLE"
  | stringMap => "STRING_MAP"
  | keywordArray => "KEYWORD_ARRAY"
  | textArray => "TEXT_ARRAY"
  | booleanArray => "BOOLEAN_ARRAY"
  | integerArray => "INTEGER_ARRAY"
  | longArray => "LONG_ARRAY"
  | doubleArray => "DOUBLE_ARRAY"
  | binary => "BINARY"
  | binaryArray => "BINARY_ARRAY"

def ofName? (name : String) : Option FieldType := all.find? (·.name = name)

def ofName (name : String) : Except ProtocolError FieldType :=
  match ofName? name with
  | some t => .ok t
  | .none => .error (.unknownFieldType name)

theorem ofName_name (t : FieldType) : ofName t.name = .ok t := by
  have found : ofName? t.name = some t := by cases t <;> decide
  simp [ofName, found]

theorem name_of_ofName (name : String) (t : FieldType) (h : ofName name = .ok t) :
    t.name = name := by
  unfold ofName at h
  split at h
  · rename_i found
    cases h
    have named := List.find?_some (p := fun u : FieldType => decide (u.name = name)) found
    exact of_decide_eq_true named
  · cases h

def layout : Layout .value FieldType := .coded .text name ofName ofName_name name_of_ofName

end FieldType

namespace Consistency

def all : List Consistency := [none, pages, pagesConsistent]

/-- The text of a consistency on the wire. -/
def name : Consistency → String
  | none => "NONE"
  | pages => "PAGES"
  | pagesConsistent => "PAGES_CONSISTENT"

def ofName? (name : String) : Option Consistency := all.find? (·.name = name)

def ofName (name : String) : Except ProtocolError Consistency :=
  match ofName? name with
  | some c => .ok c
  | .none => .error (.unknownConsistency name)

theorem ofName_name (c : Consistency) : ofName c.name = .ok c := by
  have found : ofName? c.name = some c := by cases c <;> decide
  simp [ofName, found]

theorem name_of_ofName (name : String) (c : Consistency) (h : ofName name = .ok c) :
    c.name = name := by
  unfold ofName at h
  split at h
  · rename_i found
    cases h
    have named := List.find?_some (p := fun u : Consistency => decide (u.name = name)) found
    exact of_decide_eq_true named
  · cases h

def layout : Layout .value Consistency := .coded .text name ofName ofName_name name_of_ofName

end Consistency

namespace Status

def ofCode (code : Int64) : Except ProtocolError Status :=
  match ofCode? code with
  | some s => .ok s
  | none => .error (.unknownStatus code)

theorem ofCode_code (s : Status) : ofCode s.code = .ok s := by simp [ofCode, ofCode?_code]

theorem code_of_ofCode (code : Int64) (s : Status) (h : ofCode code = .ok s) : s.code = code := by
  unfold ofCode at h
  split at h
  · cases h; exact code_of_ofCode? ‹_›
  · cases h

def layout : Layout .value Status := .coded .long code ofCode ofCode_code code_of_ofCode

end Status

namespace DataType

def ofTag (tag : Int64) : Except ProtocolError DataType :=
  match ofTag? tag with
  | some t => .ok t
  | none =>
    if isSetAside tag then .error (.unsupportedDataType tag) else .error (.unknownDataType tag)

theorem ofTag_tag (t : DataType) : ofTag t.tag = .ok t := by simp [ofTag, ofTag?_tag]

theorem tag_of_ofTag (tag : Int64) (t : DataType) (h : ofTag tag = .ok t) : t.tag = tag := by
  unfold ofTag at h
  split at h
  · cases h; exact tag_of_ofTag? ‹_›
  · split at h <;> cases h

def layout : Layout .value DataType := .coded .long tag ofTag ofTag_tag tag_of_ofTag

end DataType

end DataGateway

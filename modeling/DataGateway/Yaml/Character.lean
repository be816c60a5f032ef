/-!
# Characters in YAML

YAML gives a meaning to breaks, which end a line, to blanks, which separate, and to indicators,
which begin something that is not plain text. A text may hold only characters that print, tabs, breaks and
marks of byte order.
-/

namespace DataGateway.Yaml

/-- A character that ends a line. -/
def isBreak (c : Char) : Bool :=
  c == '\n' || c == '\r' || c == '\x85' || c == '\u2028' || c == '\u2029'

/-- A character that separates within a line. -/
def isBlank (c : Char) : Bool := c == ' ' || c == '\t'

/-- A character that stands for itself where a text is written. -/
def isPrintable (c : Char) : Bool :=
  let n := c.toNat
  c == '\n' || (0x20 ≤ n && n ≤ 0x7e) || (0xa0 ≤ n && n ≤ 0xfffd && n != 0xfeff) || 0x10000 ≤ n

/-- The mark of byte order, which may begin a line and is no part of it. -/
def byteOrderMark : Char := '\ufeff'

/-- A character that may stand in a document. -/
def isAllowed (c : Char) : Bool :=
  isPrintable c || c == '\t' || c == '\r' || c == '\x85' || c == byteOrderMark

/-- A character of the names of anchors, handles and directives. -/
def isWord (c : Char) : Bool := c.isAlphanum || c == '_' || c == '-'

/-- Whether what comes next is a blank, a break or the end. -/
def isEnd (next : Option Char) : Bool := next.all fun c => isBlank c || isBreak c

/-- Whether a character can begin no plain text. -/
def isIndicator (c : Char) : Bool := "#,[]\x7b\x7d&*!|>'\"%@\x60".toList.contains c

/-- Whether a text begins with something else than plain text. The last three indicators are plain
characters unless something is separated from them. -/
def beginsIndicator : List Char → Bool
  | [] => false
  | c :: cs => isIndicator c || ((c == '?' || c == ':' || c == '-') && isEnd cs.head?)

/-- Whether a text begins like the line between two documents. -/
def beginsMarker (cs : List Char) : Bool :=
  "---".toList.isPrefixOf cs || "...".toList.isPrefixOf cs

/-- The characters with an escape of one letter, with their letters. -/
def shortEscapes : List (Char × Char) :=
  [('\x00', '0'), ('\x07', 'a'), ('\x08', 'b'), ('\t', 't'), ('\n', 'n'), ('\x0b', 'v'),
    ('\x0c', 'f'), ('\r', 'r'), ('\x1b', 'e'), ('"', '"'), ('\\', '\\'), ('\x85', 'N'),
    ('\xa0', '_'), ('\u2028', 'L'), ('\u2029', 'P')]

end DataGateway.Yaml

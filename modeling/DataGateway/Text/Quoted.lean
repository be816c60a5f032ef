import DataGateway.Text.Digits
import DataGateway.Text.Graphic

/-!
# Quoted texts

A text is shown between double quotes, with the characters that would not show as themselves
escaped: a quote and a backslash by a backslash, the common controls by a letter, and any other
character without a graphic of its own by its number. A mark that combines with the character before
it counts as having none, since it would combine with the quote.
-/

namespace DataGateway.Text

/-- A character as it stands between quotes. -/
def escape (c : Char) : List Char :=
  match c with
  | '"' => ['\\', '"']
  | '\\' => ['\\', '\\']
  | '\t' => ['\\', 't']
  | '\n' => ['\\', 'n']
  | '\r' => ['\\', 'r']
  | '\x00' => ['\\', '0']
  | c => if isGraphic c then [c] else "\\u\x7b".toList ++ shortest 16 c.toNat ++ ['\x7d']

/-- A text between quotes. -/
def quoted (s : String) : String := String.ofList ('"' :: s.toList.flatMap escape ++ ['"'])

end DataGateway.Text

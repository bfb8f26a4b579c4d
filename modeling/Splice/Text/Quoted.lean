import Splice.Text.Concealed

/-!
# Quoted text

A text between double quotes, in which a quote, a backslash and every character that would not show
are escaped.
-/

namespace Splice.Text

/-- An escape by code point, in hexadecimal without leading zeros. -/
def codeEscape (character : Char) : List Char :=
  "\\u\x7b".toList ++ Nat.toDigits 16 character.toNat ++ ['\x7d']

/-- What stands for a character between the quotes. -/
def escape (character : Char) : List Char :=
  match character with
  | '\x00' => ['\\', '0']
  | '\t' => ['\\', 't']
  | '\r' => ['\\', 'r']
  | '\n' => ['\\', 'n']
  | '\\' => ['\\', '\\']
  | '\x22' => ['\\', '\x22']
  | _ => if isConcealed character then codeEscape character else [character]

def quoted (text : String) : String :=
  "\"" ++ String.ofList (text.toList.flatMap escape) ++ "\""

end Splice.Text

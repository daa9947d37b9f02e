import Retarget.Number.Numeral
import Retarget.Text.Printable

/-!
# Quoted text

Text between double quotes. Quotes, backslashes, line breaks, tabs and what has no printed form are
escaped.
-/

namespace Retarget.Text

/-- A character between double quotes. -/
def quotedChar (c : Char) : List Char :=
  match c with
  | '"' => ['\\', '"']
  | '\\' => ['\\', '\\']
  | '\n' => ['\\', 'n']
  | '\r' => ['\\', 'r']
  | '\t' => ['\\', 't']
  | _ =>
    if c.toNat = 0 then ['\\', '0']
    else if isPrintable c then [c]
    else "\\u\x7b".toList ++ Nat.toDigits 16 c.toNat ++ "\x7d".toList

def quoted (text : String) : String :=
  "\"" ++ String.ofList (text.toList.flatMap quotedChar) ++ "\""

end Retarget.Text

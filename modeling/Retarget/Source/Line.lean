import Retarget.Text.Blank
import Retarget.Text.Cut

/-!
# Lines of a textual graph

A textual graph is read line by line. A semicolon starts a comment, and white space around a line
and lines without content do not matter.
-/

namespace Retarget.Source

/-- A line with content, and its number counted from one. -/
structure Line where
  number : Nat
  text : List Char
deriving DecidableEq, Repr

/-- A line without its comment and the white space around it. -/
def content (line : List Char) : List Char :=
  match Text.cutFirst? (· = ';') line with
  | some (before, _) => Text.trim before
  | none => Text.trim line

/-- The lines of a text that have content. -/
def lines (text : String) : List Line :=
  ((Text.splitAt '\n' text.toList).zipIdx 1).filterMap fun (line, number) =>
    let text := content line
    if text.isEmpty then none else some ⟨number, text⟩

end Retarget.Source

/-!
# Output languages

The languages that programs are written in, and how each of them spells blocks, comments,
assignments and the head of a file.
-/

namespace Retarget

/-- A language that programs are written in. -/
inductive Language where
  | c
  | vhdl
  | gappa
deriving DecidableEq, Repr, Inhabited

namespace Language

/-- All languages, in their fixed order. -/
def all : List Language := [.c, .vhdl, .gappa]

def name : Language → String
  | .c => "c"
  | .vhdl => "vhdl"
  | .gappa => "gappa"

/-- The language with a given name, in either case of its letters. -/
def ofName? (name : String) : Option Language :=
  all.find? fun language => language.name.toList = name.toList.map Char.toLower

/-- What is written where a nested block opens. -/
def blockOpen : Language → String
  | .c => "\x7b\n"
  | .vhdl | .gappa => ""

/-- What is written where a nested block closes. -/
def blockClose : Language → String
  | .c => "\x7d\n"
  | .vhdl | .gappa => ""

/-- What is written where one block closes and the next opens, in languages with blocks. -/
def blockLink? (language : Language) (transition : String) : Option String :=
  match language with
  | .c => some ("\x7d " ++ transition ++ " \x7b\n")
  | .vhdl => some (transition ++ "\n")
  | .gappa => none

def comment (language : Language) (text : String) : String :=
  match language with
  | .c => "/* " ++ text ++ " */\n"
  | .vhdl => "-- " ++ text ++ "\n"
  | .gappa => "# " ++ text ++ "\n"

/-- An assignment; signals of a hardware description are assigned concurrently. -/
def assignment (language : Language) (destination value : String) (signal : Bool) : String :=
  match language with
  | .vhdl => destination ++ (if signal then " <= " else " := ") ++ value ++ ";\n"
  | .c | .gappa => destination ++ " = " ++ value ++ ";\n"

/-- The text with `after` written behind every line break. -/
def continueLines (after text : String) : String :=
  String.ofList (text.toList.flatMap fun c => if c = '\n' then '\n' :: after.toList else [c])

/-- Comments with a mark in front of every line. -/
def markedLines (mark : String) (comments : List String) : String :=
  String.join (comments.map fun text => mark ++ continueLines mark text ++ "\n")

/-- The head of a file: comments, then the libraries and the headers that it uses. -/
def headerText (language : Language) (comments headers libraries : List String) : String :=
  match language with
  | .c =>
    (if comments.isEmpty then "" else "/**\n" ++ markedLines " * " comments ++ "**/\n") ++
      String.join (headers.map fun header => "#include <" ++ header ++ ">\n")
  | .vhdl =>
    (if comments.isEmpty then "" else "--\n" ++ markedLines "-- " comments ++ "--\n") ++
      String.join (libraries.map fun library => "library " ++ library ++ ";\n") ++
      String.join (headers.map fun header => "use " ++ header ++ ";\n")
  | .gappa => markedLines "# " comments

end Language

end Retarget

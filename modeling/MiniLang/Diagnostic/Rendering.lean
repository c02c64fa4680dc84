import MiniLang.Diagnostic
import MiniLang.Text.Lines
import MiniLang.Text.Paint
/-!
# Diagnostics on the terminal

A diagnostic is shown as its code and location, its text, and, where a token was found on a line that exists, that line
behind its number with a caret under the token's first character.

The number takes four columns, or as many as it needs; the caret is set for four.
-/
namespace MiniLang.Diagnostic

open Text (Paint)

/-- A text of at least `width` characters, filled up on the left. -/
def padLeft (width : Nat) (s : String) : String := String.ofList (List.replicate (width - s.length) ' ') ++ s

/-- The line with one of its characters, counted from 0, painted. -/
def highlighted (color : Bool) : Nat → List Char → String
  | _, [] => ""
  | 0, c :: s => Paint.boldCyan.on color c.toString ++ String.ofList s
  | n + 1, c :: s => c.toString ++ highlighted color n s

/-- The columns in front of a line: four for its number, a space, the bar and a space. -/
def gutterWidth : Nat := 7

/-- The line at a position, and the caret below it; nothing where there is no such line. -/
def snippet (source : String) (pos : Position) (color : Bool) : String :=
  match Text.line? source pos.line with
  | none => ""
  | some l =>
    padLeft 4 (toString pos.line) ++ " " ++ Paint.gray.on color "|" ++ " " ++ highlighted color (pos.col - 1) l ++ "\n" ++
      String.ofList (List.replicate (gutterWidth + (pos.col - 1)) ' ') ++ Paint.boldRed.on color "^" ++ "\n"

def location (filename : String) : Option Token → String
  | some t => filename ++ ":" ++ toString t.pos.line ++ ":" ++ toString t.pos.col
  | none => filename ++ ": end of input"

/-- The form in which a diagnostic of a file is shown. -/
def render (d : Diagnostic) (source filename : String) (color : Bool) : String :=
  Paint.boldRed.on color ("error[" ++ d.category.code ++ "]") ++ " " ++
    Paint.dim.on color (location filename d.found) ++ "\n" ++ Text.paintQuoted color d.text ++ "\n" ++
    match d.found with
    | some t => snippet source t.pos color
    | none => ""

end MiniLang.Diagnostic

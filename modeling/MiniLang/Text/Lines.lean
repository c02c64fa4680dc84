/-!
# Lines

A line ends with a line feed or with a carriage return and a line feed; what follows the last of them is a line if it is
not empty.  A carriage return anywhere else is an ordinary character.
-/
namespace MiniLang.Text

def lines : List Char → List (List Char)
  | [] => []
  | '\n' :: s => [] :: lines s
  | '\r' :: '\n' :: s => [] :: lines s
  | c :: s =>
    match lines s with
    | [] => [[c]]
    | l :: ls => (c :: l) :: ls

/-- The line with a number, counted from 1. -/
def line? (text : String) : Nat → Option (List Char)
  | 0 => none
  | n + 1 => (lines text.toList)[n]?

end MiniLang.Text

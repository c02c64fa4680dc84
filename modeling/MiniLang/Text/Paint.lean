/-!
# Paint

Terminal colors: a painted text stands between an escape sequence that names its paint and one that ends it.  Where
colors are off nothing is added.
-/
namespace MiniLang.Text

inductive Paint where
  | boldRed | boldCyan | dim | gray
  deriving DecidableEq, Repr

def Paint.code : Paint → String
  | boldRed => "1;31"
  | boldCyan => "1;36"
  | dim => "2"
  | gray => "90"

def Paint.on (p : Paint) (color : Bool) (s : String) : String :=
  if color then "\x1b[" ++ p.code ++ "m" ++ s ++ "\x1b[0m" else s

/-- Paints what stands between quotation marks; `quoted` holds what was read since an opening one.  A text whose last
quotation mark opens is plain from there on. -/
def paintQuotedFrom (quoted : Option (List Char)) : List Char → String
  | [] => String.ofList (quoted.getD [])
  | c :: s =>
    match quoted with
    | none => if c = '\'' then "'" ++ paintQuotedFrom (some []) s else c.toString ++ paintQuotedFrom none s
    | some q =>
      if c = '\'' then Paint.boldCyan.on true (String.ofList q) ++ "'" ++ paintQuotedFrom none s
      else paintQuotedFrom (some (q ++ [c])) s

def paintQuoted (color : Bool) (s : String) : String := if color then paintQuotedFrom none s.toList else s

end MiniLang.Text

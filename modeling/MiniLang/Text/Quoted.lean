import MiniLang.Text.Printable
/-!
# Quoted texts

A text between double quotation marks, in which the quotation mark and the backslash stand behind a backslash, four
control characters have a letter, and what cannot be printed is spelt by its code point.
-/
namespace MiniLang.Text

def escaped (c : Char) : String :=
  if c = '"' then "\\\""
  else if c = '\\' then "\\\\"
  else if c = '\x00' then "\\0"
  else if c = '\t' then "\\t"
  else if c = '\n' then "\\n"
  else if c = '\r' then "\\r"
  else if isPrintable c then c.toString
  else "\\u\x7b" ++ String.ofList (Nat.toDigits 16 c.toNat) ++ "\x7d"

def quoted (s : String) : String := "\"" ++ String.join (s.toList.map escaped) ++ "\""

end MiniLang.Text

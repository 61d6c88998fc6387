import SegmentedFiles.Text.Visible

/-! Values in words, for people who look for a fault: texts in quotes, and records with their fields. -/

namespace SegmentedFiles.Quoted

/-- A character between quotes. One that has no form of its own is given by its number. -/
def character (c : Char) : List Char :=
  if c = '"' then ['\\', '"']
  else if c = '\\' then ['\\', '\\']
  else if c = '\n' then ['\\', 'n']
  else if c = '\r' then ['\\', 'r']
  else if c = '\t' then ['\\', 't']
  else if c.toNat = 0 then ['\\', '0']
  else if Text.isVisible c then [c]
  else ['\\', 'u', '\x7b'] ++ Nat.toDigits 16 c.toNat ++ ['\x7d']

def text (s : String) : String := "\"" ++ String.ofList (s.toList.flatMap character) ++ "\""

/-- A record with its fields in words; dots say that there are more. -/
def record (name : String) (fields : List (String × String)) (complete : Bool) : String :=
  let shown := fields.map fun field => field.1 ++ ": " ++ field.2
  name ++ " \x7b " ++ ", ".intercalate (if complete then shown else shown ++ [".."]) ++ " \x7d"

end SegmentedFiles.Quoted

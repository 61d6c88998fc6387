/-! JSON values and their compact written form. -/

namespace SegmentedFiles

/-- A JSON value. A number is kept as an integer, or else as it was written. -/
inductive Json where
  | null
  | bool (b : Bool)
  | integer (n : Int)
  | decimal (text : String)
  | string (s : String)
  | array (items : List Json)
  | object (fields : List (String × Json))

namespace Json

def nat (n : Nat) : Json := .integer n

/-- The value of a field of an object. Of fields with the same name the last counts. -/
def field? (value : Json) (name : String) : Option Json :=
  match value with
  | .object fields => fields.reverse.lookup name
  | _ => none

def string? : Json → Option String
  | .string s => some s
  | _ => none

def integer? : Json → Option Int
  | .integer n => some n
  | _ => none

def escaped (c : Char) : List Char :=
  '\\' :: 'u' :: '0' :: '0' :: [Nat.digitChar (c.toNat / 16), Nat.digitChar (c.toNat % 16)]

def stringChar (c : Char) : List Char :=
  if c = '"' then ['\\', '"']
  else if c = '\\' then ['\\', '\\']
  else if c = '\n' then ['\\', 'n']
  else if c = '\r' then ['\\', 'r']
  else if c = '\t' then ['\\', 't']
  else if c.toNat = 8 then ['\\', 'b']
  else if c.toNat = 12 then ['\\', 'f']
  else if c.toNat < 0x20 then escaped c
  else [c]

def quoted (s : String) : String := "\"" ++ String.ofList (s.toList.flatMap stringChar) ++ "\""

mutual

/-- The written form of a value, without blanks. -/
def text : Json → String
  | .null => "null"
  | .bool b => if b then "true" else "false"
  | .integer n => if n < 0 then "-" ++ n.natAbs.repr else n.natAbs.repr
  | .decimal written => written
  | .string s => quoted s
  | .array items => "[" ++ itemsText items ++ "]"
  | .object fields => "\x7b" ++ fieldsText fields ++ "\x7d"

def itemsText : List Json → String
  | [] => ""
  | [item] => item.text
  | item :: rest => item.text ++ "," ++ itemsText rest

def fieldsText : List (String × Json) → String
  | [] => ""
  | [(name, value)] => quoted name ++ ":" ++ value.text
  | (name, value) :: rest => quoted name ++ ":" ++ value.text ++ "," ++ fieldsText rest

end

end Json

end SegmentedFiles

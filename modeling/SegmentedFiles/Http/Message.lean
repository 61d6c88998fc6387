import SegmentedFiles.Payload

/-! Requests and responses of HTTP. What the body of a message is depends on the side that looks at
it. -/

namespace SegmentedFiles.Http

/-- Names in lower case, with values. -/
abbrev Headers : Type := List (String × String)

namespace Headers

def ofList (headers : List (String × String)) : Headers :=
  headers.map fun header => (header.1.toLower, header.2)

def get? (headers : Headers) (name : String) : Option String := headers.lookup name

end Headers

structure Request (β : Type) where
  method : String
  /-- Where the request goes: path and query, or a whole URL. -/
  target : String
  headers : Headers
  body : β

structure Response (β : Type) where
  status : Nat
  headers : Headers
  body : β

def isSuccess (status : Nat) : Bool := 200 ≤ status && status < 300

end SegmentedFiles.Http

/-! Why a call on an object store fails, and the words for it. -/

namespace SegmentedFiles

inductive DiskFailure where
  | noEntry
  | exists
  | notDirectory
  | isDirectory
  | nameTooLong
  | notEmpty
  deriving DecidableEq, Repr

def DiskFailure.message : DiskFailure → String
  | .noEntry => "No such file or directory (os error 2)"
  | .exists => "File exists (os error 17)"
  | .notDirectory => "Not a directory (os error 20)"
  | .isDirectory => "Is a directory (os error 21)"
  | .nameTooLong => "File name too long (os error 36)"
  | .notEmpty => "Directory not empty (os error 39)"

/-- A failed input or output: one the operating system reports, or one with words of its own. -/
inductive IoFailure where
  | disk (failure : DiskFailure)
  | other (text : String)
  deriving DecidableEq, Repr

def IoFailure.message : IoFailure → String
  | .disk failure => failure.message
  | .other text => text

inductive HttpFailure where
  /-- The request has a URL or header that cannot be sent. -/
  | badRequest
  /-- The server could not be reached, or broke off. -/
  | unreachable
  /-- The body of the response is not of the form that was asked for. -/
  | badBody
  deriving DecidableEq, Repr

def HttpFailure.message : HttpFailure → String
  | .badRequest => "builder error"
  | .unreachable => "error sending request"
  | .badBody => "error decoding response body"

inductive StoreError where
  | notFound
  | rangeNotSatisfiable
  | status (code : Nat) (body : String)
  | auth (reason : String)
  | invalidResponse (reason : String)
  | invalidName (name : String)
  | unsupported (feature : String)
  | bulkDelete (failed : Nat)
  | http (failure : HttpFailure)
  | io (failure : IoFailure)
  deriving DecidableEq, Repr

namespace StoreError

def ofStatus (code : Nat) (body : String) : StoreError :=
  if code = 404 then .notFound
  else if code = 416 then .rangeNotSatisfiable
  else .status code body

def statusCode? : StoreError → Option Nat
  | .notFound => some 404
  | .rangeNotSatisfiable => some 416
  | .status code _ => some code
  | _ => none

def message : StoreError → String
  | .notFound => "object not found"
  | .rangeNotSatisfiable => "requested range not satisfiable"
  | .status code body => "unexpected status " ++ code.repr ++ ": " ++ body
  | .auth reason => "authentication failed: " ++ reason
  | .invalidResponse reason => "invalid response: " ++ reason
  | .invalidName name => "invalid name \x60" ++ name ++ "\x60"
  | .unsupported feature => feature ++ " is not supported by this store"
  | .bulkDelete failed => "bulk delete left " ++ failed.repr ++ " objects behind"
  | .http failure => failure.message
  | .io failure => failure.message

end StoreError

end SegmentedFiles

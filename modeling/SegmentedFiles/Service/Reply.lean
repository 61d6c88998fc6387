import SegmentedFiles.Http.Message
import SegmentedFiles.Json.Value
import SegmentedFiles.Store.Call
import SegmentedFiles.Volume.Basic

/-! Answers of the service: values and errors as JSON, content, and the plain words with which a
request is turned away that does not have the right form. -/

namespace SegmentedFiles.Service

/-- The body of an answer: there as a whole, or delivered as it is read. -/
inductive Content where
  | whole (bytes : Payload)
  | stream (source : ByteStream)

def Content.none : Content := .whole ByteArray.empty

abbrev Reply : Type := Http.Response Content

namespace Reply

def jsonType : String := "application/json"

def textType : String := "text/plain; charset=utf-8"

def typeHeader (type : String) : String × String := ("content-type", type)

def sizeHeader (size : Nat) : String × String := ("content-length", size.repr)

/-- An answer that says no more than its status. -/
def ofStatus (status : Nat) : Reply := ⟨status, [], .none⟩

def ofContent (status : Nat) (type : String) (content : Content) : Reply :=
  ⟨status, [typeHeader type], content⟩

def ofJson (status : Nat) (value : Json) : Reply :=
  ofContent status jsonType (.whole (Payload.ofText value.text))

def ofText (status : Nat) (text : String) : Reply :=
  ofContent status textType (.whole (Payload.ofText text))

def noResource : Reply := ofStatus 404

def noMethod (methods : List String) : Reply :=
  ⟨405, [("allow", ",".intercalate methods)], .none⟩

/-- Tell the size of a body that is there as a whole, unless the headers tell one already. -/
def sized (reply : Reply) : Reply :=
  match reply.body with
  | .whole bytes =>
    if (reply.headers.get? "content-length").isSome then reply
    else { reply with headers := reply.headers ++ [sizeHeader bytes.size] }
  | .stream _ => reply

/-- The answer where a request is for nothing that is there. One that is for no path at all, but for the
server as a whole or for a host, is told the size of the empty body. -/
def notFound (path : String) : Reply :=
  if Text.startsWith path "/" then noResource else noResource.sized

def headersOnly (reply : Reply) : Reply := { reply with body := .none }

/-- An error; of a write that was stopped, with the number of bytes stored before. -/
def error (status : Nat) (message : String) (written : Option Nat) : Reply :=
  ofJson status <| .object <|
    [("error", .string message), ("status", .nat status)]
      ++ (written.map fun n => ("bytes_written", .nat n)).toList

def statusOf : VolumeError → Nat
  | .pathNotFound _ => 404
  | .invalidPath _ | .invalidOption _ => 400
  | .unsupported => 501
  | .store _ _ | .io _ _ => 500

def ofVolumeError (e : VolumeError) : Reply := error (statusOf e) e.message none

def ofWriteFailure (e : WriteFailure) : Reply := error (statusOf e.source) e.source.message (some e.written)

/-- A request that lacks something or has it in the wrong form. -/
def badRequest (message : String) : Reply := error 400 message none

end Reply

/-- Why a request is turned away before it is looked at as a whole. -/
inductive Rejection where
  /-- The path is no text. -/
  | path
  /-- The query does not have the right form. -/
  | query
  /-- The body is not declared to be JSON. -/
  | notJson
  /-- The body is not JSON. -/
  | badJson
  /-- The body is not the JSON value that is wanted. -/
  | wrongJson
  /-- The body broke off. -/
  | brokenBody
  /-- The body is too large. -/
  | largeBody
  deriving DecidableEq, Repr

def Rejection.reply : Rejection → Reply
  | .path => .ofText 400 "Invalid URL: the path is not valid UTF-8"
  | .query => .ofText 400 "Failed to deserialize query string: offset is not a number"
  | .notJson => .ofText 415 "Expected request with \x60Content-Type: application/json\x60"
  | .badJson => .ofText 400 "Failed to parse the request body as JSON: syntax error"
  | .wrongJson =>
    .ofText 422 "Failed to deserialize the JSON body into the target type: source and destination are wanted"
  | .brokenBody => .ofText 400 "Failed to buffer the request body: the body broke off"
  | .largeBody => .ofText 413 "Failed to buffer the request body: length limit exceeded"

end SegmentedFiles.Service

import SegmentedFiles.Http.Message
import SegmentedFiles.Http.Url
import SegmentedFiles.Interaction
import SegmentedFiles.Store.Error
import SegmentedFiles.Text.Utf8

/-! Exchanges with an HTTP server, and programs made of them. -/

namespace SegmentedFiles

structure HttpCall where
  method : String
  url : Url
  headers : Http.Headers
  body : Payload

/-- What a server answers, if it can be reached. -/
abbrev HttpReply (_ : HttpCall) : Type := Except HttpFailure (Http.Response Payload)

/-- A program that exchanges messages with HTTP servers, and may fail as calls on a store do. -/
abbrev HttpAction (α : Type) : Type := ExceptT StoreError (Interaction HttpCall HttpReply) α

abbrev HttpServer (τ : Type) : Type := (call : HttpCall) → τ → HttpReply call × τ

namespace Http

/-- Whether a header can have this value when it is sent. -/
def isHeaderValue (value : String) : Bool :=
  value.toList.all fun c => (0x20 ≤ c.toNat && c.toNat != 0x7f) || c == '\t'

def isPlainValue (value : String) : Bool :=
  value.toList.all fun c => (0x20 ≤ c.toNat && c.toNat < 0x7f) || c == '\t'

def Headers.plain? (headers : Headers) (name : String) : Option String :=
  (headers.get? name).filter isPlainValue

def Response.text (response : Response Payload) : String := Utf8.decode response.body.data.toList

end Http

namespace HttpCall

/-- The name that requests give the program. -/
def agent : String := "segment-fs"

/-- The headers that every request has, unless it has others of the name. -/
def usualHeaders : Http.Headers := [("user-agent", agent), ("accept", "*/*")]

def withHeader (call : HttpCall) (name value : String) : HttpCall :=
  { call with headers := call.headers ++ [(name, value)] }

def bare (method : String) (url : Url) : HttpCall := ⟨method, url, [], ByteArray.empty⟩

def isSendable (call : HttpCall) : Bool :=
  call.url.isHttp && call.headers.all fun header => Http.isHeaderValue header.2

def complete (call : HttpCall) : HttpCall :=
  { call with
    headers := call.headers
      ++ usualHeaders.filter fun header => (call.headers.get? header.1).isNone }

def send (call : HttpCall) : HttpAction (Http.Response Payload) :=
  if call.isSendable then
    ExceptT.mk (Interaction.bind (Interaction.request call.complete) fun reply =>
      .done (reply.mapError StoreError.http))
  else throw (.http .badRequest)

end HttpCall

/-- Go on with a response only if its status says that the request was carried out. -/
def checkStatus (response : Http.Response Payload) : Except StoreError (Http.Response Payload) :=
  if Http.isSuccess response.status then .ok response
  else .error (.ofStatus response.status response.text)

end SegmentedFiles

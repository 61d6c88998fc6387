import SegmentedFiles.Http.MediaType
import SegmentedFiles.Http.Query
import SegmentedFiles.Service.MoveRequest
import SegmentedFiles.Service.Reply
import SegmentedFiles.Service.Resource
import SegmentedFiles.Volume.Replace
import SegmentedFiles.Volume.Write

/-! The service: what is answered to a request for the files of a volume. -/

namespace SegmentedFiles.Service

/-- A step towards an answer, which may be found before the last step. -/
abbrev Handler (α : Type) : Type := ExceptT Reply (Interaction StoreCall StoreCall.Reply) α

namespace Handler

/-- Carry out an operation on the volume; where it fails, the answer is its error. -/
def ofAction {α : Type} (action : VolumeAction α) : Handler α :=
  ExceptT.mk (Interaction.bind action.run fun result => .done (result.mapError Reply.ofVolumeError))

def reject {α : Type} (rejection : Rejection) : Handler α := throw rejection.reply

def reply (handler : Handler Reply) : StoreProgram Reply :=
  Interaction.bind handler.run fun
    | .ok reply => .done reply
    | .error reply => .done reply

end Handler

def maxFileBody : Nat := 128 * 1024 * 1024

def maxMoveBody : Nat := 2 * 1024 * 1024

def pathOf (written : String) : Handler String :=
  match Percent.decodeText? written with
  | some path => return "/" ++ path
  | none => Handler.reject .path

def offsetOf (query : String) : Handler (Option Nat) :=
  match Query.values "offset" query with
  | [] => return none
  | [value] =>
    match Decimal.parse Decimal.max64 value with
    | .ok offset => return some offset
    | .error _ => Handler.reject .query
  | _ => Handler.reject .query

def bodyOf (limit : Nat) (body : Source) : Handler Payload :=
  if limit < body.remaining then Handler.reject .largeBody
  else if body.failure.isSome then Handler.reject .brokenBody
  else return body.content

def declaresJson (headers : Http.Headers) : Bool :=
  ((headers.get? "content-type").bind MediaType.parse?).any MediaType.isJson

def moveRequestOf (request : Http.Request Source) : Handler MoveRequest := do
  if !declaresJson request.headers then Handler.reject .notJson
  match MoveRequest.parse (← bodyOf maxMoveBody request.body) with
  | .ok move => return move
  | .error .malformed => Handler.reject .badJson
  | .error .mismatch => Handler.reject .wrongJson

/-- The whole content of a file, or from an offset on as a stream. -/
def readFile (v : Volume) (path : String) (offset : Option Nat) : Handler Reply := do
  match offset with
  | some offset =>
    return Reply.ofContent 200 Volume.fileType (.stream (← Handler.ofAction (v.readFrom path offset)))
  | none =>
    return Reply.ofContent 200 Volume.fileType (.whole (← Handler.ofAction (v.readAll path)))

def describe (info : Volume.FileInfo) : Http.Headers :=
  [Reply.typeHeader (if info.isDirectory then Volume.directoryType else Volume.fileType),
    Reply.sizeHeader info.size, ("last-modified", info.modified.toHttpDate)]

def writeBody (v : Volume) (path : String) (offset : Nat) (body : Source) : Handler Reply := do
  match ← ExceptT.lift (v.write path offset body) with
  | .ok written =>
    return Reply.ofJson 200 <| .object
      [("path", .string path), ("offset", .nat offset), ("bytes_written", .nat written)]
  | .error e => return Reply.ofWriteFailure e

def infoJson (info : Volume.FileInfo) : Json :=
  .object [("path", .string info.path), ("size", .nat info.size), ("is_dir", .bool info.isDirectory),
    ("modified", .string info.modified.toRfc3339)]

def listReply (v : Volume) (path : String) : Handler Reply := do
  let children ← Handler.ofAction (v.children path)
  return Reply.ofJson 200 <| .object
    [("path", .string path), ("children", .array (children.map Json.string))]

def readinessReply (v : Volume) : Handler Reply := do
  let failure? ← ExceptT.lift (Interaction.bind v.checkReachable.run fun
    | .ok () => .done none
    | .error e => .done (some e.message))
  let check : Json := .object
    [("ok", .bool failure?.isNone), ("error", (failure?.map Json.string).getD .null)]
  return Reply.ofJson (if failure?.isNone then 200 else 503) <| .object
    [("status", .string (if failure?.isNone then "ok" else "error")),
      ("driver", .string VolumeError.driverName), ("checks", .object [("store", check)])]

def moveReply (v : Volume) (request : Http.Request Source) : Handler Reply := do
  let move ← moveRequestOf request
  if move.source.isEmpty || move.destination.isEmpty then
    throw (Reply.badRequest "source and destination are required")
  Handler.ofAction (v.move move.source move.destination)
  return Reply.ofStatus 204

def fileReply (v : Volume) (written query : String) (request : Http.Request Source) :
    Handler Reply := do
  let path ← pathOf written
  match request.method with
  | "PUT" =>
    Handler.ofAction (v.writeAll path (← bodyOf maxFileBody request.body))
    return Reply.ofStatus 201
  | "PATCH" => writeBody v path ((← offsetOf query).getD 0) request.body
  | "HEAD" => return ⟨200, describe (← Handler.ofAction (v.stat path)), .none⟩
  | "DELETE" =>
    Handler.ofAction (v.remove path)
    return Reply.ofStatus 204
  | _ => readFile v path (← offsetOf query)

def resourceReply (v : Volume) (query : String) (request : Http.Request Source) :
    Resource → Handler Reply
  | .health => return Reply.ofJson 200 (.object [("status", .string "ok")])
  | .readiness => readinessReply v
  | .file written => fileReply v written query request
  | .info written => do
    return Reply.ofJson 200 (infoJson (← Handler.ofAction (v.stat (← pathOf written))))
  | .directory none => listReply v "/"
  | .directory (some written) => do listReply v (← pathOf written)
  | .move => moveReply v request

def respond (v : Volume) (request : Http.Request Source) : StoreProgram Reply :=
  let (path, query) := splitTarget request.target
  match Resource.find? path with
  | none => return Reply.notFound path
  | some resource =>
    if resource.methods.contains request.method then do
      let reply := (← (resourceReply v query request resource).reply).sized
      return if request.method == "HEAD" then reply.headersOnly else reply
    else return (Reply.noMethod resource.methods).sized

end SegmentedFiles.Service

import SegmentedFiles.Http.Query
import SegmentedFiles.Store.Call
import SegmentedFiles.Swift.Answers
import SegmentedFiles.Swift.Auth

/-! An object store on a Swift cluster. Each call is a request on the account, with the token of the
session. When the token is not taken any more, a new session is begun once and the request repeated. -/

namespace SegmentedFiles

/-- A program of exchanges in the course of a session. -/
abbrev SwiftAction (α : Type) : Type :=
  ExceptT StoreError (StateT SwiftSession (Interaction HttpCall HttpReply)) α

namespace SwiftStore

def lift {α : Type} (action : HttpAction α) : SwiftAction α :=
  ExceptT.mk fun session => Interaction.bind action.run fun result => .done (result, session)

def tokenHeader : String := "x-auth-token"

/-- The status of a token that is not taken. -/
def unauthorized : Nat := 401

/-- Send the request that `build` makes for the session's storage URL. If its token is not taken, begin
a new session and send the request again. -/
def send (config : SwiftConfig) (build : Url → Except StoreError HttpCall) :
    SwiftAction (Http.Response Payload) := do
  let session ← get
  let call ← build session.storageUrl
  let response ← lift (call.withHeader tokenHeader session.token).send
  if response.status != unauthorized then
    checkStatus response
  else
    let session ← lift (SwiftAuth.authenticate config)
    set session
    let call ← build session.storageUrl
    checkStatus (← lift (call.withHeader tokenHeader session.token).send)

/-- The URL of a container, or of an object in it. Each name of the path is escaped. -/
def objectUrl (storage : Url) (container : String) (name : Option String) : Except StoreError Url :=
  if storage.hasNames then
    .ok (storage.addNames (container :: (name.map (Text.splitAt '/')).getD []))
  else .error (.invalidResponse ("storage url " ++ storage.text ++ " has no path"))

def objectPath (target : ObjectTarget) : String :=
  let root : Url := ⟨"http", some "localhost", "/", none, none⟩
  (root.addNames (target.container :: Text.splitAt '/' target.name)).path

def withParameters (url : Url) (parameters : List (String × String)) : Url :=
  let added := Query.encode parameters
  let query := match url.query with
    | some query => if query.isEmpty then added else query ++ "&" ++ added
    | none => added
  { url with query := if query.isEmpty then none else some query }

def request (method container : String) (name : Option String) (headers : Http.Headers)
    (storage : Url) : Except StoreError HttpCall := do
  return ⟨method, ← objectUrl storage container name, headers, ByteArray.empty⟩

def pageSize : Nat := 10000

/-- The parameters for a page of a listing, which begins after `marker`. -/
def pageParameters (options : ListOptions) (marker : Option String) : List (String × String) :=
  [("format", "json"), ("limit", pageSize.repr), ("prefix", options.start)]
    ++ (options.delimiter.map fun d => ("delimiter", String.singleton d)).toList
    ++ (marker.map fun m => ("marker", m)).toList

def pageRequest (container : String) (options : ListOptions) (marker : Option String)
    (storage : Url) : Except StoreError HttpCall := do
  let url ← objectUrl storage container none
  return HttpCall.bare "GET" (withParameters url (pageParameters options marker))

def listPage (config : SwiftConfig) (container : String) (options : ListOptions)
    (marker : Option String) : SwiftAction (List ObjectInfo) := do
  let response ← send config (pageRequest container options marker)
  SwiftAuth.bodyOf SwiftAnswer.page? response

/-- The pages of a listing from `marker` on, up to one that is not full. At most `pages` are asked
for. -/
def listFrom (config : SwiftConfig) (container : String) (options : ListOptions) (pages : Nat)
    (marker : Option String) : SwiftAction (List ObjectInfo) :=
  match pages with
  | 0 => throw (.invalidResponse "listing has too many pages")
  | pages + 1 => do
    let page ← listPage config container options marker
    if page.length < pageSize then return page
    return page ++ (← listFrom config container options pages (page.getLast?.map ObjectInfo.name))

/-- The request for a bulk delete: a line for each target. -/
def bulkRequest (targets : List ObjectTarget) (storage : Url) : HttpCall :=
  ⟨"POST", { storage with query := some "bulk-delete" },
    [("content-type", "text/plain"), ("accept", "application/json")],
    Payload.ofText (String.join (targets.map fun target => objectPath target ++ "\n"))⟩

def putRequest (container name : String) (body : Payload) (options : PutOptions) (storage : Url) :
    Except StoreError HttpCall := do
  return ⟨"PUT", ← objectUrl storage container (some name),
    ("content-type", options.contentType)
      :: (options.manifest.map fun m => (SwiftAnswer.manifestHeader, m.header)).toList, body⟩

/-- Carry out a call. Of a listing at most `pages` pages are asked for. -/
def perform (config : SwiftConfig) (pages : Nat) : (call : StoreCall) → SwiftAction call.Answer
  | .createContainer container => do
    let _ ← send config (request "PUT" container none [("content-length", "0")])
  | .head container name => do
    let response ← send config (request "HEAD" container (some name) [])
    return SwiftAnswer.infoOf name response.headers
  | .get container name range => do
    let headers := (range.map fun r => ("range", r.header)).toList
    return (← send config (request "GET" container (some name) headers)).body
  | .openFrom container name offset => do
    let headers := [("range", (ByteRange.onward offset).header)]
    return ⟨(← send config (request "GET" container (some name) headers)).body, none⟩
  | .put container name body options => do
    let _ ← send config (putRequest container name body options)
  | .copy source target => do
    let headers := [("x-copy-from", objectPath source), ("content-length", "0")]
    let _ ← send config (request "PUT" target.container (some target.name) headers)
  | .delete container name => do
    let _ ← send config (request "DELETE" container (some name) [])
  | .bulkDelete targets => do
    let response ← send config fun storage => .ok (bulkRequest targets storage)
    SwiftAuth.bodyOf SwiftAnswer.summary? response
  | .list container options => listFrom config container options pages none
  | .capabilities => do
    let storage := (← get).storageUrl
    let response ← lift (HttpCall.bare "GET" { storage with path := "/info", query := none }).send
    SwiftAuth.bodyOf SwiftAnswer.capabilities? (← checkStatus response)

/-- The store on a cluster, reached through `server`. -/
def answer {τ : Type} (server : HttpServer τ) (config : SwiftConfig) (pages : Nat) :
    Store (SwiftSession × τ) := fun call (session, t) =>
  let ((reply, session), t) := Interaction.run server ((perform config pages call).run.run session) t
  (reply, (session, t))

def text (config : SwiftConfig) : String := Quoted.record "SwiftStore" [("config", config.text)] false

end SwiftStore

end SegmentedFiles

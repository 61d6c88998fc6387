import SegmentedFiles.Json.Columns
import SegmentedFiles.Json.Reader
import SegmentedFiles.Swift.Config
import SegmentedFiles.Swift.Exchange

/-! Authentication with a Swift cluster: where the account is, and the token that requests on it have
to carry. -/

namespace SegmentedFiles

structure SwiftSession where
  storageUrl : Url
  token : String
  deriving DecidableEq, Repr

namespace SwiftAuth

/-- A failed authentication, by the status it was answered with. -/
def ofFailure : StoreError → StoreError
  | .status code body => .auth ("status " ++ code.repr ++ ": " ++ body)
  | .notFound => .auth "auth endpoint not found"
  | e => e

def sessionAt (url token : String) : Except StoreError SwiftSession :=
  match Url.parse url with
  | .ok storageUrl => .ok ⟨storageUrl, token⟩
  | .error failure =>
    .error (.auth ("invalid storage url \x60" ++ url ++ "\x60: " ++ failure.message))

def exchange (method url : String) (headers : Http.Headers) (body : Payload) :
    HttpAction (Http.Response Payload) := do
  match Url.parse url with
  | .error _ => throw (.http .badRequest)
  | .ok url =>
    let response ← HttpCall.send ⟨method, url, headers, body⟩
    match checkStatus response with
    | .ok response => return response
    | .error e => throw (ofFailure e)

def required (response : Http.Response Payload) (header shown : String) : Except StoreError String :=
  match response.headers.plain? header with
  | some value => .ok value
  | none => .error (.auth ("response has no " ++ shown))

def exchangeJson (url : String) (value : Json) : HttpAction (Http.Response Payload) :=
  exchange "POST" url [("content-type", "application/json")] (Payload.ofText value.text)

def bodyOf {α : Type} (value? : Json → Option α) (response : Http.Response Payload) :
    Except StoreError α :=
  match (Json.parse response.body).toOption.bind value? with
  | some value => .ok value
  | none => .error (.http .badBody)

structure Endpoint where
  /-- Who it is for. Where that is not told, it is for all. -/
  interface : Option String
  region : String
  url : String
  deriving DecidableEq, Repr

structure Service where
  kind : String
  endpoints : List Endpoint
  deriving DecidableEq, Repr

def endpointV2? (value : Json) : Option Endpoint := do
  match ← value.columns? ["region", "publicURL"] with
  | [region, some url] => return ⟨none, ← Json.orElse? "" Json.string? region, ← url.string?⟩
  | _ => none

def endpointV3? (value : Json) : Option Endpoint := do
  match ← value.columns? ["interface", "region", "url"] with
  | [some interface, region, some url] =>
    return ⟨some (← interface.string?), ← Json.orElse? "" Json.string? region, ← url.string?⟩
  | _ => none

def service? (endpoint? : Json → Option Endpoint) (value : Json) : Option Service := do
  match ← value.columns? ["type", "endpoints"] with
  | [some kind, endpoints] =>
    return ⟨← kind.string?, ← Json.orElse? [] (Json.listOf? endpoint?) endpoints⟩
  | _ => none

/-- The catalog, which may be left out. -/
def catalog? (endpoint? : Json → Option Endpoint) (value : Option Json) : Option (List Service) :=
  Json.orElse? [] (Json.listOf? (service? endpoint?)) value

/-- The URL of the object store: the first endpoint of one in the region that is wanted, if any is. -/
def storageUrl? (catalog : List Service) (region : String) : Option String :=
  let endpoints := (catalog.filter fun service => service.kind == "object-store").flatMap Service.endpoints
  let isPublic (e : Endpoint) : Bool := e.interface.all (· == "public")
  (endpoints.find? fun e => isPublic e && (region.isEmpty || e.region == region)).map Endpoint.url

def accessV2? (value : Json) : Option (String × List Service) := do
  match ← value.columns? ["access"] with
  | [some access] =>
    match ← access.columns? ["token", "serviceCatalog"] with
    | [some token, catalog] =>
      match ← token.columns? ["id"] with
      | [some id] => return (← id.string?, ← catalog? endpointV2? catalog)
      | _ => none
    | _ => none
  | _ => none

def catalogV3? (value : Json) : Option (List Service) := do
  match ← value.columns? ["token"] with
  | [some token] =>
    match ← token.columns? ["catalog"] with
    | [catalog] => catalog? endpointV3? catalog
    | _ => none
  | _ => none

/-- Name and key in headers. The answer has URL and token in headers. -/
def authenticateV1 (c : SwiftConfig) : HttpAction SwiftSession := do
  let user := if c.tenant.isEmpty then c.username else c.tenant ++ ":" ++ c.username
  let response ← exchange "GET" c.authUrl [("x-auth-user", user), ("x-auth-key", c.password)]
    ByteArray.empty
  let url ← required response "x-storage-url" "X-Storage-Url"
  let token ← required response "x-auth-token" "X-Auth-Token"
  sessionAt url token

/-- A field that is there only if it has a value. -/
def fieldUnlessEmpty (name value : String) : List (String × Json) :=
  if value.isEmpty then [] else [(name, .string value)]

def requestV2 (c : SwiftConfig) : Json :=
  .object [("auth", .object
    ([("passwordCredentials",
        .object [("password", .string c.password), ("username", .string c.username)])]
      ++ fieldUnlessEmpty "tenantId" c.tenantId ++ fieldUnlessEmpty "tenantName" c.tenant))]

def below (url path : String) : String := Text.trimEnd '/' url ++ path

/-- Name and password as JSON. The answer has token and catalog in its body. -/
def authenticateV2 (c : SwiftConfig) : HttpAction SwiftSession := do
  let response ← exchangeJson (below c.authUrl "/tokens") (requestV2 c)
  let (token, catalog) ← bodyOf accessV2? response
  match storageUrl? catalog c.region with
  | some url => sessionAt url token
  | none => throw (.auth "no object-store endpoint in catalog")

def domainOf (c : SwiftConfig) : Json :=
  if !c.domainId.isEmpty then .object [("id", .string c.domainId)]
  else if !c.domain.isEmpty then .object [("name", .string c.domain)]
  else .object [("id", .string "default")]

/-- The project that the token is to be for, if one is named. -/
def scopeOf (c : SwiftConfig) : List (String × Json) :=
  if !c.tenantId.isEmpty then
    [("scope", .object [("project", .object [("id", .string c.tenantId)])])]
  else if !c.tenant.isEmpty then
    [("scope", .object
      [("project", .object [("domain", domainOf c), ("name", .string c.tenant)])])]
  else []

def requestV3 (c : SwiftConfig) : Json :=
  let user : Json := .object
    [("domain", domainOf c), ("name", .string c.username), ("password", .string c.password)]
  let identity : Json := .object
    [("methods", .array [.string "password"]), ("password", .object [("user", user)])]
  .object [("auth", .object ([("identity", identity)] ++ scopeOf c))]

/-- Name and password as JSON. The answer has the token in a header and the catalog in its body. -/
def authenticateV3 (c : SwiftConfig) : HttpAction SwiftSession := do
  let response ← exchangeJson (below c.authUrl "/auth/tokens") (requestV3 c)
  let token ← required response "x-subject-token" "X-Subject-Token"
  let catalog ← bodyOf catalogV3? response
  match storageUrl? catalog c.region with
  | some url => sessionAt url token
  | none => throw (.auth "no public object-store endpoint in catalog")

/-- Authenticate in the version that the authentication URL asks for. -/
def authenticate (c : SwiftConfig) : HttpAction SwiftSession :=
  match AuthVersion.ofUrl c.authUrl with
  | .v1 => authenticateV1 c
  | .v2 => authenticateV2 c
  | .v3 => authenticateV3 c

end SwiftAuth

end SegmentedFiles

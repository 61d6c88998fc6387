import SegmentedFiles.Settings.Arguments
import SegmentedFiles.Swift.Config
import SegmentedFiles.Volume.Basic

/-! The settings that the program runs with. What the arguments do not give is looked up in the
environment, and what is in neither has a value of its own. -/

namespace SegmentedFiles

inductive SettingsError where
  /-- A variable of the environment does not have the right form. -/
  | badVariable (name value reason : String)
  | missingParameter (name : String)
  | chunkTooSmall (size : Nat)
  deriving DecidableEq, Repr

namespace SettingsError

/-- The fault in words, the most general first. -/
def causes : SettingsError → List String
  | .badVariable name value reason =>
    ["parsing " ++ name ++ " value \x60" ++ value ++ "\x60", reason]
  | .missingParameter name =>
    ["invalid driver parameters", "missing required parameter \x60" ++ name ++ "\x60"]
  | .chunkTooSmall size =>
    ["invalid driver parameters", "chunk size " ++ size.repr ++ " is below the minimum of "
      ++ Volume.minChunkSize.repr ++ " bytes"]

end SettingsError

/-- The settings of the volume and of the cluster that it may be kept in. -/
structure VolumeSettings where
  username : String
  password : String
  authUrl : String
  tenant : String
  tenantId : String
  domain : String
  domainId : String
  region : String
  container : String
  root : String
  insecureSkipVerify : Bool
  chunkSize : Nat
  deriving DecidableEq, Repr

namespace VolumeSettings

def flagText (b : Bool) : String := if b then "true" else "false"

def text (s : VolumeSettings) : String :=
  Quoted.record "DriverParameters"
    [("username", Quoted.text s.username), ("password", Quoted.text "<redacted>"),
      ("auth_url", Quoted.text s.authUrl), ("tenant", Quoted.text s.tenant),
      ("tenant_id", Quoted.text s.tenantId), ("domain", Quoted.text s.domain),
      ("domain_id", Quoted.text s.domainId), ("region", Quoted.text s.region),
      ("container", Quoted.text s.container), ("prefix", Quoted.text s.root),
      ("insecure_skip_verify", flagText s.insecureSkipVerify), ("chunk_size", s.chunkSize.repr)] true

/-- What has to be given for a store of a kind, with what is given. -/
def required (s : VolumeSettings) (kind : StoreKind) : List (String × String) :=
  ("container", s.container) ::
    if kind = .swift then
      [("username", s.username), ("password", s.password), ("auth_url", s.authUrl)]
    else []

def fault? (s : VolumeSettings) (kind : StoreKind) : Option SettingsError :=
  match (s.required kind).find? fun parameter => parameter.2.isEmpty with
  | some parameter => some (.missingParameter parameter.1)
  | none => if s.chunkSize < Volume.minChunkSize then some (.chunkTooSmall s.chunkSize) else none

def volumeOptions (s : VolumeSettings) : VolumeOptions := ⟨s.container, s.root, s.chunkSize⟩

def connectTimeout : Nat := 60

def requestTimeout : Nat := 15 * 60

def swiftConfig (s : VolumeSettings) : SwiftConfig :=
  ⟨s.username, s.password, s.authUrl, s.tenant, s.tenantId, s.domain, s.domainId, s.region,
    s.insecureSkipVerify, connectTimeout, requestTimeout⟩

end VolumeSettings

structure Settings where
  host : String
  port : Nat
  backend : StoreKind
  storageDir : String
  databaseUrl : String
  volume : VolumeSettings
  /-- Prepare the store and end. -/
  migrate : Bool
  deriving DecidableEq, Repr

namespace Settings

/-- The settings in words, without the password. -/
def text (s : Settings) : String :=
  Quoted.record "AppConfig"
    [("host", Quoted.text s.host), ("port", s.port.repr), ("backend", s.backend.text),
      ("storage_dir", Quoted.text s.storageDir), ("database_url", Quoted.text s.databaseUrl),
      ("driver", s.volume.text)] true

def address (s : Settings) : String := s.host ++ ":" ++ s.port.repr

def lookUp {α : Type} (environment : String → Option String) (name : String)
    (read : String → Except String α) : Except SettingsError (Option α) :=
  match environment name with
  | none => .ok none
  | some value =>
    match read value with
    | .ok a => .ok (some a)
    | .error reason => .error (.badVariable name value reason)

def readNumber (bound : Nat) (value : String) : Except String Nat :=
  (Decimal.parse bound value).mapError Decimal.Failure.message

/-- A kind of store, letter case apart. -/
def readKind (value : String) : Except String StoreKind :=
  match StoreKind.find? value.toLower with
  | some kind => .ok kind
  | none => .error ("invalid variant: " ++ value)

def readFlag (value : String) : Except String Bool :=
  if value = "true" then .ok true
  else if value = "false" then .ok false
  else .error "provided string was not \x60true\x60 or \x60false\x60"

/-- The value of a parameter: as the arguments give it, or else as the environment does, or else
`fallback`. -/
def choose {α : Type} (given : Option α) (environment : String → Option String) (name : String)
    (read : String → Except String α) (fallback : α) : Except SettingsError α :=
  match given with
  | some a => .ok a
  | none => return (← lookUp environment name read).getD fallback

def merge (a : Arguments) (environment : String → Option String) : Except SettingsError Settings := do
  let text (p : TextParameter) (fallback : String) : String :=
    ((a.text? p).orElse fun _ => environment (Parameter.text p).environmentName).getD fallback
  let backend ← choose a.backend environment Parameter.backend.environmentName readKind .swift
  let port ← choose a.port environment Parameter.port.environmentName (readNumber Decimal.max16) 3000
  let chunkSize ← choose a.chunkSize environment Parameter.chunkSize.environmentName
    (readNumber Decimal.max64) Volume.defaultChunkSize
  let insecure ← choose (if a.insecureSkipVerify then some true else none) environment
    Flag.insecureVariable readFlag false
  let volume : VolumeSettings :=
    ⟨text .username "", text .password "", text .authUrl "", text .tenant "", text .tenantId "",
      text .domain "", text .domainId "", text .region "", text .container "", text .root "",
      insecure, chunkSize⟩
  match volume.fault? backend with
  | some fault => throw fault
  | none =>
    return ⟨text .host "0.0.0.0", port, backend, text .storageDir "./data/objects",
      text .databaseUrl "sqlite://./data/meta/segment_fs.db", volume, a.migrate⟩

end Settings

end SegmentedFiles

import SegmentedFiles.Text.Name
import SegmentedFiles.Text.Quoted

/-! What it takes to connect to a Swift cluster. -/

namespace SegmentedFiles

structure SwiftConfig where
  username : String
  password : String
  authUrl : String
  tenant : String
  tenantId : String
  domain : String
  domainId : String
  region : String
  /-- Take any certificate. -/
  insecureSkipVerify : Bool
  /-- How long to wait for a connection, in seconds. -/
  connectTimeout : Nat
  /-- How long to wait for an answer, in seconds. -/
  timeout : Nat
  deriving DecidableEq, Repr

/-- The settings in words, without the password. -/
def SwiftConfig.text (c : SwiftConfig) : String :=
  Quoted.record "SwiftConfig"
    [("username", Quoted.text c.username), ("auth_url", Quoted.text c.authUrl),
      ("tenant", Quoted.text c.tenant), ("tenant_id", Quoted.text c.tenantId),
      ("domain", Quoted.text c.domain), ("domain_id", Quoted.text c.domainId),
      ("region", Quoted.text c.region),
      ("insecure_skip_verify", if c.insecureSkipVerify then "true" else "false")] false

inductive AuthVersion where
  | v1
  | v2
  | v3
  deriving DecidableEq, Repr

/-- The version that an authentication URL asks for: it has a name of its path for it. -/
def AuthVersion.ofUrl (url : String) : AuthVersion :=
  let names := (Text.splitAt '/' (Text.trimEnd '/' url)).drop 1
  if names.contains "v3" then .v3
  else if names.contains "v2.0" then .v2
  else .v1

end SegmentedFiles

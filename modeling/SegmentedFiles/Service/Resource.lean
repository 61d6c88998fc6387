import SegmentedFiles.Text.Name

/-! What the service offers over HTTP, and under which paths. -/

namespace SegmentedFiles.Service

/-- What a request can be about. The paths of files are as they stand in the URL. -/
inductive Resource where
  /-- Whether the service runs. -/
  | health
  /-- Whether the store answers. -/
  | readiness
  /-- Content. -/
  | file (path : String)
  /-- A description. -/
  | info (path : String)
  /-- What lies below a directory, or below the root. -/
  | directory (path : Option String)
  /-- Moving files. -/
  | move
  deriving DecidableEq, Repr

namespace Resource

/-- What follows `start` in `path`, if that is something. -/
def below? (start path : String) : Option String :=
  (Text.after? start path).bind fun rest => if rest.isEmpty then none else some rest

def find? (path : String) : Option Resource :=
  if path = "/healthz" then some .health
  else if path = "/readyz" then some .readiness
  else if path = "/move" then some .move
  else if path = "/list" then some (.directory none)
  else
    ((below? "/files/" path).map file).orElse fun _ =>
      ((below? "/stat/" path).map info).orElse fun _ =>
        (below? "/list/" path).map fun rest => .directory (some rest)

def methods : Resource → List String
  | .file _ => ["GET", "HEAD", "PUT", "PATCH", "DELETE"]
  | .move => ["POST"]
  | .health | .readiness | .info _ | .directory _ => ["GET", "HEAD"]

end Resource

/-- A target from its path on. In a whole URL the path comes after the host; one that is left out is the
root. -/
def afterHost (target : List Char) : List Char :=
  match target.span fun c => c != ':' && c != '/' with
  | (_, ':' :: '/' :: '/' :: rest) =>
    match rest.dropWhile fun c => c != '/' && c != '?' && c != '#' with
    | '/' :: path => '/' :: path
    | behind => '/' :: behind
  | _ => target

/-- The path and the query of a request's target. A fragment is not looked at. -/
def splitTarget (target : String) : String × String :=
  let asked := String.ofList (afterHost target.toList)
  let sent := ((Text.splitFirst? '#' asked).map Prod.fst).getD asked
  (Text.splitFirst? '?' sent).getD (sent, "")

end SegmentedFiles.Service

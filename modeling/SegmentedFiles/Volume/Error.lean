import SegmentedFiles.Store.Error

/-! Why an operation on files fails, and the words for it. -/

namespace SegmentedFiles

inductive VolumeError where
  | pathNotFound (path : String)
  | unsupported
  | invalidPath (path : String)
  | invalidOption (reason : String)
  /-- A call on the store failed. -/
  | store (path : String) (source : StoreError)
  /-- The data to be written could not be read. -/
  | io (path : String) (source : IoFailure)
  deriving DecidableEq, Repr

namespace VolumeError

/-- The name under which volumes of this kind are known. -/
def driverName : String := "swift"

/-- The error at `path` when a call on the store fails: that nothing is there, where the store says so,
and else the store's own. -/
def ofStore (path : String) (error : StoreError) : VolumeError :=
  if error.statusCode? = some 404 then .pathNotFound path else .store path error

def message : VolumeError → String
  | .pathNotFound path => "path not found: " ++ path
  | .unsupported => "operation unsupported by the " ++ driverName ++ " driver"
  | .invalidPath path => "invalid path: " ++ path
  | .invalidOption reason => "invalid driver option: " ++ reason
  | .store path source => path ++ ": " ++ source.message
  | .io path source => "reading data for " ++ path ++ ": " ++ source.message

def causes (e : VolumeError) : List String :=
  e.message ::
    match e with
    | .store _ source => [source.message]
    | .io _ source => [source.message]
    | _ => []

end VolumeError

/-- A write that failed after some of its bytes were stored. Writing the rest at the offset after them
takes it up again. -/
structure WriteFailure where
  written : Nat
  source : VolumeError
  deriving DecidableEq, Repr

def WriteFailure.message (failure : WriteFailure) : String :=
  "write stopped after " ++ failure.written.repr ++ " bytes: " ++ failure.source.message

end SegmentedFiles

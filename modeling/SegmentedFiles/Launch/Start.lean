import SegmentedFiles.Launch.Host
import SegmentedFiles.Settings.Basic

/-! How the program starts: it opens the store, makes the volume, and offers the service. -/

namespace SegmentedFiles

/-- A step of the start. It may fail, with the reasons in words, the most general first. -/
abbrev Launch (α : Type) : Type := ExceptT (List String) (Interaction HostCall HostCall.Answer) α

namespace Launch

def ask (call : HostCall) : Launch call.Answer := ExceptT.lift (Interaction.request call)

def orFail {ε α : Type} (causes : ε → List String) : Except ε α → Launch α
  | .ok a => pure a
  | .error e => throw (causes e)

/-- The directory that a path lies in, if it names one. -/
def parent? (path : String) : Option String :=
  let names := (Text.splitAt '/' path).filter fun name => name != "" && name != "."
  let start := if Text.startsWith path "/" then "/" else ""
  let parent := start ++ "/".intercalate names.dropLast
  if names.isEmpty || parent.isEmpty then none else some parent

/-- Make a directory that is not there, with those it lies in. -/
def provideDirectory (path : String) : Launch Unit := do
  if !(← ask (.fileExists path)) then
    orFail (fun e => [e.message]) (← ask (.makeDirectories path))

def openReasons (s : Settings) : OpenFailure → List String
  | .cluster source => ["connecting to Swift", source.message]
  | .database source => ("connecting to " ++ s.databaseUrl) :: source.reasons
  | .table source => "running migrations" :: source.reasons
  | .other source => [source.message]

/-- Where the settings ask for the store. For a store on disk its directory and the file of its database
are made where they are missing; if the file cannot be made, opening the database says why. -/
def storePlace (s : Settings) : Launch StorePlace :=
  match s.backend with
  | .swift => return .cluster s.volume.swiftConfig
  | .memory => return .memory
  | .onDisk => do
    provideDirectory s.storageDir
    let file := DatabasePlace.fileOf s.databaseUrl
    if let some directory := parent? file then
      provideDirectory directory
    let _ ← ask (.makeFile file)
    let database ← orFail (fun e => openReasons s (.database e)) (DatabasePlace.ofUrl s.databaseUrl)
    return .directory s.storageDir database

def openStore (s : Settings) : Launch Unit := do
  orFail (openReasons s) (← ask (.openStore (← storePlace s)))

def createVolume (s : Settings) : Launch Volume := do
  let program : StoreProgram (Except VolumeError Volume) := (Volume.create s.volume.volumeOptions).run
  let result ← ExceptT.lift (program.asking fun call => Interaction.request (.onStore call))
  orFail (fun e => "initializing storage driver" :: e.causes) result

/-- Hosts that stand for all addresses of the machine. -/
def anyAddress : List String := ["0.0.0.0", "::"]

/-- Offer the service at an address. Where all addresses of the machine are not allowed, the inner one
will do. -/
def listen (s : Settings) : Launch Unit := do
  let failed (e : ListenFailure) : List String := [e.message]
  match ← ask (.listen s.host s.port) with
  | .error .permissionDenied =>
    if anyAddress.contains s.host then orFail failed (← ask (.listen "127.0.0.1" s.port))
    else throw (failed .permissionDenied)
  | result => orFail failed result

/-- Start the program. Its result is the volume that is offered, or none where the store was only to be
prepared. -/
def start (s : Settings) : Launch (Option Volume) := do
  if s.migrate && s.backend != .onDisk then
    throw ["--migrate only applies to the local backend"]
  openStore s
  if s.migrate then return none
  let volume ← createVolume s
  listen s
  return some volume

end Launch

end SegmentedFiles

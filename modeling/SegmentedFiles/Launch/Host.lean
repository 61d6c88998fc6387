import SegmentedFiles.Disk.Walk
import SegmentedFiles.Interaction
import SegmentedFiles.Launch.Database
import SegmentedFiles.Local.Store
import SegmentedFiles.Store.Memory
import SegmentedFiles.Swift.Config

/-! What the program asks of the host that it is started on, and a host that is given as a value: a
tree of files, and the ports that are taken. -/

namespace SegmentedFiles

inductive StorePlace where
  | cluster (config : SwiftConfig)
  /-- In a directory and a database. -/
  | directory (path : String) (database : DatabasePlace)
  | memory

inductive OpenFailure where
  /-- There is no session with the cluster. -/
  | cluster (source : StoreError)
  /-- The database is not opened. -/
  | database (source : DatabaseFailure)
  /-- The table is not in the database and cannot be put there. -/
  | table (source : DatabaseFailure)
  | other (source : IoFailure)
  deriving DecidableEq, Repr

inductive ListenFailure where
  | addressInUse
  /-- The machine does not have the address. -/
  | addressNotThere
  | permissionDenied
  /-- The host is not known. -/
  | unknownHost
  | other (text : String)
  deriving DecidableEq, Repr

def ListenFailure.message : ListenFailure → String
  | .addressInUse => "Address already in use (os error 98)"
  | .addressNotThere => "Cannot assign requested address (os error 99)"
  | .permissionDenied => "Permission denied (os error 13)"
  | .unknownHost => "failed to lookup address information: Temporary failure in name resolution"
  | .other text => text

inductive HostCall where
  | fileExists (path : String)
  | makeDirectories (path : String)
  /-- Make a file that is not there. -/
  | makeFile (path : String)
  /-- Open the store that is used from now on. -/
  | openStore (place : StorePlace)
  /-- A call on the store. -/
  | onStore (call : StoreCall)
  | listen (host : String) (port : Nat)

namespace HostCall

abbrev Answer : HostCall → Type
  | .fileExists _ => Bool
  | .makeDirectories _ => Except IoFailure Unit
  | .makeFile _ => Except IoFailure Unit
  | .openStore _ => Except OpenFailure Unit
  | .onStore call => call.Reply
  | .listen _ _ => Except ListenFailure Unit

end HostCall

abbrev HostProgram (α : Type) : Type := Interaction HostCall HostCall.Answer α

inductive OpenStore where
  | none
  | memory (store : MemoryStore)
  /-- A store in a directory. Its tree is that of the host below the directory. -/
  | directory (path : List String) (store : LocalStore)

/-- A host: its files, the directory that the program is started in, and the ports that are taken. It
has no network, and no addresses but those by which it reaches itself. -/
structure Host where
  disk : Disk
  current : List String
  takenPorts : List Nat
  store : OpenStore
  now : Timestamp

namespace Host

def resolve (h : Host) (path : String) : List String := (WrittenPath.ofText path).place h.current

def onDisk (h : Host) (change : Disk → Except DiskFailure Unit × Disk) : Except IoFailure Unit × Host :=
  let (result, disk) := change h.disk
  (result.mapError IoFailure.disk, { h with disk })

def makeFile (h : Host) (path : String) : Except IoFailure Unit × Host :=
  match h.disk.provideFile h.current (WrittenPath.ofText path) with
  | .ok disk => (.ok (), { h with disk })
  | .error failure => (.error (.disk failure), h)

/-- The largest size of the full path of a database. The path of its journal, which is longer by eight,
has to have room in 512 bytes. -/
def maxDatabasePath : Nat := 504

def fullSize (path : List String) : Nat :=
  path.foldl (fun size name => size + 1 + name.utf8ByteSize) 0

/-- Open a database. Its path is taken apart as a text, and a place on the way need not be there where
the next step leads up again. -/
def openDatabase (h : Host) : DatabasePlace → Except OpenFailure Unit × Host
  | .transient => (.ok (), h)
  | .file path o =>
    let path := h.resolve path
    /- The table is not in a file that is not to be changed. -/
    let table : Except OpenFailure Unit :=
      if o.readOnly || o.immutable then .error (.table .cannotWrite) else .ok ()
    if maxDatabasePath < fullSize path then (.error (.database .cannotOpen), h)
    else
      match h.disk.find path with
      | .ok (.file _) => (table, h)
      | .ok .directory =>
        let readable := o.readOnly && !path.isEmpty
        (.error (.database (if readable then .cannotRead else .cannotOpen)), h)
      | .error _ =>
        if o.create && !o.readOnly then
          match h.disk.writeFile path ByteArray.empty with
          | .ok disk => (table, { h with disk })
          | .error _ => (.error (.database .cannotOpen), h)
        else (.error (.database .cannotOpen), h)

def openStore (h : Host) : StorePlace → Except OpenFailure Unit × Host
  | .cluster _ => (.error (.cluster (.http .unreachable)), h)
  | .memory => (.ok (), { h with store := .memory (MemoryStore.empty true h.now) })
  | .directory path database =>
    match h.openDatabase database with
    | (.error e, h) => (.error e, h)
    | (.ok (), h) => (.ok (), { h with store := .directory (h.resolve path) (LocalStore.empty h.now) })

/-- The numbers of an address of version 4 in decimal. -/
def addressNumbers? (host : String) : Option (List Nat) := do
  let numbers ← (Text.splitAt '.' host).mapM fun part =>
    match Decimal.parse 255 part with
    | .ok n => if n.repr = part then some n else none
    | .error _ => none
  if numbers.length = 4 then some numbers else none

/-- Names and addresses of version 6 by which the host reaches itself. -/
def ownNames : List String := ["localhost", "::", "::1"]

def listen (h : Host) (host : String) (port : Nat) : Except ListenFailure Unit :=
  let taken : Except ListenFailure Unit :=
    if h.takenPorts.contains port then .error .addressInUse else .ok ()
  match addressNumbers? host with
  | some numbers =>
    if numbers = [0, 0, 0, 0] || numbers.head? = some 127 then taken else .error .addressNotThere
  | none => if ownNames.contains host then taken else .error .unknownHost

def onStore (h : Host) (call : StoreCall) : call.Reply × Host :=
  match h.store with
  | .none => (.error .notFound, h)
  | .memory store =>
    let (reply, store) := store.answer call
    (reply, { h with store := .memory store })
  | .directory path store =>
    let (reply, store) := LocalStore.answer call { store with disk := h.disk.below path }
    (reply, { h with store := .directory path store, disk := h.disk.graft path store.disk })

def answer : (call : HostCall) → Host → call.Answer × Host
  | .fileExists path, h => ((h.disk.look h.current (WrittenPath.ofText path)).toBool, h)
  | .makeDirectories path, h => h.onDisk fun d => d.provide h.current (WrittenPath.ofText path)
  | .makeFile path, h => h.makeFile path
  | .openStore place, h => h.openStore place
  | .onStore call, h => h.onStore call
  | .listen host port, h => (h.listen host port, h)

end Host

end SegmentedFiles

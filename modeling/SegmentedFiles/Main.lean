import SegmentedFiles.Disk.Change
import SegmentedFiles.Launch.Report
import SegmentedFiles.Local.Table
import SegmentedFiles.Service.Respond
import Std.Http

/-! The program on a machine. It asks the machine for its environment, its files and its addresses, and
offers the service over HTTP. A store on disk is read when it is opened; after that each change of its
tree is made to the files, and its table is kept in the file of the database. There is no way to a
cluster. -/

namespace SegmentedFiles.Main

def variableNames : List String := Flag.insecureVariable :: Parameter.all.map Parameter.environmentName

def readEnvironment : IO (String → Option String) := do
  let values ← variableNames.filterMapM fun name => return (← IO.getEnv name).map ((name, ·))
  return fun name => values.lookup name

def clock : IO Timestamp := do
  let nanos := (← Std.Time.Timestamp.now).toNanosecondsSinceUnixEpoch.toInt
  return ⟨nanos / Timestamp.billion, (nanos % Timestamp.billion).toNat⟩

/-! ## Files -/

def failureOf : IO.Error → IoFailure
  | .noFileOrDirectory _ _ _ | .noSuchThing _ _ _ => .disk .noEntry
  | .alreadyExists _ _ _ => .disk .exists
  | .inappropriateType _ 21 _ => .disk .isDirectory
  | .inappropriateType _ _ _ => .disk .notDirectory
  | e => .other (toString e)

def attempt (action : IO Unit) : IO (Except IoFailure Unit) := do
  try
    action
    return .ok ()
  catch e => return .error (failureOf e)

def fileExists (path : String) : IO Bool := do
  try
    let _ ← IO.FS.realPath path
    return !path.isEmpty
  catch _ => return false

def pathBelow (root : String) (path : List String) : String := "/".intercalate (root :: path)

/-- The tree below a directory. -/
partial def readTree (root : String) (path : List String) (tree : Disk) : IO Disk := do
  let mut tree := tree
  for entry in ← (← IO.FS.realPath (pathBelow root path)).readDir do
    let here := path ++ [entry.fileName]
    if ← entry.path.isDir then
      tree ← readTree root here ⟨tree.entries.insert here .directory⟩
    else
      tree := ⟨tree.entries.insert here (.file (← IO.FS.readBinFile entry.path))⟩
  return tree

def carryOut (root : String) : DiskChange → IO Unit
  | .remove path .directory => IO.FS.removeDir (pathBelow root path)
  | .remove path (.file _) => IO.FS.removeFile (pathBelow root path)
  | .provide path .directory => IO.FS.createDirAll (pathBelow root path)
  | .provide path (.file content) => IO.FS.writeBinFile (pathBelow root path) content

/-! ## Stores -/

/-- The store that is open. -/
inductive OpenedStore where
  | none
  | memory (store : MemoryStore)
  /-- A store in a directory, with the file that its table is kept in. -/
  | directory (root : String) (table : Option String) (store : LocalStore)

structure Machine where
  opened : OpenedStore
  /-- Where the service is offered. -/
  address : Option Std.Net.SocketAddress

/-- Read the table that is kept in a file, if there is one in it. Where there is none, it has to be
allowed to change the file. -/
def readTable (path : String) (o : DatabaseOptions) (store : LocalStore) :
    IO (Except OpenFailure LocalStore) := do
  let bytes ← IO.FS.readBinFile path
  if bytes.isEmpty then
    return if o.readOnly || o.immutable then .error (.table .cannotWrite) else .ok store
  match (Json.parse bytes).toOption.bind store.withTable? with
  | some store => return .ok store
  | none => return .error (.table .notDatabase)

def openDirectory (root : String) (database : DatabasePlace) :
    IO (Except OpenFailure OpenedStore) := do
  try
    let store := { LocalStore.empty (← clock) with disk := ← readTree root [] Disk.empty }
    match database with
    | .transient => return .ok (.directory root none store)
    | .file path o =>
      if o.create && !o.readOnly then
        let _ ← IO.FS.Handle.mk path .append
      if !(← fileExists path) then return .error (.database .cannotOpen)
      return (← readTable path o store).map (.directory root (some path))
  catch e => return .error (.other (failureOf e))

/-- Whether a call can change what is in the store. -/
def isWrite : StoreCall → Bool
  | .createContainer _ | .put _ _ _ _ | .copy _ _ | .delete _ _ | .bulkDelete _ => true
  | .head _ _ | .get _ _ _ | .openFrom _ _ _ | .list _ _ | .capabilities => false

def onStore (call : StoreCall) : StateT OpenedStore IO call.Reply := fun opened => do
  match opened with
  | .none => return (.error .notFound, .none)
  | .memory store =>
    let (reply, store) := MemoryStore.answer call { store with now := ← clock }
    return (reply, .memory store)
  | .directory root table store =>
    let (reply, next) := LocalStore.answer call { store with now := ← clock }
    if !isWrite call then return (reply, .directory root table next)
    try
      (store.disk.changes next.disk).forM (carryOut root)
      if let some path := table then
        IO.FS.writeBinFile path (Payload.ofText next.table.text)
      return (reply, .directory root table next)
    catch e => return (.error (.io (failureOf e)), .directory root table store)

/-! ## Addresses -/

/-- The address of a host, which is given by a number or a name. -/
def addressOf (host : String) (port : Nat) : IO Std.Net.SocketAddress := do
  let port16 := UInt16.ofNat port
  let ofAddress : Std.Net.IPAddr → Std.Net.SocketAddress
    | .v4 address => .v4 ⟨address, port16⟩
    | .v6 address => .v6 ⟨address, port16⟩
  match Std.Net.IPv4Addr.ofString host, Std.Net.IPv6Addr.ofString host with
  | some address, _ => return ofAddress (.v4 address)
  | none, some address => return ofAddress (.v6 address)
  | none, none =>
    let found ← (Std.Async.DNS.getAddrInfo host port.repr).block
    match found.toList with
    | address :: _ => return ofAddress address
    | [] => throw (IO.userError "failed to lookup address information")

def tryAddress (address : Std.Net.SocketAddress) : IO Unit := do
  let server ← Std.Async.TCP.Socket.Server.mk
  server.bind address
  server.listen 1

def listenFailureOf : IO.Error → ListenFailure
  | .resourceBusy _ _ => .addressInUse
  | .permissionDenied _ _ _ => .permissionDenied
  | e => .other (toString e)

/-! ## The program -/

def answer : (call : HostCall) → StateT Machine IO call.Answer
  | .fileExists path => fileExists path
  | .makeDirectories path => attempt (if path.isEmpty then pure () else IO.FS.createDirAll path)
  | .makeFile path => attempt (do let _ ← IO.FS.Handle.mk path .append)
  | .openStore (.cluster _) => return .error (.cluster (.http .unreachable))
  | .openStore .memory => fun machine => do
    return (.ok (), { machine with opened := .memory (MemoryStore.empty true (← clock)) })
  | .openStore (.directory path database) => fun machine => do
    match ← openDirectory path database with
    | .ok opened => return (.ok (), { machine with opened })
    | .error e => return (.error e, machine)
  | .onStore call => fun machine => do
    let (reply, opened) ← onStore call machine.opened
    return (reply, { machine with opened })
  | .listen host port => fun machine => do
    try
      let address ← addressOf host port
      tryAddress address
      return (.ok (), { machine with address := some address })
    catch e => return (.error (listenFailureOf e), machine)

def requestOf (request : Std.Http.Request Std.Http.Body.Stream) :
    Std.Async.ContextAsync (Http.Request Source) := do
  let headers := request.line.headers.toList.map fun (name, value) => (toString name, toString value)
  let body ← try
      let bytes : ByteArray ← request.body.readAll
      pure (Source.ofPieces [bytes] none)
    catch e => pure (Source.ofPieces [] (some (failureOf e)))
  return ⟨toString request.line.method, toString request.line.uri, Http.Headers.ofList headers, body⟩

/-- The bytes of an answer's body. Where the body breaks off, so does the connection. -/
def bytesOf : Service.Content → IO Payload
  | .whole bytes => return bytes
  | .stream ⟨bytes, none⟩ => return bytes
  | .stream ⟨_, some failure⟩ => throw (IO.userError failure.message)

/-- An answer as it is sent. Its headers tell the size of its body, if that is to be told. -/
def responseOf (reply : Service.Reply) :
    Std.Async.ContextAsync (Std.Http.Response Std.Http.Body.Any) := do
  let bytes ← bytesOf reply.body
  let body ← Std.Http.Body.stream fun stream => do
    if bytes.size != 0 then stream.send (Std.Http.Chunk.ofByteArray bytes)
  let status := (Std.Http.Status.ofCode none (UInt16.ofNat reply.status)).getD .internalServerError
  let builder := reply.headers.foldl
    (fun (builder : Std.Http.Response.Builder) header =>
      (builder.header? header.1 header.2).getD builder)
    (Std.Http.Response.withStatus status)
  return builder.body (.ofBody body)

/-- Offer the service. Requests are carried out one at a time. -/
def serve (v : Volume) (opened : OpenedStore) (address : Std.Net.SocketAddress) : IO Unit := do
  let store ← Std.Mutex.new opened
  let respond (request : Std.Http.Request Std.Http.Body.Stream) :
      Std.Async.ContextAsync (Std.Http.Response Std.Http.Body.Any) := do
    let program := Service.respond v (← requestOf request)
    let reply : Service.Reply ← (store.atomically (do
      let (reply, opened) ← (program.runIn onStore).run (← get)
      set opened
      return reply) : IO Service.Reply)
    responseOf reply
  Std.Async.Async.block do
    let config : Std.Http.Config := { maxBodySize := 1024 * 1024 * 1024 * 1024, serverName := none }
    let server ← Std.Http.Server.serve address (Std.Http.Server.Handler.ofFn respond) config
    server.waitShutdown

def run (arguments : List String) : IO UInt32 := do
  let environment ← readEnvironment
  let (result, machine) ←
    ((commandLine arguments environment).runIn answer).run ⟨.none, none⟩
  match result, machine.address with
  | .error e, _ =>
    IO.print e.output
    IO.eprint e.errors
    return UInt32.ofNat e.status
  | .ok v, some address =>
    serve v machine.opened address
    return 0
  | .ok _, none => return 0

end SegmentedFiles.Main

def main (arguments : List String) : IO UInt32 := SegmentedFiles.Main.run arguments

import SegmentedFiles.Http.Query
import SegmentedFiles.Text.Quoted

/-! The URL of the database in which a store on disk keeps its table: which file it names, and how that
is opened. -/

namespace SegmentedFiles

inductive DatabaseFailure where
  /-- A parameter of the URL has a value that it cannot have. -/
  | unknownValue (parameter value : String)
  | unknownParameter (name : String)
  /-- The name of the file is not text. -/
  | notText (damage : Utf8.Damage)
  /-- The name of the file has a zero in it. -/
  | holdsZero
  /-- The database itself refuses. -/
  | refused (code : Nat) (reason : String)
  deriving DecidableEq, Repr

namespace DatabaseFailure

/-- There is no file, or none can be made. -/
def cannotOpen : DatabaseFailure := .refused 14 "unable to open database file"

/-- What is there cannot be read as a file. -/
def cannotRead : DatabaseFailure := .refused 266 "disk I/O error"

/-- The database is not to be changed. -/
def cannotWrite : DatabaseFailure := .refused 8 "attempt to write a readonly database"

/-- The file holds something else. -/
def notDatabase : DatabaseFailure := .refused 26 "file is not a database"

def kindAndReason : DatabaseFailure → String × String
  | .unknownValue parameter value =>
    ("error with configuration",
      "unknown value " ++ Quoted.text value ++ " for \x60" ++ parameter ++ "\x60")
  | .unknownParameter name =>
    ("error with configuration",
      "unknown query parameter \x60" ++ name ++ "\x60 while parsing connection URL")
  | .notText damage => ("error with configuration", damage.message)
  | .holdsZero =>
    ("error communicating with database", "filename passed to SQLite must not contain nul bytes")
  | .refused code reason =>
    ("error returned from database", "(code: " ++ code.repr ++ ") " ++ reason)

/-- The failure in words, and then the reason by itself. -/
def reasons (failure : DatabaseFailure) : List String :=
  let (kind, reason) := failure.kindAndReason
  [kind ++ ": " ++ reason, reason]

end DatabaseFailure

structure DatabaseOptions where
  /-- It is kept in memory. -/
  inMemory : Bool
  readOnly : Bool
  /-- Its file is made if it is not there. -/
  create : Bool
  /-- Its file is never changed by anyone. -/
  immutable : Bool
  /-- The layer through which files are reached. -/
  layer : Option String
  deriving DecidableEq, Repr

namespace DatabaseOptions

/-- A file that has to be there. -/
def usual : DatabaseOptions := ⟨false, false, false, false, none⟩

def layers : List String := ["unix", "unix-none", "unix-dotfile", "unix-excl", memoryLayer]
where
  /-- The layer that keeps files in memory. -/
  memoryLayer : String := "memdb"

def withParameter (o : DatabaseOptions) (parameter : String × String) :
    Except DatabaseFailure DatabaseOptions :=
  match parameter with
  | ("mode", "ro") => .ok { o with readOnly := true }
  | ("mode", "rw") => .ok o
  | ("mode", "rwc") => .ok { o with create := true }
  | ("mode", "memory") => .ok { o with inMemory := true }
  | ("cache", "private") | ("cache", "shared") => .ok o
  | ("immutable", "true") | ("immutable", "1") => .ok { o with immutable := true }
  | ("immutable", "false") | ("immutable", "0") => .ok { o with immutable := false }
  | ("vfs", layer) => .ok { o with layer := some layer }
  | (name, value) =>
    if ["mode", "cache", "immutable"].contains name then .error (.unknownValue name value)
    else .error (.unknownParameter name)

def checkLayer (o : DatabaseOptions) : Except DatabaseFailure Unit :=
  match o.layer with
  | none => .ok ()
  | some layer =>
    if layers.contains layer then .ok ()
    else .error (.refused 1 ("no such vfs: " ++ layer.replace " " "+"))

end DatabaseOptions

inductive DatabasePlace where
  /-- Nowhere on disk, or in a file that is gone with the connection. -/
  | transient
  | file (path : String) (options : DatabaseOptions)
  deriving DecidableEq, Repr

namespace DatabasePlace

/-- The path that is seen to before the database is opened. -/
def fileOf (url : String) : String := Text.trimLeading "file:" (Text.trimLeading "sqlite://" url)

def memoryName : String := ":memory:"

/-- The path in a URI of a file, from behind its scheme on. Between two slashes and the path nothing but
the machine itself can be named. -/
def pathOfUri (uri : String) : Except DatabaseFailure String := do
  let path ← match Text.after? "//" uri with
    | none => pure uri
    | some rest =>
      let authority := String.ofList (rest.toList.takeWhile (· != '/'))
      if authority.isEmpty || authority = "localhost" then
        pure (String.ofList (rest.toList.dropWhile (· != '/')))
      else throw (.refused 1 ("invalid uri authority: " ++ authority))
  let written := String.ofList (path.toList.takeWhile fun c => c != '?' && c != '#')
  return Utf8.decode (Percent.decode written.toUTF8.data.toList)

/-- The path of the file that a name stands for. A name may be a URI, unless options are added to it. -/
def pathOfName (name : String) (o : DatabaseOptions) : Except DatabaseFailure String := do
  if o.immutable || o.layer.isSome then
    o.checkLayer
    return name
  else if name.toList.contains '\x00' then throw .holdsZero
  else
    match Text.after? "file:" name with
    | some uri => pathOfUri uri
    | none => return name

/-- Where the database of a name is. One without a name is not kept. -/
def ofName (name : String) (o : DatabaseOptions) : Except DatabaseFailure DatabasePlace := do
  let path ← pathOfName name o
  let transient := o.inMemory || path.isEmpty || path == memoryName
    || o.layer == some DatabaseOptions.layers.memoryLayer
  return if transient then .transient else .file path o

/-- Where the database of a URL is. Escapes in its name are replaced. -/
def ofUrl (url : String) : Except DatabaseFailure DatabasePlace := do
  let rest := Text.trimLeading "sqlite:" (Text.trimLeading "sqlite://" url)
  let (written, query) := (Text.splitFirst? '?' rest).getD (rest, "")
  if written = memoryName then
    ofName "" (← (Query.parameters query).foldlM DatabaseOptions.withParameter
      { DatabaseOptions.usual with inMemory := true })
  else
    let bytes := Percent.decode written.toUTF8.data.toList
    if let some damage := Utf8.damage? bytes then throw (.notText damage)
    ofName (Utf8.decode bytes)
      (← (Query.parameters query).foldlM DatabaseOptions.withParameter DatabaseOptions.usual)

end DatabasePlace

end SegmentedFiles

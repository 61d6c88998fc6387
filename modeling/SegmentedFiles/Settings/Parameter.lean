/-! The parameters that the program is started with: by which option and by which variable of the
environment each is given. -/

namespace SegmentedFiles

inductive StoreKind where
  | swift
  | onDisk
  | memory
  deriving DecidableEq, Repr

namespace StoreKind

def all : List StoreKind := [swift, onDisk, memory]

def name : StoreKind → String
  | .swift => "swift"
  | .onDisk => "local"
  | .memory => "memory"

def text (kind : StoreKind) : String := kind.name.capitalize

def find? (name : String) : Option StoreKind := all.find? fun kind => kind.name == name

end StoreKind

inductive TextParameter where
  | host
  | storageDir
  | databaseUrl
  | username
  | password
  | authUrl
  | tenant
  | tenantId
  | domain
  | domainId
  | region
  | container
  | root
  deriving DecidableEq, Repr

inductive Parameter where
  | text (parameter : TextParameter)
  | port
  | backend
  | chunkSize
  deriving DecidableEq, Repr

inductive Flag where
  | insecureSkipVerify
  | migrate
  | help
  | version
  deriving DecidableEq, Repr

namespace TextParameter

def all : List TextParameter :=
  [host, storageDir, databaseUrl, username, password, authUrl, tenant, tenantId, domain, domainId,
    region, container, root]

def words : TextParameter → List String
  | .host => ["host"]
  | .storageDir => ["storage", "dir"]
  | .databaseUrl => ["database", "url"]
  | .username => ["username"]
  | .password => ["password"]
  | .authUrl => ["auth", "url"]
  | .tenant => ["tenant"]
  | .tenantId => ["tenant", "id"]
  | .domain => ["domain"]
  | .domainId => ["domain", "id"]
  | .region => ["region"]
  | .container => ["container"]
  | .root => ["prefix"]

end TextParameter

namespace Parameter

def all : List Parameter := [port, backend, chunkSize] ++ TextParameter.all.map text

def words : Parameter → List String
  | .text parameter => parameter.words
  | .port => ["port"]
  | .backend => ["backend"]
  | .chunkSize => ["chunk", "size"]

def option (p : Parameter) : String := "-".intercalate p.words

def environmentName (p : Parameter) : String :=
  "SEGMENT_FS_" ++ "_".intercalate (p.words.map String.toUpper)

def find? (option : String) : Option Parameter := all.find? fun p => p.option == option

end Parameter

namespace Flag

def all : List Flag := [insecureSkipVerify, migrate, help, version]

/-- The name of the option, without its dashes. -/
def option : Flag → String
  | .insecureSkipVerify => "insecure-skip-verify"
  | .migrate => "migrate"
  | .help => "help"
  | .version => "version"

def letter? : Flag → Option Char
  | .help => some 'h'
  | .version => some 'V'
  | .insecureSkipVerify | .migrate => none

def find? (option : String) : Option Flag := all.find? fun flag => flag.option == option

def ofLetter? (c : Char) : Option Flag := all.find? fun flag => flag.letter? == some c

/-- The variable of the environment by which certificate checks are turned off. -/
def insecureVariable : String := "SEGMENT_FS_INSECURE_SKIP_VERIFY"

end Flag

end SegmentedFiles

import SegmentedFiles.Http.Percent
import SegmentedFiles.Text.Decimal
import SegmentedFiles.Text.Name

/-! URLs: taking them apart, and adding names to their paths. Names are escaped when they are added, so
a name with a slash in it stays one name. -/

namespace SegmentedFiles

/-- A URL. Its path begins with a slash, or else the URL is opaque and has no names to add to. -/
structure Url where
  scheme : String
  /-- User, host and port. -/
  authority : Option String
  path : String
  query : Option String
  fragment : Option String
  deriving DecidableEq, Repr

inductive UrlFailure where
  | noScheme
  | noHost
  | badHost
  | badPort
  deriving DecidableEq, Repr

def UrlFailure.message : UrlFailure → String
  | .noScheme => "relative URL without a base"
  | .noHost => "empty host"
  | .badHost => "invalid domain character"
  | .badPort => "invalid port number"

namespace Url

/-- Characters that are not read where they stand in a URL. -/
def isDropped (c : Char) : Bool := c == '\t' || c == '\n' || c == '\r'

def clean (text : String) : List Char :=
  let trim (cs : List Char) := cs.dropWhile fun c => c.toNat ≤ 0x20
  ((trim (trim text.toList).reverse).reverse).filter fun c => !isDropped c

/-- The port that a scheme has where none is given. The schemes that have one are those whose URLs
always have a host. -/
def defaultPort? (scheme : String) : Option Nat :=
  match scheme with
  | "http" | "ws" => some 80
  | "https" | "wss" => some 443
  | "ftp" => some 21
  | _ => none

def isControl (b : UInt8) : Bool := b < 0x20 || b == 0x7f

def isOneOf (cs : List Char) (b : UInt8) : Bool := cs.contains (Char.ofNat b.toNat)

def inFragment (b : UInt8) : Bool := isControl b || isOneOf [' ', '"', '<', '>', '\x60'] b

def inPath (b : UInt8) : Bool := inFragment b || isOneOf ['#', '?', '\x7b', '\x7d'] b

/-- What is escaped in a name that is added to a path. -/
def inName (hosted : Bool) (b : UInt8) : Bool :=
  inPath b || isOneOf ['/', '%'] b || (hosted && b == 0x5c)

def inQuery (hosted : Bool) (b : UInt8) : Bool :=
  isControl b || isOneOf [' ', '"', '#', '<', '>'] b || (hosted && b == 0x27)

def readScheme (cs : List Char) : Except UrlFailure (String × List Char) :=
  match cs.span (· != ':') with
  | (c :: name, _ :: rest) =>
    if c.isAlpha && name.all fun c => c.isAlphanum || c == '+' || c == '-' || c == '.' then
      .ok (String.ofList ((c :: name).map Char.toLower), rest)
    else .error .noScheme
  | _ => .error .noScheme

def isForbidden (c : Char) : Bool :=
  c.toNat ≤ 0x20 || c.toNat == 0x7f
    || ['#', '%', '/', ':', '<', '>', '?', '@', '[', '\\', ']', '^', '|'].contains c

/-- Read a host, which may be an address in brackets, and what follows it. -/
def readHost (cs : List Char) : Except UrlFailure (List Char × List Char) :=
  match cs with
  | '[' :: rest =>
    match rest.span (· != ']') with
    | (address, _ :: rest) => .ok ('[' :: address ++ [']'], rest)
    | _ => .error .badHost
  | _ =>
    let (host, rest) := cs.span (· != ':')
    if host.isEmpty then .error .noHost
    else if host.any isForbidden then .error .badHost
    else .ok (host, rest)

/-- A port as it is written after a host: not at all if the scheme has it anyway. -/
def portText (scheme : String) : List Char → Except UrlFailure String
  | [] => .ok ""
  | [':'] => .ok ""
  | ':' :: ds =>
    if !ds.all Char.isDigit || Decimal.max16 < Decimal.value ds then .error .badPort
    else if defaultPort? scheme = some (Decimal.value ds) then .ok ""
    else .ok (":" ++ (Decimal.value ds).repr)
  | _ => .error .badPort

def authorityOf (scheme : String) (cs : List Char) : Except UrlFailure String := do
  let (server, user) := cs.reverse.span (· != '@')
  let (host, rest) ← readHost server.reverse
  return String.ofList (user.reverse ++ host.map Char.toLower) ++ (← portText scheme rest)

def isHere (name : String) : Bool := [".", "%2e"].contains name.toLower

def isAbove (name : String) : Bool := ["..", ".%2e", "%2e.", "%2e%2e"].contains name.toLower

/-- The names of a path with those that go up or stay carried out; those before are given last
first. -/
def resolveNames (done : List String) : List String → List String
  | [] => done.reverse
  | name :: rest =>
    let last := rest.isEmpty
    if isAbove name then resolveNames (if last then "" :: done.drop 1 else done.drop 1) rest
    else if isHere name then resolveNames (if last then "" :: done else done) rest
    else resolveNames (name :: done) rest

def pathOf (hosted : Bool) (cs : List Char) : String :=
  let cs := if hosted then cs.map fun c => if c == '\\' then '/' else c else cs
  match cs with
  | [] => if hosted then "/" else ""
  | c :: rest =>
    let names := if c == '/' then rest else cs
    "/" ++ "/".intercalate (resolveNames [] (Text.splitAt '/' (Percent.encode inPath (String.ofList names))))

def parse (text : String) : Except UrlFailure Url := do
  let (scheme, rest) ← readScheme (clean text)
  let hosted := (defaultPort? scheme).isSome
  let (sent, fragment) := rest.span (· != '#')
  let (place, query) := sent.span (· != '?')
  let part (escaped : UInt8 → Bool) (cs : List Char) : Option String :=
    if cs.isEmpty then none else some (Percent.encode escaped (String.ofList (cs.drop 1)))
  let isSlash (c : Char) : Bool := c == '/' || (hosted && c == '\\')
  let query := part (inQuery hosted) query
  let fragment := part inFragment fragment
  if hosted then
    let (server, path) := (place.dropWhile isSlash).span fun c => !isSlash c
    return ⟨scheme, some (← authorityOf scheme server), pathOf hosted path, query, fragment⟩
  match place with
  | '/' :: '/' :: rest =>
    let (server, path) := rest.span (· != '/')
    let authority ← if server.isEmpty then pure "" else authorityOf scheme server
    return ⟨scheme, some authority, pathOf hosted path, query, fragment⟩
  | '/' :: _ => return ⟨scheme, none, pathOf hosted place, query, fragment⟩
  | _ => return ⟨scheme, none, Percent.encode isControl (String.ofList place), query, fragment⟩

def text (u : Url) : String :=
  u.scheme ++ ":" ++ (u.authority.map ("//" ++ ·)).getD "" ++ u.path
    ++ (u.query.map ("?" ++ ·)).getD "" ++ (u.fragment.map ("#" ++ ·)).getD ""

/-- What a server is asked for: path and query. -/
def target (u : Url) : String := u.path ++ (u.query.map ("?" ++ ·)).getD ""

def isHttp (u : Url) : Bool := u.scheme == "http" || u.scheme == "https"

def hasNames (u : Url) : Bool := u.authority.isSome || Text.startsWith u.path "/"

def upToSlash (path : String) : String :=
  match Text.beforeLast? '/' path with
  | some before => before ++ "/"
  | none => path

/-- A path with one more name. A name that stands for a directory, its own or the one above, is passed
over. Tabs and line ends in a name are dropped; if it then stands for a directory, that one is gone
to. -/
def addName (hosted : Bool) (path name : String) : String :=
  if name == "." || name == ".." then path
  else
    let start := if path == "/" then path else path ++ "/"
    let kept := String.ofList (name.toList.filter fun c => !isDropped c)
    if kept == "." then start
    else if kept == ".." then upToSlash (if start == "/" then start else path)
    else start ++ Percent.encode (inName hosted) kept

/-- The URL with names added to its path. A slash at the path's end does not count. -/
def addNames (u : Url) (names : List String) : Url :=
  let hosted := (defaultPort? u.scheme).isSome
  let start :=
    if u.path != "/" && u.path.toList.getLast? == some '/' then
      String.ofList u.path.toList.dropLast
    else u.path
  { u with path := names.foldl (addName hosted) start }

end Url

end SegmentedFiles

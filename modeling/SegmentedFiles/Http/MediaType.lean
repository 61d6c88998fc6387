import SegmentedFiles.Text.Name

/-! Media types, as the `Content-Type` header has them: `type/subtype`, perhaps a suffix of the subtype
after a plus sign, and parameters after semicolons. -/

namespace SegmentedFiles

/-- A media type without its parameters, in lower case. -/
structure MediaType where
  kind : String
  subtype : String
  suffix : Option String
  deriving DecidableEq, Repr

namespace MediaType

def isToken (c : Char) : Bool :=
  c.isAlphanum || ['!', '#', '$', '%', '&', '\'', '*', '+', '-', '.', '^', '_', '\x60', '|', '~'].contains c

def isQuotable (c : Char) : Bool := 0x20 ≤ c.toNat && c.toNat < 0x7f

inductive Place where
  /-- Before a parameter. Blanks may stand here. -/
  | start
  /-- In a parameter's name. -/
  | name
  /-- Right after the equals sign. -/
  | value
  /-- In a value without quotes. -/
  | token
  /-- Right after an opening quote. -/
  | opened
  /-- In a value with quotes. -/
  | quoted
  /-- After a closing quote. Blanks may stand here. -/
  | closed
  deriving DecidableEq, Repr

def Place.next? (place : Place) (c : Char) : Option Place :=
  match place with
  | .start => if c = ' ' then some .start else if isToken c then some .name else none
  | .name => if c = '=' then some .value else if isToken c then some .name else none
  | .value => if c = '"' then some .opened else if isToken c then some .token else none
  | .token => if c = ';' then some .start else if isToken c then some .token else none
  | .opened => if isQuotable c then some .quoted else none
  | .quoted => if c = '"' then some .closed else if isQuotable c then some .quoted else none
  | .closed => if c = ';' then some .start else if c = ' ' then some .closed else none

def Place.isEnd : Place → Bool
  | .start | .value | .token | .closed => true
  | .name | .opened | .quoted => false

def areParameters (place : Place) : List Char → Bool
  | [] => place.isEnd
  | c :: rest =>
    match place.next? c with
    | some place => areParameters place rest
    | none => false

/-- Cut a subtype at its last plus sign, unless it begins with this. -/
def ofParts (kind subtype : List Char) : MediaType :=
  let lower (cs : List Char) : String := String.ofList (cs.map Char.toLower)
  match subtype.reverse.span (· != '+') with
  | (suffix, _ :: before) =>
    if before.isEmpty then ⟨lower kind, lower subtype, none⟩
    else ⟨lower kind, lower before.reverse, some (lower suffix.reverse)⟩
  | (_, []) => ⟨lower kind, lower subtype, none⟩

def parse? (text : String) : Option MediaType :=
  match text.toList.span isToken with
  | (kind, '/' :: rest) =>
    match rest.span isToken with
    | (subtype, []) => if kind.isEmpty then none else some (ofParts kind subtype)
    | (subtype, ';' :: parameters) =>
      if !kind.isEmpty && !subtype.isEmpty && areParameters .start parameters then
        some (ofParts kind subtype)
      else none
    | _ => none
  | _ => none

def isJson (type : MediaType) : Bool :=
  type.kind == "application" && (type.subtype == "json" || type.suffix == some "json")

end MediaType

end SegmentedFiles

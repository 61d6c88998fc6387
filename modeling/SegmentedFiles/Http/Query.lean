import SegmentedFiles.Http.Percent
import SegmentedFiles.Text.Name
import SegmentedFiles.Text.Utf8

/-! The parameters in the query of a URL, in the form that HTML forms are sent in. -/

namespace SegmentedFiles.Query

/-- A name or value as it is meant: a plus sign is a blank, then escapes are replaced. -/
def decodePart (part : String) : String :=
  Utf8.decode (Percent.decode (part.toUTF8.data.toList.map fun b => if b = 0x2b then 0x20 else b))

/-- The names and values in a query, in order. A parameter without an equals sign has no value, and
nothing between two ampersands is no parameter. -/
def parameters (query : String) : List (String × String) :=
  ((Text.splitAt '&' query).filter fun part => !part.isEmpty).map fun part =>
    let (name, value) := (Text.splitFirst? '=' part).getD (part, "")
    (decodePart name, decodePart value)

def values (name query : String) : List String :=
  ((parameters query).filter fun parameter => parameter.1 == name).map Prod.snd

/-- Bytes that stand for themselves where a parameter is written. -/
def isPlain (b : UInt8) : Bool :=
  let c := Char.ofNat b.toNat
  c.isAlphanum || c == '*' || c == '-' || c == '.' || c == '_'

/-- A name or value as it is written: a blank as a plus sign, and all else escaped that is not
plain. -/
def encodePart (part : String) : String :=
  String.ofList <| part.toUTF8.data.toList.flatMap fun b =>
    if b = 0x20 then ['+'] else if isPlain b then [Char.ofNat b.toNat] else Percent.escape b

def encode (parameters : List (String × String)) : String :=
  "&".intercalate (parameters.map fun parameter =>
    encodePart parameter.1 ++ "=" ++ encodePart parameter.2)

end SegmentedFiles.Query

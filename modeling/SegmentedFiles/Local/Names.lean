import SegmentedFiles.Md5
import SegmentedFiles.Text.Name

/-! The names that a store on disk accepts, and where it keeps the content of an object. The place
follows from a digest of the names, so an object's name never becomes the name of a file. -/

namespace SegmentedFiles.Local

def maxObjectName : Nat := 1024

def maxContainerName : Nat := 256

def isControl (c : Char) : Bool := c.toNat < 0x20 || c.toNat == 0x7f

def isObjectName (name : String) : Bool :=
  !name.isEmpty && name.utf8ByteSize ≤ maxObjectName && !name.toList.any isControl

/-- Whether a container may be called this. It becomes the name of a directory. -/
def isContainerName (name : String) : Bool :=
  !name.isEmpty && name.utf8ByteSize ≤ maxContainerName && !name.toList.contains '/'
    && !Text.startsWith name "." && !name.toList.any isControl

def containerPath (container : String) : List String := [container]

/-- The digest of an object's container and name. -/
def digest (container name : String) : List Char :=
  (Md5.hexDigest (container ++ "/" ++ name).toUTF8).toList

/-- The two directories below that of the container that lead to an object's content. -/
def shards (container name : String) : List String :=
  let ds := digest container name
  [String.ofList (ds.take 2), String.ofList ((ds.drop 2).take 2)]

def payloadDirectory (container name : String) : List String :=
  containerPath container ++ shards container name

def payloadPath (container name : String) : List String :=
  payloadDirectory container name ++ [String.ofList (digest container name)]

/-- Where an object's content is written before it takes its place: next to it, under a name that no
content has. -/
def draftPath (container name : String) : List String :=
  payloadDirectory container name ++ [".tmp-" ++ String.ofList (digest container name)]

/-- The directories that may be left empty when an object's content goes, the innermost first. -/
def prunable (container name : String) : List (List String) :=
  [payloadDirectory container name,
    containerPath container ++ (shards container name).take 1]

end SegmentedFiles.Local

import SegmentedFiles.Interaction
import SegmentedFiles.Object.Listing
import SegmentedFiles.Object.Range
import SegmentedFiles.Payload
import SegmentedFiles.Store.Error

/-! The calls that may be made on an object store, and programs made of them. An object store keeps
named objects in named containers; there are no directories in it. -/

namespace SegmentedFiles

/-- The attributes of an object that are set when it is written. -/
structure PutOptions where
  contentType : String
  manifest : Option ManifestRef
  deriving DecidableEq, Repr

def PutOptions.plain (contentType : String) : PutOptions := ⟨contentType, none⟩

/-- What a bulk delete did: how many objects it removed, how many were not there, and which were left
behind, with the reason for each. -/
structure BulkDeleteSummary where
  deleted : Nat
  notFound : Nat
  errors : List (String × String)
  deriving DecidableEq, Repr

def BulkDeleteSummary.empty : BulkDeleteSummary := ⟨0, 0, []⟩

/-- What a store can do besides the calls that every store has. -/
structure Capabilities where
  bulkDelete : Bool
  deriving DecidableEq, Repr

/-- Content that is delivered as it is read, and may break off. -/
structure ByteStream where
  content : Payload
  breaksOff : Option IoFailure

inductive StoreCall where
  /-- Make a container, if there is none of this name yet. -/
  | createContainer (container : String)
  /-- Describe an object. -/
  | head (container name : String)
  /-- An object's content, or a range of it. -/
  | get (container name : String) (range : Option ByteRange)
  /-- An object's content from an offset on, as a stream. -/
  | openFrom (container name : String) (offset : Nat)
  /-- Make an object, or replace it. -/
  | put (container name : String) (body : Payload) (options : PutOptions)
  /-- Make an object with the content of another. Of a manifest the whole content is copied. -/
  | copy (source target : ObjectTarget)
  | delete (container name : String)
  /-- Delete many objects in one call. -/
  | bulkDelete (targets : List ObjectTarget)
  /-- The objects of a container, in name order. -/
  | list (container : String) (options : ListOptions)
  | capabilities

namespace StoreCall

/-- What a call returns when it succeeds. -/
abbrev Answer : StoreCall → Type
  | .createContainer _ => Unit
  | .head _ _ => ObjectInfo
  | .get _ _ _ => Payload
  | .openFrom _ _ _ => ByteStream
  | .put _ _ _ _ => Unit
  | .copy _ _ => Unit
  | .delete _ _ => Unit
  | .bulkDelete _ => BulkDeleteSummary
  | .list _ _ => List ObjectInfo
  | .capabilities => Capabilities

abbrev Reply (call : StoreCall) : Type := Except StoreError call.Answer

end StoreCall

abbrev StoreProgram (α : Type) : Type := Interaction StoreCall StoreCall.Reply α

/-- An object store: what it answers to a call, and what becomes of its state. -/
abbrev Store (σ : Type) : Type := (call : StoreCall) → σ → call.Reply × σ

def StoreCall.make (call : StoreCall) : StoreProgram call.Reply := Interaction.request call

def StoreProgram.runOn {σ α : Type} (program : StoreProgram α) (store : Store σ) (s : σ) : α × σ :=
  Interaction.run store program s

end SegmentedFiles

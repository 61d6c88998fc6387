/-! Where a write begins. The content of a segmented file is cut into chunks of one size, and only the
last segment may be shorter. A write at an offset starts in one segment; what lies before the offset in
that segment is kept or filled with zeros, and a gap between the end of the file and that segment is
closed with zeros first. -/

namespace SegmentedFiles

/-- A last segment that has to be filled up with zeros. -/
structure TailCompletion where
  sequence : Nat
  /-- The length it has. -/
  length : Nat
  deriving DecidableEq, Repr

/-- Where a write begins and what is to be done before it. -/
structure WritePlan where
  /-- The segment into which the first byte goes. -/
  sequence : Nat
  /-- The offset at which this segment begins. -/
  cursor : Nat
  /-- How many bytes of the segment as it is are kept in front of the first byte. -/
  retained : Nat
  /-- How many zeros stand between them and the first byte. -/
  zeroFill : Nat
  completeTail : Option TailCompletion
  /-- The first of the segments to be written with zeros only. -/
  zeroStart : Nat
  /-- The segment after the last of them. -/
  zeroStop : Nat
  deriving DecidableEq, Repr

namespace WritePlan

/-- The number of bytes in front of the first byte in its segment. -/
def leading (plan : WritePlan) : Nat := plan.retained + plan.zeroFill

def zeroSegments (plan : WritePlan) : List Nat :=
  List.range' plan.zeroStart (plan.zeroStop - plan.zeroStart)

/-- What a look through the segments finds: the segment in which an offset lies, or that the offset
lies past all of them. -/
inductive Place where
  | inside (sequence cursor length : Nat)
  | beyond (sequence cursor : Nat)
  deriving DecidableEq, Repr

/-- Look for the segment in which `offset` lies, from segment `sequence` on, which begins at `cursor`.
The last segment takes up a whole chunk, even if it is shorter. -/
def locate (offset chunk : Nat) (sequence cursor : Nat) : List Nat → Place
  | [] => .beyond sequence cursor
  | length :: rest =>
    let span := if rest.isEmpty then max length chunk else length
    if offset < cursor + span then .inside sequence cursor length
    else locate offset chunk (sequence + 1) (cursor + span) rest

def shortTail? (lengths : List Nat) (chunk : Nat) : Option TailCompletion :=
  match lengths.getLast? with
  | some length => if length < chunk then some ⟨lengths.length, length⟩ else none
  | none => none

def make (offset : Nat) (lengths : List Nat) (chunk : Nat) : WritePlan :=
  match locate offset chunk 1 0 lengths with
  | .inside sequence cursor length =>
    let retained := min (offset - cursor) length
    ⟨sequence, cursor, retained, offset - cursor - retained, none, sequence, sequence⟩
  | .beyond sequence cursor =>
    let gap := (offset - cursor) / chunk
    let start := cursor + gap * chunk
    ⟨sequence + gap, start, 0, offset - start, shortTail? lengths chunk, sequence, sequence + gap⟩

/-- The plan, where there is one: no gap can be closed with chunks of no length. -/
def make? (offset : Nat) (lengths : List Nat) (chunk : Nat) : Option WritePlan :=
  match locate offset chunk 1 0 lengths, chunk with
  | .beyond _ _, 0 => none
  | _, _ => some (make offset lengths chunk)

end WritePlan

end SegmentedFiles

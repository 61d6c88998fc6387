import SegmentedFiles.Segment.Plan
import SegmentedFiles.Volume.Manifest
import SegmentedFiles.Volume.Source

/-! Writing into a file at an offset, segment by segment. -/

namespace SegmentedFiles.Volume

def putSegment (v : Volume) (path segment : String) (content : Payload) : VolumeAction Unit :=
  (StoreCall.put v.segmentsContainer segment content (PutOptions.plain fileType)).at path

/-- Fill up a short last segment and write the segments of zeros that a plan asks for. -/
def pad (v : Volume) (path name : String) (plan : WritePlan) : VolumeAction Unit := do
  if let some tail := plan.completeTail then
    let segment := Segment.name name tail.sequence
    let old ← if tail.length = 0 then pure ByteArray.empty
      else (StoreCall.get v.segmentsContainer segment none).at path
    v.putSegment path segment (Payload.resize old v.chunkSize)
  if !plan.zeroSegments.isEmpty then
    let zeros := Payload.zeros v.chunkSize
    for sequence in plan.zeroSegments do
      v.putSegment path (Segment.name name sequence) zeros

/-- What comes before the new data in a segment: the first `retained` bytes that it has, and zeros. -/
def segmentHead (v : Volume) (path segment : String) (retained zeroFill : Nat) :
    VolumeAction Payload := do
  let kept ← if retained = 0 then pure ByteArray.empty
    else (StoreCall.get v.segmentsContainer segment (some (.bounded 0 retained))).at path
  return kept ++ Payload.zeros zeroFill

/-- What a segment of `oldLength` bytes has after the first `size`. -/
def segmentTail (v : Volume) (path segment : String) (size oldLength : Nat) :
    VolumeAction Payload :=
  (StoreCall.get v.segmentsContainer segment (some (.bounded size oldLength))).at path

/-- Store a segment that begins with `head` and goes on with `data`. With the last of the data, what
the segment has after it is kept. A segment to which nothing is added is left alone. -/
def commitSegment (v : Volume) (path segment : String) (oldLength : Nat) (head data : Payload)
    (last commit : Bool) : VolumeAction Unit := do
  if commit then
    let content := head ++ data
    let tail ← if last && content.size < oldLength then
        v.segmentTail path segment content.size oldLength
      else pure ByteArray.empty
    v.putSegment path segment (content ++ tail)

/-- Write what `source` has, from segment `sequence` on, over segments of the lengths `existing`. The
first of them begins with `retained` bytes that it has and `zeroFill` zeros. `written` bytes have been
stored before. -/
def writeFrom (v : Volume) (path name : String) (existing : Array Nat)
    (sequence retained zeroFill written : Nat) (source : Source) :
    StoreProgram (Except WriteFailure Nat) :=
  let segment := Segment.name name sequence
  Interaction.bind (v.segmentHead path segment retained zeroFill).run fun
    | .error e => .done (.error ⟨written, e⟩)
    | .ok head =>
      let want := v.chunkSize - head.size
      match hread : source.read want with
      | .error failure => .done (.error ⟨written, .io path failure⟩)
      | .ok (data, rest) =>
        let last := data.size < want || want == 0
        let commit := 0 < data.size || 0 < zeroFill
        let oldLength := existing.getD (sequence - 1) 0
        Interaction.bind (v.commitSegment path segment oldLength head data last commit).run fun
          | .error e => .done (.error ⟨written, e⟩)
          | .ok () =>
            if hlast : last = true then .done (.ok (written + data.size))
            else
              have : rest.remaining < source.remaining := by
                have hsize := Source.size_of_read hread
                have hrest := Source.remaining_of_read hread
                simp only [last, Bool.or_eq_true, decide_eq_true_eq, beq_iff_eq, not_or] at hlast
                omega
              v.writeFrom path name existing (sequence + 1) 0 0 (written + data.size) rest
termination_by source.remaining

/-- Write what `source` has into the file at `path`, from `offset` on. A file that ends before is
extended with zeros; what the file has after the new data stays. The result is the number of bytes
written; a failure has the number of those that were stored before it. -/
def write (v : Volume) (path : String) (offset : Nat) (source : Source) :
    StoreProgram (Except WriteFailure Nat) :=
  let name := v.storeName path
  let begin : VolumeAction (WritePlan × Array Nat) := do
    checkPath path false
    let lengths ← v.prepare path
    let plan := WritePlan.make offset lengths v.chunkSize
    v.pad path name plan
    return (plan, lengths.toArray)
  Interaction.bind begin.run fun
    | .error e => .done (.error ⟨0, e⟩)
    | .ok (plan, lengths) =>
      v.writeFrom path name lengths plan.sequence plan.retained plan.zeroFill 0 source

end SegmentedFiles.Volume

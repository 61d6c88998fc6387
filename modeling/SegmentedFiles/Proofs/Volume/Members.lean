import SegmentedFiles.Proofs.Text.Utf8
import SegmentedFiles.Proofs.Volume.Ancestors
import SegmentedFiles.Proofs.Volume.Create
import SegmentedFiles.Volume.Manifest

/-! # Which segments are a file's

A segment is told by its name, in one of three ways. A file's segments are listed by a number of full width
behind the start of their names, they are removed by a number of any width there, which slashes may precede, and
they are read by the start alone. Each test lets through what the one before does
(`Segment.belongsTo_of_sequence?`, `Segment.startsWith_of_belongsTo`). Of the segments of a volume's files the
first two let through those of the one file (`belongsTo_segment_iff`), even where names in paths are numbers
themselves, and the third those of the files below it as well (`startsWith_segment_iff`). -/

namespace SegmentedFiles.Volume

variable {v : Volume} {path other : String} {s t : Nat}

theorem start_manifestRef (v : Volume) (name : String) : (v.manifestRef name).start = Segment.start name :=
  rfl

/-- A segment's name starts as those of a file's segments if the file is its own, or lies above its own. -/
theorem startsWith_segment_iff (hpath : Path.isValid path = true) (hother : Path.isValid other = true) :
    Text.startsWith (Segment.name (v.storeName other) s) (Segment.start (v.storeName path)) = true ↔
      path = other ∨ path ∈ Path.ancestors other := by
  rw [Segment.startsWith_name_iff, Segment.startsWith_start_iff, storeName_eq_iff hpath hother,
    startsWith_storeName_iff hother hpath]

/-- Of the segments of files a manifest refers to those of its own file. -/
theorem belongsTo_segment_iff (hpath : Path.isValid path = true) (hother : Path.isValid other = true) :
    Segment.belongsTo (v.manifestRef (v.storeName path)) (Segment.name (v.storeName other) s) = true ↔
      path = other := by
  constructor
  · intro h
    have hcases := hother
    rw [Path.isValid, Bool.or_eq_true, beq_iff_eq] at hcases
    rcases hcases with rfl | hbelow
    · -- The name for the root may end with a slash, but no path is above the root.
      have hstart := Segment.startsWith_of_belongsTo h
      rw [start_manifestRef, startsWith_segment_iff hpath hother, Path.ancestors_root] at hstart
      exact hstart.resolve_right List.not_mem_nil
    · have hname := Segment.eq_of_belongsTo_name (getLast?_storeName hbelow) h
      exact (storeName_inj hother hpath hname).symm
  · rintro rfl
    exact Segment.belongsTo_name

/-- So a number is read from the names of the file's own segments only. -/
theorem isSome_sequence?_segment_iff (hpath : Path.isValid path = true)
    (hother : Path.isValid other = true) (hs : s ≤ Segment.maxSequence) :
    (Segment.sequence? (Segment.start (v.storeName path)) (Segment.name (v.storeName other) s)).isSome = true ↔
      path = other := by
  constructor
  · intro h
    obtain ⟨n, hn⟩ := Option.isSome_iff_exists.1 h
    exact (belongsTo_segment_iff (v := v) hpath hother).1 (Segment.belongsTo_of_sequence? hn)
  · rintro rfl
    exact Option.isSome_iff_exists.2 ⟨s, Segment.sequence?_eq_some_iff.2 ⟨rfl, hs⟩⟩

/-- A segment's name tells the file and the number, and the bytes of a file's names come in the order of the
numbers. A name is read as that of a segment only if the number stands behind the start, in the width of numbers.
What is read so is what the manifest refers to, namely the file's own segments; but the segments of the files
below it start as they do. (The root, where there is no file, is not counted among the paths above another.) -/
theorem members_agree (v : Volume) (hpath : Path.isValid path = true) (hother : Path.isValid other = true)
    (hs : s ≤ Segment.maxSequence) (ht : t ≤ Segment.maxSequence) :
    Segment.sequence? (Segment.start (v.storeName path)) (Segment.name (v.storeName path) s) = some s ∧
    (∀ start text, Segment.sequence? start text = some s ↔
      text = start ++ Decimal.padded Segment.width s) ∧
    (Text.utf8 (Segment.name (v.storeName path) s) < Text.utf8 (Segment.name (v.storeName path) t) ↔
      s < t) ∧
    (Segment.name (v.storeName path) s = Segment.name (v.storeName other) t ↔ path = other ∧ s = t) ∧
    ((Segment.sequence? (Segment.start (v.storeName path)) (Segment.name (v.storeName other) s)).isSome = true ↔
      Segment.belongsTo (v.manifestRef (v.storeName path)) (Segment.name (v.storeName other) s) = true) ∧
    (Segment.belongsTo (v.manifestRef (v.storeName path)) (Segment.name (v.storeName other) s) = true ↔
      v.storeName path = v.storeName other) ∧
    (v.storeName path = v.storeName other ↔ path = other) ∧
    (Text.startsWith (Segment.name (v.storeName other) s) (Segment.start (v.storeName path)) = true ↔
      path = other ∨ path ∈ Path.ancestors other) := by
  have hnames := storeName_eq_iff (v := v) hpath hother
  refine ⟨Segment.sequence?_eq_some_iff.2 ⟨rfl, hs⟩, fun start text => ?_, ?_, ?_, ?_, ?_, hnames,
    startsWith_segment_iff hpath hother⟩
  · rw [Segment.sequence?_eq_some_iff_append, and_iff_left hs]
  · rw [Text.utf8_lt_iff, Segment.name_lt_name_iff hs ht]
  · constructor
    · intro h
      exact (Segment.name_inj h).imp_left hnames.1
    · rintro ⟨rfl, rfl⟩
      rfl
  · rw [isSome_sequence?_segment_iff hpath hother hs, belongsTo_segment_iff hpath hother]
  · rw [belongsTo_segment_iff hpath hother, hnames]

/-- A volume with a number for its name. -/
def numberedVolume : Volume := { sampleVolume with root := "/7/" }

/-- Below the file `/1` one is called like its segment. The segments of this file start as those of `/1` do, but
are not among them; and the tenth comes behind the ninth. -/
theorem members_agree_of_digits :
    Path.isValid "/1" = true ∧ Path.isValid "/1/0000000000000001" = true ∧
    9 ≤ Segment.maxSequence ∧ 10 ≤ Segment.maxSequence ∧
    Segment.name (numberedVolume.storeName "/1/0000000000000001") 9
      = "7/1/0000000000000001/0000000000000009" ∧
    Segment.sequence? (Segment.start (numberedVolume.storeName "/1"))
      (Segment.name (numberedVolume.storeName "/1/0000000000000001") 9) = none ∧
    Segment.belongsTo (numberedVolume.manifestRef (numberedVolume.storeName "/1"))
      (Segment.name (numberedVolume.storeName "/1/0000000000000001") 9) = false ∧
    Text.startsWith (Segment.name (numberedVolume.storeName "/1/0000000000000001") 9)
      (Segment.start (numberedVolume.storeName "/1")) = true ∧
    Text.utf8 (Segment.name (numberedVolume.storeName "/1") 9)
      < Text.utf8 (Segment.name (numberedVolume.storeName "/1") 10) := by
  have hpath : Path.isValid "/1" = true := by decide
  have hother : Path.isValid "/1/0000000000000001" = true := by decide
  have hs : 9 ≤ Segment.maxSequence := by decide
  have ht : 10 ≤ Segment.maxSequence := by decide
  obtain ⟨-, -, horder, -, hread, hrefers, hname, hstart⟩ := members_agree numberedVolume hpath hother hs ht
  have hnot : ¬Segment.belongsTo (numberedVolume.manifestRef (numberedVolume.storeName "/1"))
      (Segment.name (numberedVolume.storeName "/1/0000000000000001") 9) = true := by
    rw [hrefers, hname]
    decide
  refine ⟨hpath, hother, hs, ht, by decide, ?_, Bool.eq_false_iff.2 hnot, hstart.2 (.inr (by decide)),
    horder.2 (by decide)⟩
  rw [← hread, Bool.not_eq_true, Option.isSome_eq_false_iff, Option.isNone_iff_eq_none] at hnot
  exact hnot

end SegmentedFiles.Volume

import SegmentedFiles.Proofs.Volume.Changes
import SegmentedFiles.Proofs.Volume.Run

/-! # What an operation leaves of other files

All files keep their segments in one container, and a manifest reads whatever starts as its segments do.
Where no object lies below a file, this is nothing of another file, so an operation on some files leaves
all others as they are, wherever it stops (`isolated`). The objects of directories may be new. -/

namespace SegmentedFiles.Volume

open Interaction (Outcome)
open MemoryStore (answer)
open VolumeAction

namespace Operation

/-- The paths named in an operation. -/
def paths : Operation → List String
  | .write path _ _ => [path]
  | .writeAll path _ => [path]
  | .move source target => [source, target]
  | .remove path => [path]

/-- The path at which an operation leaves a file. -/
def target : Operation → String
  | .write path _ _ => path
  | .writeAll path _ => path
  | .move _ target => target
  | .remove path => path

theorem target_mem_paths (operation : Operation) : operation.target ∈ operation.paths := by
  cases operation with
  | move source target => exact List.mem_cons_of_mem _ (List.mem_singleton_self target)
  | _ => exact List.mem_singleton_self _

end Operation

variable {v : Volume} {m t : MemoryStore} {path other target text : String} {paths : List String}
  {o : StoredObject} {fails : StoreCall → Prop} {operation : Operation}

/-- All manifests are as writes make them, and what lies above an object is a directory. -/
structure Separate (v : Volume) (m : MemoryStore) : Prop where
  own : v.OwnManifests m
  contentType : ∀ name o, m.object? v.container name = some o → o.manifest.isSome = true →
    o.contentType = fileType
  under : ∀ path o, Path.isBelowRoot path = true → m.object? v.container (v.storeName path) = some o →
    v.UnderDirectories m path

theorem Separate.not_directory {name : String} {ref : ManifestRef} (hm : v.Separate m)
    (ho : m.object? v.container name = some o) (href : o.manifest = some ref) :
    o.contentType ≠ directoryType := by
  rw [hm.contentType name o ho (by rw [href]; rfl)]
  decide

/-- What an operation that removes nothing changes, whatever comes of it. -/
theorem Operation.Leads.changed (h : operation.Leads v fails m t) (hown : v.OwnManifests m)
    (hremove : ∀ path, operation ≠ .remove path) : v.Changed operation.paths operation.target m t := by
  cases operation with
  | write path offset source =>
    obtain ⟨r, h⟩ := h
    have hend := write_changes path offset source r t h
    cases r with
    | ok _ => exact hend.2.changed hend.1
    | error _ => exact hend
  | writeAll path content =>
    obtain ⟨r, h⟩ := h
    have hends : Ensures (answer.mayFail fails) (v.writeAll path content) m
        (fun _ t => v.Changed [path] path m t) fun _ t => v.Changed [path] path m t :=
      (writeAll_changes path content hown).mono (fun _ _ ht => ht.2.changed ht.1) fun _ _ ht => ht
    exact hends.state h
  | move source target =>
    obtain ⟨r, h⟩ := h
    have hends : Ensures (answer.mayFail fails) (v.move source target) m
        (fun _ t => v.Changed [source, target] target m t) fun _ t => v.Changed [source, target] target m t := by
      refine (move_changes source target hown).mono ?_ fun _ _ ht => ht
      intro _ u hu
      rcases hu with ⟨hpaths, ⟨-, rfl⟩ | hmoved⟩
      · exact .unchanged
      · exact hmoved.changed hpaths
    exact hends.state h
  | remove path => exact absurd rfl (hremove path)

/-! ## Other files -/

/-- At another path the same is found, or the marker of a directory that has been made. -/
theorem Changed.object (h : v.Changed paths target m t) (htarget : target ∈ paths)
    (hother : Path.isValid other = true) (hnot : other ∉ paths) :
    t.object? v.container (v.storeName other) = m.object? v.container (v.storeName other) ∨
      other ∈ Path.ancestors target ∧ m.object? v.container (v.storeName other) = none ∧
        ∃ o, t.object? v.container (v.storeName other) = some o ∧ o.IsMarker := by
  have hmarkers : ∀ u, (∀ path ∈ paths, Path.isBelowRoot path = true) → v.Marked target m u →
      u.object? v.container (v.storeName other) = m.object? v.container (v.storeName other) ∨
        other ∈ Path.ancestors target ∧ m.object? v.container (v.storeName other) = none ∧
          ∃ o, u.object? v.container (v.storeName other) = some o ∧ o.IsMarker := by
    intro u hpaths hmarked
    refine (hmarked v.container (v.storeName other)).imp_right fun hmarker => ?_
    obtain ⟨-, ⟨dir, hdir, hname⟩, hnone, hobject⟩ := hmarker
    have hvalid := Path.isBelowRoot_of_mem_ancestors (hpaths target htarget) hdir
    obtain rfl := storeName_inj hother (Path.isValid_of_isBelowRoot hvalid) hname
    exact ⟨hdir, hnone, hobject⟩
  cases h with
  | unchanged => exact .inl rfl
  | marked hpaths hmarked => exact hmarkers t hpaths hmarked
  | @files u _ hpaths hmarked _ hsame =>
    rw [object_of_not_mem hsame hpaths hother hnot]
    exact hmarkers u hpaths hmarked

/-- What another file's manifest reads is as it was. -/
theorem Changed.segment {ref : ManifestRef} (h : v.Changed paths target m t) (hm : v.Separate m)
    (hother : Path.isValid other = true) (hnot : other ∉ paths)
    (ho : m.object? v.container (v.storeName other) = some o) (href : o.manifest = some ref)
    (htext : Text.startsWith text ref.start = true) :
    t.object? ref.container text = m.object? ref.container text := by
  obtain ⟨rfl, hlast⟩ := hm.own _ o ref ho href
  have htype := hm.not_directory ho href
  cases h with
  | unchanged => rfl
  | marked _ hmarked => exact hmarked.segment text
  | @files u _ hpaths hmarked hreached hsame =>
    refine (hsame _ _ ?_).trans (hmarked.segment text)
    intro hin
    obtain ⟨path, hpath, hobject | hrefers⟩ := hin
    · exact v.segmentsContainer_ne hobject.1
    -- The other file would be above this one, but directories are there.
    · have habove : other ∈ Path.ancestors path :=
        mem_ancestors_of_belongsTo (hpaths path hpath) hother (fun h => hnot (h ▸ hpath)) hlast hrefers.2
          htext
      rcases hreached path hpath with ⟨o', ho'⟩ | hparents
      · exact htype (hm.under path o' (hpaths path hpath) ho' other habove o ho)
      · obtain ⟨o', ho', htype'⟩ := hparents other habove
        rw [hmarked.object ho] at ho'
        cases ho'
        exact htype htype'

/-- What is at a path is read from an object and what this reads as. -/
theorem readAll_congr (hother : Path.isValid other = true)
    (ho : m.object? v.container (v.storeName other) = some o)
    (ho' : t.object? v.container (v.storeName other) = some o) (hresolve : t.resolve o = m.resolve o) :
    ((v.readAll other).runOn answer t).1 = ((v.readAll other).runOn answer m).1 := by
  rw [Path.isValid, Bool.or_eq_true, beq_iff_eq] at hother
  rcases hother with rfl | hpath
  · rfl
  · rw [readAll_runOn hpath ho, readAll_runOn hpath ho', hresolve]

/-- However an operation that writes, stores or moves files ends, and whichever calls fail, what there was
at any other path is still there, with the same attributes and the same content. Where there was nothing
there is nothing, or the marker of a directory above the file that is written. -/
theorem isolated (hm : v.Separate m) (hremove : ∀ path, operation ≠ .remove path)
    (h : operation.Leads v fails m t) (hother : Path.isValid other = true)
    (hnot : other ∉ operation.paths) :
    (∀ o, m.object? v.container (v.storeName other) = some o →
      t.object? v.container (v.storeName other) = some o ∧
      (answer (.head v.container (v.storeName other)) t).1
        = (answer (.head v.container (v.storeName other)) m).1 ∧
      ((v.readAll other).runOn answer t).1 = ((v.readAll other).runOn answer m).1) ∧
    (m.object? v.container (v.storeName other) = none →
      t.object? v.container (v.storeName other) = none ∨
        other ∈ Path.ancestors operation.target ∧
          ∃ o, t.object? v.container (v.storeName other) = some o ∧ o.IsMarker) := by
  have hchanged := h.changed hm.own hremove
  have hobject := hchanged.object operation.target_mem_paths hother hnot
  constructor
  · intro o ho
    have ho' : t.object? v.container (v.storeName other) = some o := by
      rcases hobject with hsame | ⟨-, hnone, -⟩
      · exact hsame.trans ho
      · rw [ho] at hnone
        cases hnone
    have hresolve : t.resolve o = m.resolve o :=
      MemoryStore.resolve_congr fun ref href _ => hchanged.segment hm hother hnot ho href
    refine ⟨ho', ?_, readAll_congr hother ho ho' hresolve⟩
    rw [MemoryStore.answer_head_of_some ho, MemoryStore.answer_head_of_some ho', hresolve]
  · intro hnone
    exact hobject.imp (fun hsame => hsame.trans hnone) fun hmarker => ⟨hmarker.1, hmarker.2.2⟩

/-- A store in which there is nothing but a file in one segment. -/
def oneFileStore (name : String) (content : Payload) : MemoryStore :=
  ((fresh "files" true Timestamp.epoch).place "files_segments" (Segment.name name 1)
      ⟨content, fileType, Timestamp.epoch, "", none⟩).place "files" name
    ⟨ByteArray.empty, fileType, Timestamp.epoch, "", some (sampleVolume.manifestRef name)⟩

theorem separate_oneFileStore {name : String} (hlast : name.toList.getLast? ≠ some '/')
    (content : Payload) : sampleVolume.Separate (oneFileStore name content) := by
  have honly : ∀ text o, (oneFileStore name content).object? "files" text = some o →
      text = name ∧ o.contentType = fileType ∧ ∀ ref, o.manifest = some ref →
        ref = sampleVolume.manifestRef name := by
    intro text o ho
    rw [oneFileStore, MemoryStore.object?_place] at ho
    split at ho
    · next hname =>
      cases ho
      exact ⟨hname.2, rfl, fun ref href => (Option.some.inj href).symm⟩
    · rw [MemoryStore.object?_place_of_ne fun h => absurd h.1 (by decide), object?_fresh] at ho
      cases ho
  refine ⟨?_, fun text o ho _ => (honly text o ho).2.1, ?_⟩
  · intro text o ref ho href
    obtain ⟨rfl, -, hmanifest⟩ := honly text o ho
    exact ⟨hmanifest ref href, hlast⟩
  · intro path o hpath ho dir hdir o' ho'
    exact absurd ((honly _ o' ho').1.trans (honly _ o ho).1.symm) (storeName_ne_of_mem_ancestors hpath hdir)

/-- A file in one piece is stored next to a file whose name goes on. -/
theorem isolated_sibling : ∃ t o,
    (Operation.writeAll "/a" ⟨#[1]⟩).Leads sampleVolume (fun _ => True) (oneFileStore "ab" ⟨#[2, 3]⟩) t ∧
      (oneFileStore "ab" ⟨#[2, 3]⟩).object? "files" "ab" = some o ∧
      t.object? "files" "ab" = some o ∧
      ((sampleVolume.readAll "/ab").runOn answer t).1
        = ((sampleVolume.readAll "/ab").runOn answer (oneFileStore "ab" ⟨#[2, 3]⟩)).1 := by
  have hname : sampleVolume.storeName "/ab" = "ab" := by decide
  have hvalid : Path.isValid "/ab" = true := by decide
  obtain ⟨r, t, hend⟩ := exists_outcome_mayFail answer (fun _ => True)
    (sampleVolume.writeAll "/a" ⟨#[1]⟩).run (oneFileStore "ab" ⟨#[2, 3]⟩)
  have hleads : (Operation.writeAll "/a" ⟨#[1]⟩).Leads sampleVolume (fun _ => True)
      (oneFileStore "ab" ⟨#[2, 3]⟩) t := ⟨r, hend⟩
  have hremove : ∀ path, Operation.writeAll "/a" ⟨#[1]⟩ ≠ .remove path := by
    intro path h
    cases h
  have hkept := (isolated (separate_oneFileStore (by decide) _) hremove hleads hvalid (by decide)).1
  rw [hname] at hkept
  obtain ⟨ho, -, hread⟩ := hkept _ MemoryStore.object?_place_self
  exact ⟨t, _, hleads, MemoryStore.object?_place_self, ho, hread⟩

end SegmentedFiles.Volume

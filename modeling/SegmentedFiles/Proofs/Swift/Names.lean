import SegmentedFiles.Proofs.Http.Url
import SegmentedFiles.Proofs.Swift.Run
import SegmentedFiles.Proofs.Swift.Sent
import SegmentedFiles.Proofs.Volume.Children

/-! # The names of files in requests

The path of an object's URL has the container and the names of the file's path behind that of the storage
URL. Paths may have characters that are dropped from names, though, and then these are not the names that
are read there (`addresses_iff`): two files have the same URL where their names are the same but for such
characters (`objectUrl_eq_iff`). -/

namespace SegmentedFiles

open SwiftAction (Goes)
open SwiftStore (tokenHeader)
open Url (IsPlain StayNames hasDropped kept namesBehind)

variable {path other container : String} {v : Volume} {storage : Url}

/-! ## The names of a path -/

namespace Path

/-- The names of a path; the root has one that is empty. -/
def names (path : String) : List String := Text.splitAt '/' (String.ofList path.toList.tail)

theorem forall_mem_names_hasDropped (hpath : isValid path = true) :
    (∀ name ∈ names path, hasDropped name = false) ↔ hasDropped path = false := by
  obtain ⟨rest, hrest, -⟩ := exists_rest_of_isValid hpath
  simp only [Url.hasDropped_eq_false_iff]
  rw [names, hrest, List.tail_cons, Text.forall_mem_splitAt (by decide), String.toList_ofList,
    List.forall_mem_cons]
  exact (and_iff_right (by decide)).symm

theorem ne_dots_of_mem_names (hpath : isValid path = true) {name : String} (hname : name ∈ names path) :
    name ≠ "." ∧ name ≠ ".." := by
  rw [isValid, Bool.or_eq_true, beq_iff_eq] at hpath
  rcases hpath with rfl | hpath
  · obtain rfl : name = "" := List.mem_singleton.1 hname
    decide
  · obtain ⟨rest, hrest, hnames⟩ := isBelowRoot_iff.1 hpath
    rw [names, hrest, List.tail_cons, Text.splitAt, String.toList_ofList] at hname
    obtain ⟨piece, hpiece, rfl⟩ := List.mem_map.1 hname
    have hisName := hnames piece hpiece
    simp only [isName, Bool.and_eq_true, bne_iff_ne] at hisName
    exact ⟨hisName.1.2, hisName.2⟩

theorem names_inj (hpath : isValid path = true) (hother : isValid other = true)
    (h : names path = names other) : path = other := by
  obtain ⟨rest, hrest, -⟩ := exists_rest_of_isValid hpath
  obtain ⟨rest', hrest', -⟩ := exists_rest_of_isValid hother
  rw [names, names, hrest, hrest', List.tail_cons, List.tail_cons, Text.splitAt_inj,
    String.ofList_inj] at h
  rw [← String.toList_inj, hrest, hrest', h]

/-- Nothing is dropped from the names of such a path, and no name of it comes to stand for a directory. -/
theorem kept_names (hpath : isValid path = true) (h : hasDropped path = false) :
    (names path).map kept = names path ∧ StayNames (names path) := by
  have hnames := (forall_mem_names_hasDropped hpath).2 h
  refine ⟨(List.map_congr_left fun name hname => Url.kept_of_hasDropped (hnames name hname)).trans
    (List.map_id _), fun name hname => ?_⟩
  rw [Url.kept_of_hasDropped (hnames name hname)]
  exact ne_dots_of_mem_names hpath hname

end Path

/-- In a volume without a name of its own, objects have the names of paths. -/
theorem Volume.splitAt_storeName (hroot : Text.trim '/' v.root = "") (hpath : Path.isValid path = true) :
    Text.splitAt '/' (v.storeName path) = Path.names path := by
  obtain ⟨rest, hrest, hhead⟩ := Path.exists_rest_of_isValid hpath
  have hname : v.storeName path = String.ofList rest := by
    rw [← String.toList_inj, toList_storeName_of_rest hrest hhead, nameRoot_of_empty hroot, List.nil_append,
      String.toList_ofList]
  rw [hname, Path.names, hrest, List.tail_cons]

namespace SwiftStore

open Volume (sampleVolume)

/-! ## Places of objects -/

/-- The URL to which names are added for the place of an object. -/
def rootUrl : Url := ⟨"http", some "localhost", "/", none, none⟩

theorem objectUrl_eq (hstorage : storage.hasNames = true) (hroot : Text.trim '/' v.root = "")
    (hpath : Path.isValid path = true) :
    objectUrl storage container (some (v.storeName path))
      = .ok (storage.addNames (container :: Path.names path)) := by
  rw [objectUrl, if_pos hstorage, Option.map_some, Option.getD_some, Volume.splitAt_storeName hroot hpath]

theorem objectPath_eq (hroot : Text.trim '/' v.root = "") (hpath : Path.isValid path = true) :
    objectPath ⟨container, v.storeName path⟩
      = (rootUrl.addNames (container :: Path.names path)).path := by
  unfold objectPath rootUrl
  dsimp only
  rw [Volume.splitAt_storeName hroot hpath]

/-- Behind `base` these are the names of the container and of a file in it. -/
def Tells (base place container path : String) : Prop :=
  namesBehind base place = some (container :: Path.names path)

theorem tells_addNames_iff (u : Url) (hcontainer : IsPlain container) (hpath : Path.isValid path = true) :
    Tells u.basePath (u.addNames (container :: Path.names path)).path container path ↔
      hasDropped path = false :=
  (u.namesBehind_addNames_iff hcontainer fun _ => Path.ne_dots_of_mem_names hpath).trans
    (Path.forall_mem_names_hasDropped hpath)

theorem tells_objectPath_iff (hcontainer : IsPlain container) (hroot : Text.trim '/' v.root = "")
    (hpath : Path.isValid path = true) :
    Tells "" (objectPath ⟨container, v.storeName path⟩) container path ↔ hasDropped path = false := by
  rw [objectPath_eq hroot hpath]
  exact tells_addNames_iff rootUrl hcontainer hpath

/-- Where no name comes to stand for a directory, two files have the same URL exactly if their names are the
same without the characters that are dropped. -/
theorem objectUrl_eq_iff (hstorage : storage.hasNames = true) (hcontainer : IsPlain container)
    (hroot : Text.trim '/' v.root = "") (hpath : Path.isValid path = true)
    (hother : Path.isValid other = true) (hstay : StayNames (Path.names path))
    (hstay' : StayNames (Path.names other)) :
    objectUrl storage container (some (v.storeName path))
        = objectUrl storage container (some (v.storeName other)) ↔
      (Path.names path).map kept = (Path.names other).map kept := by
  have hnames := storage.addNames_of_kept hcontainer hstay
  have hnames' := storage.addNames_of_kept hcontainer hstay'
  rw [objectUrl_eq hstorage hroot hpath, objectUrl_eq hstorage hroot hother, Except.ok.injEq]
  constructor
  · intro h
    have hread := hnames'.read
    rw [← h, hnames.read] at hread
    exact (List.cons.inj (Option.some.inj hread)).2
  · intro h
    have hplace : (storage.addNames (container :: Path.names path)).path
        = (storage.addNames (container :: Path.names other)).path := by
      rw [← String.toList_inj, hnames.text, hnames'.text, h]
    exact congrArg (fun path => { storage with path }) hplace

/-! ## Lines -/

theorem not_newline_mem_objectPath {target : ObjectTarget} (hcontainer : IsPlain target.container) :
    '\n' ∉ (objectPath target).toList := by
  obtain ⟨names, hnames, -⟩ := rootUrl.exists_names_addNames hcontainer (Text.splitAt '/' target.name)
  have hpath : (objectPath target).toList = "".toList ++ Url.written true names := hnames.text
  rw [hpath]
  intro hmem
  obtain ⟨name, -, hname⟩ := List.mem_flatMap.1 hmem
  rcases List.mem_cons.1 hname with hslash | hname
  · exact absurd hslash (by decide)
  · exact Percent.not_mem_encode (by decide) (by decide) hname

/-- The lines of a bulk delete are the places of its targets. -/
theorem splitAt_lines {targets : List ObjectTarget} (h : ∀ target ∈ targets, IsPlain target.container) :
    Text.splitAt '\n' (String.join (targets.map fun target => objectPath target ++ "\n"))
      = targets.map objectPath ++ [""] := by
  induction targets with
  | nil => rfl
  | cons target targets ih =>
    obtain ⟨htarget, htargets⟩ := List.forall_mem_cons.1 h
    have hbody : String.join ((target :: targets).map fun target => objectPath target ++ "\n")
        = String.ofList ((objectPath target).toList ++ '\n' ::
          (String.join (targets.map fun target => objectPath target ++ "\n")).toList) := by
      rw [← String.toList_inj, List.map_cons, String.join_cons, String.toList_ofList, String.toList_append,
        String.toList_append, List.append_assoc]
      rfl
    rw [hbody, Text.splitAt_append_cons (not_newline_mem_objectPath htarget), String.ofList_toList,
      String.ofList_toList, ih htargets]
    rfl

/-- The names of a file are read back from its URL, and from its place in a copy or in a line of a bulk
delete, if and only if its path has no tab, line feed or carriage return, which are dropped from URLs. So two
such files have different URLs. -/
theorem addresses_iff (hstorage : storage.hasNames = true) (hcontainer : IsPlain container)
    (hroot : Text.trim '/' v.root = "") (hpath : Path.isValid path = true) :
    (∃ url, objectUrl storage container (some (v.storeName path)) = .ok url ∧
      (Tells storage.basePath url.path container path ↔ hasDropped path = false) ∧
      ∀ other, Path.isValid other = true → hasDropped path = false → hasDropped other = false →
        objectUrl storage container (some (v.storeName other)) = .ok url → other = path) ∧
    (∀ config pages (call : StoreCall) message, call.object? = some ⟨container, v.storeName path⟩ →
      Sent config pages call message → ∃ session : SwiftSession,
        objectUrl session.storageUrl container (some (v.storeName path)) = .ok message.url) ∧
    (∀ config pages target message,
      Sent config pages (.copy ⟨container, v.storeName path⟩ target) message →
      ∃ place, message.headers.get? "x-copy-from" = some place ∧
        (Tells "" place container path ↔ hasDropped path = false)) ∧
    ∀ config pages (files : List (String × String)) message,
      (∀ file ∈ files, IsPlain file.1 ∧ Path.isValid file.2 = true) →
      Sent config pages (.bulkDelete (files.map fun file => ⟨file.1, v.storeName file.2⟩)) message →
      ∃ body lines, message.body = Payload.ofText body ∧ Text.splitAt '\n' body = lines ++ [""] ∧
        List.Forall₂ (fun file line => Tells "" line file.1 file.2 ↔ hasDropped file.2 = false) files lines := by
  refine ⟨⟨_, objectUrl_eq hstorage hroot hpath, tells_addNames_iff storage hcontainer hpath, ?_⟩, ?_, ?_, ?_⟩
  · intro other hother hdropped hdropped' h
    obtain ⟨hkept, hstay⟩ := Path.kept_names hpath hdropped
    obtain ⟨hkept', hstay'⟩ := Path.kept_names hother hdropped'
    rw [← objectUrl_eq hstorage hroot hpath,
      objectUrl_eq_iff hstorage hcontainer hroot hother hpath hstay' hstay, hkept, hkept'] at h
    exact Path.names_inj hother hpath h
  · intro config pages call message hcall hsent
    have hurl := sent_to_object hcall hsent
    exact hurl
  · intro config pages target message hsent
    exact ⟨_, sent_with_source hsent, tells_objectPath_iff hcontainer hroot hpath⟩
  · intro config pages files message hfiles hsent
    refine ⟨_, _, sent_with_lines hsent, splitAt_lines ?_, ?_⟩
    · intro target htarget
      obtain ⟨file, hfile, rfl⟩ := List.mem_map.1 htarget
      exact (hfiles file hfile).1
    · rw [List.map_map, List.forall₂_map_right_iff]
      refine List.forall₂_same.2 fun file hfile => ?_
      exact tells_objectPath_iff (hfiles file hfile).1 hroot (hfiles file hfile).2

/-! ## Files in an account -/

/-- Names with spaces, percent signs and question marks are read back. -/
theorem addresses_iff_of_percent :
    (∃ url, objectUrl sampleStorage "files" (some (sampleVolume.storeName "/100%/a b?")) = .ok url ∧
      namesBehind "/v1/AUTH_t" url.path = some ["files", "100%", "a b?"]) ∧
    ∃ message place,
      Sent sampleConfig 1 (.copy ⟨"files", sampleVolume.storeName "/100%/a b?"⟩ ⟨"files", "x"⟩) message ∧
        message.headers.get? "x-copy-from" = some place ∧
        namesBehind "" place = some ["files", "100%", "a b?"] := by
  have hcontainer : IsPlain "files" := ⟨by decide, by decide⟩
  have hpath : Path.isValid "/100%/a b?" = true := by decide
  have hstorage : sampleStorage.hasNames = true := rfl
  obtain ⟨⟨url, hurl, hnames, -⟩, -, hcopy, -⟩ :=
    addresses_iff (v := sampleVolume) hstorage hcontainer (by decide) hpath
  refine ⟨⟨url, hurl, hnames.2 (by decide)⟩, ?_⟩
  have hsent : Sent sampleConfig 1 (.copy ⟨"files", sampleVolume.storeName "/100%/a b?"⟩ ⟨"files", "x"⟩) _ :=
    sent_copy (s := ⟨sampleStorage, "token"⟩) rfl (by decide +kernel)
  obtain ⟨place, hplace, hnames⟩ := hcopy sampleConfig 1 _ _ hsent
  exact ⟨_, place, hsent, hplace, hnames.2 (by decide)⟩

/-- A tab is dropped, so two files have one URL. -/
theorem objectUrl_of_tab :
    sampleStorage.hasNames = true ∧ IsPlain "files" ∧ Text.trim '/' sampleVolume.root = "" ∧
      Path.isValid "/a\tb" = true ∧ Path.isValid "/ab" = true ∧ "/a\tb" ≠ "/ab" ∧
      objectUrl sampleStorage "files" (some (sampleVolume.storeName "/a\tb"))
        = objectUrl sampleStorage "files" (some (sampleVolume.storeName "/ab")) := by
  have hstorage : sampleStorage.hasNames = true := rfl
  have hcontainer : IsPlain "files" := ⟨by decide, by decide⟩
  have hsame := objectUrl_eq_iff (v := sampleVolume) hstorage hcontainer (by decide)
    (by decide : Path.isValid "/a\tb" = true) (by decide : Path.isValid "/ab" = true) (by decide) (by decide)
  exact ⟨rfl, hcontainer, by decide, by decide, by decide, by decide, hsame.2 (by decide)⟩

end SwiftStore

end SegmentedFiles

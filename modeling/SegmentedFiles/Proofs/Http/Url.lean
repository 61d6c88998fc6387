import SegmentedFiles.Http.Url
import SegmentedFiles.Proofs.Http.Percent
import SegmentedFiles.Proofs.Text.Pieces
import SegmentedFiles.Volume.Path

/-! # Names in the path of a URL

Names stand in a path escaped, each behind a slash, and are read back from there (`namesBehind_written`).
A name is added as it is but for the characters that are dropped from it (`addName_of_kept`). What is left
of a name may stand for a directory, and then the path is taken elsewhere; but whatever names are added, no
name of the path has a character that is dropped (`exists_names_addNames`). So the names that were added are
read back if and only if nothing was dropped from them (`namesBehind_addNames_iff`). -/

namespace SegmentedFiles.Url

variable {hosted : Bool} {base path name text : String} {names done : List String}

/-! ## Names as they stand in a path -/

/-- Names as they stand in a path. -/
def written (hosted : Bool) (names : List String) : List Char :=
  names.flatMap fun name => '/' :: (Percent.encode (inName hosted) name).toList

/-- The texts that the names of a path stand for, behind the path `base`. -/
def namesBehind (base path : String) : Option (List String) :=
  (Text.after? (base ++ "/") path).bind fun rest => (Text.splitAt '/' rest).mapM Percent.decodeText?

theorem percent_inName (hosted : Bool) : inName hosted 0x25 = true := by
  cases hosted <;> decide

theorem not_slash_mem_encode : '/' ∉ (Percent.encode (inName hosted) text).toList :=
  Percent.not_mem_encode (by decide) (by cases hosted <;> decide)

theorem written_nil (hosted : Bool) : written hosted [] = [] := rfl

theorem written_append (hosted : Bool) (names rest : List String) :
    written hosted (names ++ rest) = written hosted names ++ written hosted rest :=
  List.flatMap_append

theorem written_cons (hosted : Bool) (name : String) (names : List String) :
    written hosted (name :: names)
      = '/' :: ((Percent.encode (inName hosted) name).toList ++ written hosted names) :=
  rfl

theorem splitAt_written (name : String) (names : List String) :
    Text.splitAt '/' (String.ofList ((Percent.encode (inName hosted) name).toList ++ written hosted names))
      = (name :: names).map (Percent.encode (inName hosted)) := by
  induction names generalizing name with
  | nil =>
    rw [written, List.flatMap_nil, List.append_nil, String.ofList_toList,
      Text.splitAt_of_not_mem not_slash_mem_encode]
    rfl
  | cons next names ih =>
    rw [written_cons, Text.splitAt_append_cons not_slash_mem_encode, ih, String.ofList_toList]
    rfl

/-- Names are read back from where they are written. -/
theorem namesBehind_written (hnames : names ≠ [])
    (hpath : path.toList = base.toList ++ written hosted names) : namesBehind base path = some names := by
  obtain ⟨name, rest, rfl⟩ := List.exists_cons_of_ne_nil hnames
  let behind := (Percent.encode (inName hosted) name).toList ++ written hosted rest
  have hafter : Text.after? (base ++ "/") path = some (String.ofList behind) := by
    rw [Text.after?_eq_some_iff, ← String.toList_inj, hpath, written_cons, String.toList_append,
      String.toList_append, String.toList_ofList, String.toList_ofList, List.append_assoc,
      List.singleton_append]
  rw [namesBehind, hafter, Option.bind_some, splitAt_written,
    Percent.mapM_decodeText?_encode (percent_inName hosted)]

/-! ## Dropped characters -/

/-- Whether a character of the text would be dropped from a name. -/
def hasDropped (text : String) : Bool := text.toList.any isDropped

/-- What is left of a name that is added to a path. -/
def kept (name : String) : String := String.ofList (name.toList.filter fun c => !isDropped c)

theorem hasDropped_eq_false_iff : hasDropped text = false ↔ ∀ c ∈ text.toList, isDropped c = false := by
  simp only [hasDropped, List.any_eq_false, Bool.not_eq_true]

theorem kept_of_hasDropped (h : hasDropped text = false) : kept text = text := by
  have hall : ∀ c ∈ text.toList, (!isDropped c) = true := fun c hc => by
    rw [hasDropped_eq_false_iff.1 h c hc]
    rfl
  rw [kept, List.filter_eq_self.2 hall, String.ofList_toList]

theorem hasDropped_kept (name : String) : hasDropped (kept name) = false := by
  rw [hasDropped_eq_false_iff, kept, String.toList_ofList]
  intro c hc
  simpa using (List.mem_filter.1 hc).2

/-! ## Adding a name -/

/-- A path as names are added to it: that of the root is empty. -/
def front (path : String) : String := if path == "/" then "" else path

/-- The path of a URL behind which names are added. -/
def basePath (u : Url) : String :=
  front (if u.path != "/" && u.path.toList.getLast? == some '/' then String.ofList u.path.toList.dropLast
    else u.path)

theorem toList_front_append_slash (path : String) :
    (if path == "/" then path else path ++ "/").toList = (front path).toList ++ ['/'] := by
  unfold front
  split
  · next h =>
    rw [beq_iff_eq.1 h]
    rfl
  · rw [String.toList_append]
    rfl

theorem addName_of_kept (hhere : kept name ≠ ".") (habove : kept name ≠ "..") :
    (addName hosted path name).toList = (front path).toList ++ written hosted [kept name] := by
  have hplain : ¬(name == "." || name == "..") = true := by
    rw [Bool.or_eq_true, beq_iff_eq, beq_iff_eq]
    rintro (rfl | rfl)
    · exact hhere (by decide)
    · exact habove (by decide)
  unfold addName
  rw [if_neg hplain]
  dsimp only
  rw [← kept, if_neg (by rwa [beq_iff_eq]), if_neg (by rwa [beq_iff_eq]), String.toList_append,
    toList_front_append_slash, written_cons, List.append_assoc, List.singleton_append, written_nil,
    List.append_nil]

/-- Behind the base the path has these names. -/
structure HasNames (hosted : Bool) (base path : String) (names : List String) : Prop where
  some_name : names ≠ []
  text : path.toList = base.toList ++ written hosted names

namespace HasNames

theorem of_append (init : List String) (h : path.toList = base.toList ++ written hosted (init ++ [name])) :
    HasNames hosted base path (init ++ [name]) :=
  ⟨List.append_ne_nil_of_right_ne_nil _ (List.cons_ne_nil _ _), h⟩

theorem read (h : HasNames hosted base path names) : namesBehind base path = some names :=
  namesBehind_written h.some_name h.text

/-- Only behind an empty base, and with an empty name, it is the path of the root. -/
theorem of_root (h : HasNames hosted base "/" names) : base = "" ∧ names = [""] := by
  obtain ⟨hnames, htext⟩ := h
  obtain ⟨name, rest, rfl⟩ := List.exists_cons_of_ne_nil hnames
  rw [written_cons] at htext
  have hlength := congrArg List.length htext
  rw [List.length_append, List.length_cons, List.length_append] at hlength
  have hone : "/".toList.length = 1 := rfl
  rw [hone] at hlength
  refine ⟨String.toList_inj.1 (List.length_eq_zero_iff.1 (by omega)), ?_⟩
  have hname : name = "" := by
    by_contra hne
    refine Percent.encode_ne_empty (percent_inName hosted) hne (String.toList_inj.1 ?_)
    exact List.length_eq_zero_iff.1 (by omega)
  have hrest : rest = [] := by
    cases rest with
    | nil => rfl
    | cons next rest =>
      rw [written_cons, List.length_cons] at hlength
      omega
  rw [hname, hrest]

/-- Behind these names, or in their place if they are those of the root, one more is added. -/
theorem exists_front (h : HasNames hosted base path names) :
    ∃ init, (init = names ∨ init = []) ∧ (front path).toList = base.toList ++ written hosted init := by
  unfold front
  split
  · next hroot =>
    rw [beq_iff_eq] at hroot
    subst hroot
    exact ⟨[], .inr rfl, by rw [h.of_root.1]; rfl⟩
  · exact ⟨names, .inl rfl, h.text⟩

/-- Up to its last slash the path has these names with the last one empty. -/
theorem upToSlash (h : HasNames hosted base path (names ++ [name])) :
    HasNames hosted base (upToSlash path) (names ++ [""]) := by
  have hlast : path.toList = (base.toList ++ written hosted names) ++ '/' ::
      (Percent.encode (inName hosted) name).toList := by
    rw [h.text, written_append, written_cons, written_nil, List.append_nil, List.append_assoc]
  have hempty : Percent.encode (inName hosted) "" = "" := rfl
  refine of_append names ?_
  unfold Url.upToSlash
  rw [Text.beforeLast?_eq hlast not_slash_mem_encode]
  dsimp only
  rw [String.toList_append, String.toList_ofList, written_append, written_cons, hempty, written_nil,
    List.append_assoc]
  rfl

theorem ne_empty (h : HasNames hosted base path names) : path ≠ "" := by
  rintro rfl
  obtain ⟨hnames, htext⟩ := h
  obtain ⟨name, rest, rfl⟩ := List.exists_cons_of_ne_nil hnames
  rw [written_cons] at htext
  have hlength := congrArg List.length htext
  rw [List.length_append, List.length_cons] at hlength
  have hnone : "".toList.length = 0 := rfl
  omega

/-- The slash up to which a name that goes up leads is the last one of the path. -/
theorem upFrom_eq (h : HasNames hosted base path names) :
    (if (if path == "/" then path else path ++ "/") == "/" then (if path == "/" then path else path ++ "/")
      else path) = path := by
  by_cases hroot : (path == "/") = true
  · rw [if_pos hroot, if_pos hroot]
  · have hlonger : ¬(path ++ "/" == "/") = true := by
      rw [beq_iff_eq, ← String.toList_inj, String.toList_append]
      intro hslash
      exact h.ne_empty (String.toList_inj.1 (List.append_left_eq_self.1 hslash))
    rw [if_neg hroot, if_neg hlonger]

/-- Whatever name is added, the path has names that nothing is dropped from. -/
theorem exists_addName (h : HasNames hosted base path names)
    (hdropped : ∀ name ∈ names, hasDropped name = false) (name : String) :
    ∃ after, HasNames hosted base (addName hosted path name) after ∧
      ∀ name ∈ after, hasDropped name = false := by
  have hlast : ∀ {init : List String} {last : String}, (∀ name ∈ init, hasDropped name = false) →
      hasDropped last = false → ∀ name ∈ init ++ [last], hasDropped name = false := by
    intro init last hinit hlast
    exact List.forall_mem_append.2 ⟨hinit, List.forall_mem_singleton.2 hlast⟩
  obtain ⟨init, hinit, hfront⟩ := h.exists_front
  have hinit : ∀ name ∈ init, hasDropped name = false := by
    rcases hinit with rfl | rfl
    · exact hdropped
    · nofun
  by_cases hplain : (name == "." || name == "..") = true
  · refine ⟨names, ?_, hdropped⟩
    rwa [addName, if_pos hplain]
  -- What is left of the name may stand for this directory or the one above; the last name is then empty.
  by_cases hhere : kept name = "."
  · refine ⟨init ++ [""], of_append init ?_, hlast hinit rfl⟩
    rw [addName, if_neg hplain]
    dsimp only
    rw [← kept, if_pos (beq_iff_eq.2 hhere), toList_front_append_slash, hfront, written_append,
      List.append_assoc]
    rfl
  by_cases habove : kept name = ".."
  · obtain ⟨before, last, rfl⟩ := (List.eq_nil_or_concat names).resolve_left h.some_name
    rw [List.concat_eq_append] at h hdropped
    refine ⟨before ++ [""], ?_, hlast (fun name hname => hdropped name (List.mem_append_left _ hname)) rfl⟩
    rw [addName, if_neg hplain]
    dsimp only
    rw [← kept, if_neg (by rwa [beq_iff_eq]), if_pos (beq_iff_eq.2 habove), h.upFrom_eq]
    exact h.upToSlash
  · refine ⟨init ++ [kept name], of_append init ?_, hlast hinit (hasDropped_kept name)⟩
    rw [addName_of_kept hhere habove, hfront, written_append, List.append_assoc]

end HasNames

/-! ## Adding names -/

/-- A name that is added to a path as it is. -/
structure IsPlain (name : String) : Prop where
  isName : Path.isName name = true
  noneDropped : hasDropped name = false

namespace IsPlain

theorem kept_eq (h : IsPlain name) : kept name = name := kept_of_hasDropped h.noneDropped

theorem ne (h : IsPlain name) : name ≠ "" ∧ name ≠ "." ∧ name ≠ ".." := by
  have hname := h.isName
  simpa [Path.isName, and_assoc] using hname

end IsPlain

theorem addNames_path (u : Url) (names : List String) :
    ∃ start, u.basePath = front start ∧
      (u.addNames names).path = names.foldl (addName (defaultPort? u.scheme).isSome) start :=
  ⟨_, rfl, rfl⟩

theorem HasNames.of_plain (hname : IsPlain name) :
    HasNames hosted (front path) (addName hosted path name) [name] := by
  obtain ⟨-, hhere, habove⟩ := hname.ne
  rw [← hname.kept_eq] at hhere habove
  refine of_append [] ?_
  rw [addName_of_kept hhere habove, hname.kept_eq, List.nil_append]

theorem HasNames.exists_foldl (h : HasNames hosted base path names)
    (hdropped : ∀ name ∈ names, hasDropped name = false) (more : List String) :
    ∃ after, HasNames hosted base (more.foldl (addName hosted) path) after ∧
      ∀ name ∈ after, hasDropped name = false := by
  induction more generalizing path names with
  | nil => exact ⟨names, h, hdropped⟩
  | cons name more ih =>
    obtain ⟨after, hafter, hdropped⟩ := h.exists_addName hdropped name
    exact ih hafter hdropped

/-- Whatever names are added behind a plain one, no name of the path has a dropped character. -/
theorem exists_names_addNames (u : Url) (hname : IsPlain name) (more : List String) :
    ∃ after, HasNames (defaultPort? u.scheme).isSome u.basePath (u.addNames (name :: more)).path after ∧
      ∀ name ∈ after, hasDropped name = false := by
  obtain ⟨start, hbase, hpath⟩ := u.addNames_path (name :: more)
  rw [hbase, hpath]
  exact (HasNames.of_plain hname).exists_foldl (List.forall_mem_singleton.2 hname.noneDropped) more

/-- No name stands for a directory once characters are dropped from it. -/
def StayNames (names : List String) : Prop := ∀ name ∈ names, kept name ≠ "." ∧ kept name ≠ ".."

instance (names : List String) : Decidable (StayNames names) :=
  inferInstanceAs (Decidable (∀ name ∈ names, kept name ≠ "." ∧ kept name ≠ ".."))

theorem HasNames.foldl (h : HasNames hosted base path (name :: done)) (hname : name ≠ "")
    {more : List String} (hmore : StayNames more) :
    HasNames hosted base (more.foldl (addName hosted) path) (name :: (done ++ more.map kept)) := by
  induction more generalizing path done with
  | nil => rwa [List.map_nil, List.append_nil]
  | cons next more ih =>
    obtain ⟨⟨hhere, habove⟩, hmore⟩ := List.forall_mem_cons.1 hmore
    have hroot : front path = path := by
      refine if_neg ?_
      rw [beq_iff_eq]
      rintro rfl
      exact hname (List.cons.inj h.of_root.2).1
    have hnext : HasNames hosted base (addName hosted path next) (name :: (done ++ [kept next])) := by
      refine of_append (name :: done) ?_
      rw [addName_of_kept hhere habove, hroot, h.text, written_append hosted (name :: done),
        List.append_assoc]
    have hlast := ih hnext hmore
    rwa [List.append_assoc] at hlast

/-- Where the names added still are names once characters are dropped from them, these are the names of the
path. -/
theorem addNames_of_kept (u : Url) (hname : IsPlain name) {more : List String} (hmore : StayNames more) :
    HasNames (defaultPort? u.scheme).isSome u.basePath (u.addNames (name :: more)).path
      (name :: more.map kept) := by
  obtain ⟨start, hbase, hpath⟩ := u.addNames_path (name :: more)
  rw [hbase, hpath]
  exact (HasNames.of_plain hname).foldl hname.ne.1 hmore

/-- Names that are added behind a plain one are read back if and only if nothing is dropped from them. -/
theorem namesBehind_addNames_iff (u : Url) (hname : IsPlain name) {more : List String}
    (hmore : ∀ name ∈ more, name ≠ "." ∧ name ≠ "..") :
    namesBehind u.basePath (u.addNames (name :: more)).path = some (name :: more) ↔
      ∀ name ∈ more, hasDropped name = false := by
  constructor
  · intro h
    obtain ⟨after, hafter, hdropped⟩ := u.exists_names_addNames hname more
    obtain rfl : after = name :: more := Option.some.inj (hafter.read.symm.trans h)
    exact (List.forall_mem_cons.1 hdropped).2
  · intro h
    have hkept : more.map kept = more :=
      (List.map_congr_left fun name hname => kept_of_hasDropped (h name hname)).trans (List.map_id _)
    have hstay : StayNames more := by
      intro name hname
      rw [kept_of_hasDropped (h name hname)]
      exact hmore name hname
    rw [(u.addNames_of_kept hname hstay).read, hkept]

end SegmentedFiles.Url

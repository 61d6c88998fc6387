import SegmentedFiles.Proofs.Text.Pieces
import SegmentedFiles.Proofs.Volume.Path

/-! # Paths that lie above others

The paths above a path are those that it starts with, up to a slash (`Path.mem_ancestors_iff`). The names
of objects are told apart as their paths are (`storeName_inj`), and lie below one another as these do
(`startsWith_storeName_iff`). So a segment that belongs to one file, and whose name starts as those of
another file's segments do, is there because the one path is above the other
(`mem_ancestors_of_belongsTo`). -/

namespace SegmentedFiles

variable {path dir other : String} {text : String}

/-! ## The text of a path -/

theorem dropWhile_slash {rest : List Char} (h : rest.head? ≠ some '/') : rest.dropWhile (· == '/') = rest := by
  cases rest with
  | nil => rfl
  | cons c cs =>
    refine List.dropWhile_cons_of_neg ?_
    rw [beq_iff_eq]
    rintro rfl
    exact h rfl

namespace Path

theorem isBelowRoot_iff : isBelowRoot path = true ↔
    ∃ rest, path.toList = '/' :: rest ∧ ∀ piece ∈ rest.splitOn '/', isName (String.ofList piece) = true := by
  unfold isBelowRoot
  rw [Bool.and_eq_true]
  constructor
  · intro h
    obtain ⟨-, h⟩ := h
    split at h
    · next rest hrest =>
      rw [Text.after?_eq_some_iff] at hrest
      rw [Text.splitAt, List.all_map, List.all_eq_true] at h
      exact ⟨rest.toList, by rw [hrest, String.toList_append]; rfl, h⟩
    · cases h
  · intro h
    obtain ⟨rest, hpath, hnames⟩ := h
    have hafter : Text.after? "/" path = some (String.ofList rest) := by
      rw [Text.after?_eq_some_iff, ← String.toList_inj, hpath, String.toList_append]
      simp
    rw [hafter]
    refine ⟨?_, ?_⟩
    · rw [bne_iff_ne]
      rintro rfl
      obtain rfl : rest = [] := (List.cons.inj hpath).2.symm
      exact absurd (hnames [] (by simp)) (by decide)
    · dsimp only
      rw [Text.splitAt, List.all_map, String.toList_ofList, List.all_eq_true]
      exact hnames

/-- After the first slash of a path no other one follows at once. -/
theorem exists_rest_of_isValid (h : isValid path = true) :
    ∃ rest, path.toList = '/' :: rest ∧ rest.head? ≠ some '/' := by
  rw [isValid, Bool.or_eq_true, beq_iff_eq] at h
  rcases h with rfl | h
  · exact ⟨[], rfl, nofun⟩
  · obtain ⟨rest, hrest, hnames⟩ := isBelowRoot_iff.1 h
    refine ⟨rest, hrest, ?_⟩
    intro hhead
    obtain ⟨tail, rfl⟩ := List.head?_eq_some_iff.1 hhead
    have hempty : [] ∈ ('/' :: tail).splitOn '/' := by
      rw [← List.nil_append ('/' :: tail), List.splitOn_append_cons_self]
      simp
    exact absurd (hnames [] hempty) (by decide)

theorem isValid_of_isBelowRoot (h : isBelowRoot path = true) : isValid path = true := by
  rw [isValid, h, Bool.or_true]

/-! ## Going up -/

theorem exists_last_slash {cs : List Char} (h : '/' ∈ cs) :
    ∃ before behind, cs = before ++ '/' :: behind ∧ '/' ∉ behind := by
  induction cs with
  | nil => cases h
  | cons c rest ih =>
    by_cases hrest : '/' ∈ rest
    · obtain ⟨before, behind, rfl, hbehind⟩ := ih hrest
      exact ⟨c :: before, behind, rfl, hbehind⟩
    · obtain rfl := (List.mem_cons.1 h).resolve_right hrest
      exact ⟨[], rest, rfl, hrest⟩

/-- What comes before some slash of a text is its parent, or comes before a slash of that. -/
theorem parent_of_prefix {below : List Char} (hdir : dir ≠ "")
    (h : text.toList = dir.toList ++ '/' :: below) :
    (parent text).toList.length < text.toList.length ∧
      (dir = parent text ∨ ∃ inner, (parent text).toList = dir.toList ++ '/' :: inner) := by
  have hslash : '/' ∈ text.toList := by rw [h]; simp
  obtain ⟨before, behind, htext, hbehind⟩ := exists_last_slash hslash
  have hcut : dir.toList = before ∨ ∃ inner, before = dir.toList ++ '/' :: inner := by
    rw [h] at htext
    exact Segment.append_slash_cases hbehind htext
  have hbefore : before ≠ [] := by
    rintro rfl
    rcases hcut with hnil | ⟨inner, hnil⟩
    · exact hdir (String.toList_inj.1 hnil)
    · simp at hnil
  have hparent : parent text = String.ofList before := by
    unfold parent
    rw [Text.beforeLast?_eq htext hbehind]
    dsimp only
    rw [if_neg]
    rw [String.isEmpty_iff, ← String.toList_inj, String.toList_ofList]
    exact hbefore
  rw [hparent, String.toList_ofList]
  refine ⟨by rw [htext, List.length_append, List.length_cons]; omega, hcut.imp_left ?_⟩
  intro hsame
  rw [← String.toList_inj, String.toList_ofList, hsame]

/-- What comes before a slash of a path is above it. -/
theorem mem_ancestors_of_prefix {below : List Char} (hdir : dir ≠ "") (hroot : dir ≠ "/")
    (h : path.toList = dir.toList ++ '/' :: below) : dir ∈ ancestors path := by
  have hgo : ∀ fuel top, top.toList.length ≤ fuel →
      (dir = top ∨ ∃ inner, top.toList = dir.toList ++ '/' :: inner) → dir ∈ ancestors.go fuel top := by
    intro fuel
    induction fuel with
    | zero =>
      intro top hlength htop
      obtain rfl : top = "" := String.toList_inj.1 (List.eq_nil_of_length_eq_zero (Nat.le_zero.1 hlength))
      rcases htop with rfl | ⟨inner, hinner⟩
      · exact absurd rfl hdir
      · simp at hinner
    | succ fuel ih =>
      intro top hlength htop
      have htoproot : top ≠ "/" := by
        rintro rfl
        rcases htop with rfl | ⟨inner, hinner⟩
        · exact hroot rfl
        · have hlength := congrArg List.length hinner
          rw [List.length_append, List.length_cons] at hlength
          refine hdir (String.toList_inj.1 (List.eq_nil_of_length_eq_zero ?_))
          change 1 = _ at hlength
          omega
      unfold ancestors.go
      rw [if_neg (by simpa using htoproot), List.mem_cons]
      refine htop.imp_right fun hbelow => ?_
      obtain ⟨inner, hinner⟩ := hbelow
      obtain ⟨hshorter, hparent⟩ := parent_of_prefix hdir hinner
      exact ih _ (by omega) hparent
  obtain ⟨hshorter, hparent⟩ := parent_of_prefix hdir h
  exact hgo _ _ (Nat.le_of_lt hshorter) hparent

theorem ne_of_mem_ancestors (h : dir ∈ ancestors path) : dir ≠ "" ∧ dir ≠ "/" := by
  have hparent : ∀ text, parent text ≠ "" := by
    intro text
    unfold parent
    split
    · split
      · decide
      · next hne => exact fun hempty => hne (by rw [hempty]; rfl)
    · decide
  have hgo : ∀ fuel top, top ≠ "" → dir ∈ ancestors.go fuel top → dir ≠ "" ∧ dir ≠ "/" := by
    intro fuel
    induction fuel with
    | zero =>
      intro top _ hmem
      cases hmem
    | succ fuel ih =>
      intro top htop hmem
      unfold ancestors.go at hmem
      split at hmem
      · cases hmem
      · next hroot =>
        rcases List.mem_cons.1 hmem with rfl | hmem
        · exact ⟨htop, by simpa using hroot⟩
        · exact ih _ (hparent top) hmem
  exact hgo _ _ (hparent path) h

/-- The names in a path that lies above are names of the path. -/
theorem isBelowRoot_of_mem_ancestors (hpath : isBelowRoot path = true) (h : dir ∈ ancestors path) :
    isBelowRoot dir = true := by
  obtain ⟨hdir, -⟩ := ne_of_mem_ancestors h
  obtain ⟨below, hbelow⟩ := exists_of_mem_ancestors h
  obtain ⟨rest, hrest, hnames⟩ := isBelowRoot_iff.1 hpath
  cases hcs : dir.toList with
  | nil => exact absurd (String.toList_inj.1 hcs) hdir
  | cons c cs =>
    rw [hbelow, hcs, List.cons_append, List.cons.injEq] at hrest
    obtain ⟨rfl, rfl⟩ := hrest
    rw [List.splitOn_append_cons_self] at hnames
    exact isBelowRoot_iff.2 ⟨cs, hcs, fun piece hpiece => hnames piece (List.mem_append_left _ hpiece)⟩

/-- The valid paths above a path are those that it starts with, up to a slash. -/
theorem mem_ancestors_iff (hpath : isValid path = true) (hdir : isValid dir = true) :
    dir ∈ ancestors path ↔ ∃ below, path.toList = dir.toList ++ '/' :: below := by
  constructor
  · exact exists_of_mem_ancestors
  · intro h
    obtain ⟨below, hbelow⟩ := h
    obtain ⟨rest, hrest, -⟩ := exists_rest_of_isValid hdir
    refine mem_ancestors_of_prefix ?_ ?_ hbelow
    · rintro rfl
      cases hrest
    · rintro rfl
      obtain ⟨names, hnames, hhead⟩ := exists_rest_of_isValid hpath
      rw [hbelow] at hnames
      obtain rfl := (List.cons.inj hnames).2
      exact hhead rfl

theorem ancestors_root : ancestors "/" = [] := by decide

theorem not_mem_ancestors_self (path : String) : path ∉ ancestors path := by
  intro h
  obtain ⟨below, hbelow⟩ := exists_of_mem_ancestors h
  have hlength := congrArg List.length hbelow
  rw [List.length_append, List.length_cons] at hlength
  omega

theorem mem_ancestors_trans (h : dir ∈ ancestors path) (h' : other ∈ ancestors dir) :
    other ∈ ancestors path := by
  obtain ⟨below, hbelow⟩ := exists_of_mem_ancestors h
  obtain ⟨inner, hinner⟩ := exists_of_mem_ancestors h'
  obtain ⟨hempty, hroot⟩ := ne_of_mem_ancestors h'
  have hpath : path.toList = other.toList ++ '/' :: (inner ++ '/' :: below) := by
    rw [hbelow, hinner, List.append_assoc]
    rfl
  exact mem_ancestors_of_prefix hempty hroot hpath

end Path

/-! ## The names of objects -/

namespace Volume

variable {v : Volume}

/-- How the names of objects start: the volume's own name, with a slash behind it, if it has one. -/
def nameRoot (v : Volume) : List Char :=
  (Text.trimEnd '/' v.root ++ "/").toList.dropWhile (· == '/')

/-- A path's object is called by the path without the slash in front, after the volume's own name. -/
theorem toList_storeName_of_rest {rest : List Char} (h : path.toList = '/' :: rest)
    (hrest : rest.head? ≠ some '/') : (v.storeName path).toList = v.nameRoot ++ rest := by
  have hslash : ("/" : String).toList = ['/'] := rfl
  rw [toList_storeName, h, nameRoot, String.toList_append, hslash, List.append_cons]
  generalize (Text.trimEnd '/' v.root).toList ++ ['/'] = front
  rw [List.dropWhile_append]
  split
  · next hempty =>
    rw [dropWhile_slash hrest, List.isEmpty_iff.1 hempty, List.nil_append]
  · rfl

/-- The paths of two objects of the same name are the same. -/
theorem storeName_inj (hpath : Path.isValid path = true) (hother : Path.isValid other = true)
    (h : v.storeName path = v.storeName other) : path = other := by
  obtain ⟨rest, hrest, hhead⟩ := Path.exists_rest_of_isValid hpath
  obtain ⟨rest', hrest', hhead'⟩ := Path.exists_rest_of_isValid hother
  rw [← String.toList_inj, toList_storeName_of_rest hrest hhead, toList_storeName_of_rest hrest' hhead',
    List.append_cancel_left_eq] at h
  rw [← String.toList_inj, hrest, hrest', h]

theorem storeName_eq_iff (hpath : Path.isValid path = true) (hother : Path.isValid other = true) :
    v.storeName path = v.storeName other ↔ path = other :=
  ⟨storeName_inj hpath hother, congrArg _⟩

/-- One object's name lies below another's if the paths do. -/
theorem startsWith_storeName_iff (hpath : Path.isValid path = true) (hdir : Path.isValid dir = true) :
    Text.startsWith (v.storeName path) (Segment.start (v.storeName dir)) = true ↔
      dir ∈ Path.ancestors path := by
  obtain ⟨rest, hrest, hhead⟩ := Path.exists_rest_of_isValid hpath
  obtain ⟨rest', hrest', hhead'⟩ := Path.exists_rest_of_isValid hdir
  rw [Path.mem_ancestors_iff hpath hdir, Text.startsWith_iff, Segment.toList_start,
    toList_storeName_of_rest hrest hhead, toList_storeName_of_rest hrest' hhead', List.append_assoc,
    List.prefix_append_right_inj, hrest, hrest']
  constructor
  · intro h
    obtain ⟨below, hbelow⟩ := h
    exact ⟨below, by rw [← hbelow, List.append_assoc]; rfl⟩
  · intro h
    obtain ⟨below, hbelow⟩ := h
    exact ⟨below, by rw [(List.cons.inj hbelow).2, List.append_assoc]; rfl⟩

/-- A segment belongs to one file and starts as the segments of another only if that one's path is above
the path of the first. -/
theorem mem_ancestors_of_belongsTo (hpath : Path.isBelowRoot path = true)
    (hdir : Path.isValid dir = true) (hne : dir ≠ path)
    (hlast : (v.storeName dir).toList.getLast? ≠ some '/') {container : String}
    (h : Segment.belongsTo ⟨container, Segment.start (v.storeName path)⟩ text = true)
    (hstart : Text.startsWith text (Segment.start (v.storeName dir)) = true) :
    dir ∈ Path.ancestors path := by
  rcases Segment.startsWith_of_belongsTo_of_startsWith hlast h hstart with hsame | hbelow
  · exact absurd (storeName_inj hdir (Path.isValid_of_isBelowRoot hpath) hsame) hne
  · exact (startsWith_storeName_iff (Path.isValid_of_isBelowRoot hpath) hdir).1 hbelow

end Volume

end SegmentedFiles

import SegmentedFiles.Object.Listing
import SegmentedFiles.Proofs.Text.Pieces
import SegmentedFiles.Proofs.Text.Utf8

/-! # Listings that fold names

A name that has the delimiter after the start is cut off behind the first one, and names that are the same
then share an entry. Cutting keeps names in order, and of two names that are the same afterwards both were
cut (`through_lt`). So a group's entry, which is written where its first name is met, is in its place, and a
listing of objects that are given in name order has its entries in order, one for each object
(`lists_select`). -/

namespace SegmentedFiles

variable {c d : Char} {name start : String}

/-! ## Names cut off behind a character -/

/-- The characters up to and including the first `d`; all, if there is none. -/
def Text.through (d : Char) : List Char → List Char
  | [] => []
  | c :: rest => if c = d then [d] else c :: through d rest

theorem Text.through_of_not_mem {cs : List Char} (h : d ∉ cs) : through d cs = cs := by
  induction cs with
  | nil => rfl
  | cons c rest ih =>
    rw [List.mem_cons, not_or] at h
    rw [through, if_neg fun hsame => h.1 hsame.symm, ih h.2]

theorem Text.through_append {before : List Char} (h : d ∉ before) (behind : List Char) :
    through d (before ++ d :: behind) = before ++ [d] := by
  induction before with
  | nil => rw [List.nil_append, through, if_pos rfl, List.nil_append]
  | cons c rest ih =>
    rw [List.mem_cons, not_or] at h
    rw [List.cons_append, through, if_neg fun hsame => h.1 hsame.symm, ih h.2, List.cons_append]

/-- Names in order are in order after they have been cut, unless both have been cut to the same. -/
theorem Text.through_lt {xs ys : List Char} (h : xs < ys) :
    through d xs < through d ys ∨ through d xs = through d ys ∧ d ∈ xs ∧ d ∈ ys := by
  induction xs generalizing ys with
  | nil =>
    cases ys with
    | nil => exact absurd h (List.lt_irrefl [])
    | cons y ys =>
      refine .inl ?_
      rw [through, through]
      split
      · exact List.nil_lt_cons _ _
      · exact List.nil_lt_cons _ _
  | cons x xs ih =>
    cases ys with
    | nil => exact absurd h (List.not_lt_nil _)
    | cons y ys =>
      rcases List.cons_lt_cons_iff.1 h with hlt | ⟨rfl, hlt⟩
      · refine .inl ?_
        rw [through, through]
        split_ifs with hx hy hy
        · exact absurd (hx.trans hy.symm) (Char.ne_of_lt hlt)
        · exact List.cons_lt_cons_iff.2 (.inl (hx ▸ hlt))
        · exact List.cons_lt_cons_iff.2 (.inl (hy ▸ hlt))
        · exact List.cons_lt_cons_iff.2 (.inl hlt)
      · by_cases hx : x = d
        · subst hx
          exact .inr ⟨by rw [through, through, if_pos rfl, if_pos rfl], List.mem_cons_self, List.mem_cons_self⟩
        · rw [through, through, if_neg hx, if_neg hx, List.cons_lt_cons_iff, List.cons_inj_right]
          refine (ih hlt).imp (fun hlt => .inr ⟨rfl, hlt⟩) fun h => ?_
          exact ⟨h.1, List.mem_cons_of_mem _ h.2.1, List.mem_cons_of_mem _ h.2.2⟩

namespace ListOptions

/-! ## Groups -/

theorem group?_append (start rest : String) (c : Char) :
    group? (start ++ rest) start c
      = if c ∈ rest.toList then some (start ++ String.ofList (Text.through c rest.toList)) else none := by
  rw [group?, Text.after?_eq_some_iff.2 rfl]
  dsimp only
  split_ifs with hc
  · obtain ⟨before, behind, hrest, hbefore⟩ := List.eq_append_cons_of_mem hc
    have hsplit : Text.splitFirst? c rest = some (String.ofList before, String.ofList behind) :=
      Text.splitFirst?_eq_some_iff.2 ⟨by simpa using hrest, by simpa using hbefore⟩
    rw [hsplit]
    dsimp only
    rw [hrest, Text.through_append hbefore, String.ofList_append, String.append_assoc]
    rfl
  · rw [Text.splitFirst?_eq_none_iff.2 hc]

/-- A name is folded where the delimiter comes after the start. -/
theorem group?_eq_none_iff {rest : String} : group? (start ++ rest) start c = none ↔ c ∉ rest.toList := by
  rw [group?_append]
  split_ifs with hc
  · exact ⟨nofun, fun h => absurd hc h⟩
  · exact ⟨fun _ => hc, fun _ => rfl⟩

/-- The entries that are no groups are those of the names that are not folded. -/
theorem entries_folded {objects : List (String × ObjectInfo)}
    (hplain : ∀ object ∈ objects, object.2.pseudoDirectory = false) :
    ((folded start c).entries objects).filter (fun info => !info.pseudoDirectory)
      = (objects.filter fun object => (group? object.1 start c).isNone).map Prod.snd := by
  have hgo : ∀ groups, (entries.go (folded start c) groups objects).filter (fun info => !info.pseudoDirectory)
      = (objects.filter fun object => (group? object.1 start c).isNone).map Prod.snd := by
    induction objects with
    | nil => intro groups; rfl
    | cons object rest ih =>
      intro groups
      obtain ⟨name, info⟩ := object
      have hinfo : info.pseudoDirectory = false := hplain _ List.mem_cons_self
      replace ih := ih fun o ho => hplain o (List.mem_cons_of_mem _ ho)
      unfold entries.go
      simp only [folded, Option.bind_some] at ih ⊢
      cases hgroup : group? name start c with
      | none =>
        dsimp only
        rw [List.filter_cons_of_pos (by rw [hinfo]; rfl), ih, List.filter_cons_of_pos (by rw [hgroup]; rfl),
          List.map_cons]
      | some group =>
        dsimp only
        rw [List.filter_cons_of_neg (by rw [hgroup]; simp)]
        split
        · exact ih _
        · rw [List.filter_cons_of_neg (by simp [ObjectInfo.group])]
          exact ih _
  exact hgo []

variable {options : ListOptions} {own entry : ObjectInfo} {group : String} {groups : List String}
  {objects : List (String × ObjectInfo)}

/-- The group that a name is folded into. -/
def foldedInto? (options : ListOptions) (name : String) : Option String :=
  options.delimiter.bind (group? name options.start)

/-- The entry for an object: its own, unless it is folded into a group. -/
def entryOf (options : ListOptions) (name : String) (own : ObjectInfo) : ObjectInfo :=
  ((options.foldedInto? name).map ObjectInfo.group).getD own

/-- The entry is the one for this object: its own, if no delimiter comes after the start of its name, or
else that of the name cut off behind the first delimiter. -/
inductive Represents (options : ListOptions) (name : String) (own : ObjectInfo) : ObjectInfo → Prop where
  | own {rest : String} (hname : name = options.start ++ rest)
      (hplain : ∀ d, options.delimiter = some d → d ∉ rest.toList) : Represents options name own own
  | group {before behind : String} {d : Char} (hdelimiter : options.delimiter = some d)
      (hname : name = options.start ++ before ++ String.singleton d ++ behind)
      (hfirst : d ∉ before.toList) :
      Represents options name own (.group (options.start ++ before ++ String.singleton d))

theorem exists_rest (h : Text.startsWith name options.start = true) :
    ∃ rest, name = options.start ++ rest := by
  obtain ⟨rest, hrest⟩ := Text.startsWith_iff.1 h
  refine ⟨String.ofList rest, ?_⟩
  rw [← String.toList_inj, String.toList_append, String.toList_ofList, hrest]

theorem Represents.startsWith (h : options.Represents name own entry) :
    Text.startsWith name options.start = true := by
  rw [Text.startsWith_iff]
  cases h with
  | own hname _ =>
    rw [hname, String.toList_append]
    exact List.prefix_append _ _
  | group _ hname _ =>
    rw [hname, String.append_assoc, String.append_assoc, String.toList_append]
    exact List.prefix_append _ _

/-- There is one entry for an object. -/
theorem represents_iff (h : Text.startsWith name options.start = true) :
    options.Represents name own entry ↔ entry = options.entryOf name own := by
  constructor
  · intro h
    rw [entryOf, foldedInto?]
    cases h with
    | own hname hplain =>
      cases hdelimiter : options.delimiter with
      | none => rfl
      | some d =>
        rw [Option.bind_some, hname, group?_eq_none_iff.2 (hplain d hdelimiter)]
        rfl
    | @group before behind d hdelimiter hname hfirst =>
      have hmem : d ∈ (before ++ String.singleton d ++ behind).toList := by simp
      have hcut : Text.through d (before ++ String.singleton d ++ behind).toList = before.toList ++ [d] := by
        rw [← Text.through_append hfirst behind.toList]
        simp
      replace hname : name = options.start ++ (before ++ String.singleton d ++ behind) := by
        rw [hname, String.append_assoc, String.append_assoc, String.append_assoc]
      rw [hdelimiter, Option.bind_some, hname, group?_append, if_pos hmem, hcut, String.ofList_append,
        String.ofList_toList, ← String.append_assoc]
      rfl
  · rintro rfl
    obtain ⟨rest, rfl⟩ := exists_rest h
    rw [entryOf, foldedInto?]
    cases hdelimiter : options.delimiter with
    | none => exact .own rfl fun d hd => nomatch hdelimiter.symm.trans hd
    | some d =>
      rw [Option.bind_some, group?_append]
      split_ifs with hd
      · obtain ⟨before, behind, hsplit, hfirst⟩ := List.eq_append_cons_of_mem hd
        have hrest : rest = String.ofList before ++ String.singleton d ++ String.ofList behind := by
          rw [← String.toList_inj, hsplit]
          simp
        rw [hsplit, Text.through_append hfirst, String.ofList_append, ← String.append_assoc]
        have hname : options.start ++ rest = options.start ++ String.ofList before ++ String.singleton d
            ++ String.ofList behind := by
          rw [hrest]
          simp only [String.append_assoc]
        exact .group hdelimiter hname (by rwa [String.toList_ofList])
      · refine .own rfl fun d' hd' => ?_
        obtain rfl := Option.some.inj (hdelimiter.symm.trans hd')
        exact hd

/-! ## The order of the entries -/

theorem name_entryOf {rest : String} (hdelimiter : options.delimiter = some d)
    (hown : own.name = options.start ++ rest) :
    (options.entryOf (options.start ++ rest) own).name
      = options.start ++ String.ofList (Text.through d rest.toList) := by
  rw [entryOf, foldedInto?, hdelimiter, Option.bind_some, group?_append]
  split_ifs with hd
  · rfl
  · rw [Text.through_of_not_mem hd, String.ofList_toList]
    exact hown

/-- The entries of two objects are in the order of these, unless both are folded into the same group. -/
theorem entryOf_lt {name' : String} {own' : ObjectInfo} (hlt : name < name')
    (hstart : Text.startsWith name options.start = true)
    (hstart' : Text.startsWith name' options.start = true) (hown : own.name = name)
    (hown' : own'.name = name') :
    (options.entryOf name own).name < (options.entryOf name' own').name ∨
      ∃ group, options.foldedInto? name = some group ∧ options.foldedInto? name' = some group := by
  obtain ⟨rest, rfl⟩ := exists_rest hstart
  obtain ⟨rest', rfl⟩ := exists_rest hstart'
  cases hdelimiter : options.delimiter with
  | none =>
    rw [entryOf, entryOf, foldedInto?, foldedInto?, hdelimiter]
    exact .inl (by rwa [← hown, ← hown'] at hlt)
  | some d =>
    rw [name_entryOf hdelimiter hown, name_entryOf hdelimiter hown']
    have hrest : rest.toList < rest'.toList := by
      rw [String.lt_iff, String.toList_append, String.toList_append] at hlt
      exact Text.lt_of_append_lt hlt
    rcases Text.through_lt (d := d) hrest with hcut | ⟨hcut, hd, hd'⟩
    · refine .inl ?_
      rw [String.lt_iff, String.toList_append, String.toList_append, String.toList_ofList,
        String.toList_ofList]
      exact List.append_left_lt hcut
    · refine .inr ⟨options.start ++ String.ofList (Text.through d rest.toList), ?_, ?_⟩
      · rw [foldedInto?, hdelimiter, Option.bind_some, group?_append, if_pos hd]
      · rw [foldedInto?, hdelimiter, Option.bind_some, group?_append, if_pos hd', hcut]

/-! ## What a listing shows -/

theorem go_cons_of_none (h : options.foldedInto? name = none) :
    entries.go options groups ((name, own) :: objects) = own :: entries.go options groups objects := by
  rw [foldedInto?] at h
  rw [entries.go, h]

theorem go_cons_of_mem (h : options.foldedInto? name = some group) (hmem : group ∈ groups) :
    entries.go options groups ((name, own) :: objects) = entries.go options groups objects := by
  rw [foldedInto?] at h
  rw [entries.go, h]
  dsimp only
  rw [if_pos hmem]

theorem go_cons_of_not_mem (h : options.foldedInto? name = some group) (hmem : group ∉ groups) :
    entries.go options groups ((name, own) :: objects)
      = .group group :: entries.go options (group :: groups) objects := by
  rw [foldedInto?] at h
  rw [entries.go, h]
  dsimp only
  rw [if_neg hmem]

/-- Each entry is that of an object, and of one that is in none of the groups from before. -/
theorem exists_of_mem_go (h : entry ∈ entries.go options groups objects) :
    ∃ object ∈ objects, entry = options.entryOf object.1 object.2 ∧
      ∀ group ∈ groups, options.foldedInto? object.1 ≠ some group := by
  induction objects generalizing groups with
  | nil => cases h
  | cons object rest ih =>
    obtain ⟨name, own⟩ := object
    cases hfold : options.foldedInto? name with
    | none =>
      rw [go_cons_of_none hfold] at h
      rcases List.mem_cons.1 h with rfl | h
      · refine ⟨(name, entry), List.mem_cons_self, ?_, fun group _ => by rw [hfold]; exact nofun⟩
        rw [entryOf, hfold]
        rfl
      · obtain ⟨object, hobject, hentry⟩ := ih h
        exact ⟨object, List.mem_cons_of_mem _ hobject, hentry⟩
    | some group =>
      by_cases hmem : group ∈ groups
      · rw [go_cons_of_mem hfold hmem] at h
        obtain ⟨object, hobject, hentry⟩ := ih h
        exact ⟨object, List.mem_cons_of_mem _ hobject, hentry⟩
      · rw [go_cons_of_not_mem hfold hmem] at h
        rcases List.mem_cons.1 h with rfl | h
        · refine ⟨(name, own), List.mem_cons_self, ?_, fun other hother => ?_⟩
          · rw [entryOf, hfold]
            rfl
          · rw [hfold]
            intro hsame
            obtain rfl := Option.some.inj hsame
            exact hmem hother
        · obtain ⟨object, hobject, hentry, hgroups⟩ := ih h
          exact ⟨object, List.mem_cons_of_mem _ hobject, hentry, fun other hother =>
            hgroups other (List.mem_cons_of_mem _ hother)⟩

/-- Each object has its entry, if its group has not had its own before. -/
theorem entryOf_mem_go (hobject : (name, own) ∈ objects)
    (hgroups : ∀ group ∈ groups, options.foldedInto? name ≠ some group) :
    options.entryOf name own ∈ entries.go options groups objects := by
  induction objects generalizing groups with
  | nil => cases hobject
  | cons first rest ih =>
    obtain ⟨first, info⟩ := first
    cases hfold : options.foldedInto? first with
    | none =>
      rw [go_cons_of_none hfold]
      rcases List.mem_cons.1 hobject with heq | hobject
      · obtain ⟨rfl, rfl⟩ := Prod.mk.inj heq
        rw [entryOf, hfold]
        exact List.mem_cons_self
      · exact List.mem_cons_of_mem _ (ih hobject hgroups)
    | some group =>
      by_cases hmem : group ∈ groups
      · rw [go_cons_of_mem hfold hmem]
        rcases List.mem_cons.1 hobject with heq | hobject
        · obtain ⟨rfl, rfl⟩ := Prod.mk.inj heq
          exact absurd hfold (hgroups group hmem)
        · exact ih hobject hgroups
      · rw [go_cons_of_not_mem hfold hmem]
        by_cases hsame : options.foldedInto? name = some group
        · rw [entryOf, hsame]
          exact List.mem_cons_self
        · rcases List.mem_cons.1 hobject with heq | hobject
          · obtain ⟨rfl, rfl⟩ := Prod.mk.inj heq
            exact absurd hfold hsame
          · refine List.mem_cons_of_mem _ (ih hobject fun other hother => ?_)
            rcases List.mem_cons.1 hother with rfl | hother
            · exact hsame
            · exact hgroups other hother

/-- The entries of objects in name order are in the order of their own names. -/
theorem pairwise_go (hsorted : objects.Pairwise fun a b => a.1 < b.1)
    (hstart : ∀ object ∈ objects, Text.startsWith object.1 options.start = true)
    (hown : ∀ object ∈ objects, object.2.name = object.1) :
    (entries.go options groups objects).Pairwise fun a b => a.name < b.name := by
  induction objects generalizing groups with
  | nil => exact .nil
  | cons object rest ih =>
    obtain ⟨name, own⟩ := object
    obtain ⟨hfirst, hsorted⟩ := List.pairwise_cons.1 hsorted
    replace ih : ∀ {groups}, (entries.go options groups rest).Pairwise fun a b => a.name < b.name :=
      ih hsorted (fun object hobject => hstart object (List.mem_cons_of_mem _ hobject))
        fun object hobject => hown object (List.mem_cons_of_mem _ hobject)
    -- What comes behind the first entry is greater, as nothing of its group comes there.
    have hbehind : ∀ groups, (∀ group, options.foldedInto? name = some group → group ∈ groups) →
        ∀ entry ∈ entries.go options groups rest, (options.entryOf name own).name < entry.name := by
      intro groups hgroup entry hentry
      obtain ⟨object, hobject, rfl, hgroups⟩ := exists_of_mem_go hentry
      refine (entryOf_lt (hfirst object hobject) (hstart _ List.mem_cons_self)
        (hstart object (List.mem_cons_of_mem _ hobject)) (hown _ List.mem_cons_self)
        (hown object (List.mem_cons_of_mem _ hobject))).resolve_right fun hsame => ?_
      obtain ⟨group, hfold, hfold'⟩ := hsame
      exact hgroups group (hgroup group hfold) hfold'
    cases hfold : options.foldedInto? name with
    | none =>
      rw [go_cons_of_none hfold]
      have hentry : options.entryOf name own = own := by
        rw [entryOf, hfold]
        rfl
      rw [hfold, hentry] at hbehind
      exact List.pairwise_cons.2 ⟨hbehind groups nofun, ih⟩
    | some group =>
      by_cases hmem : group ∈ groups
      · rw [go_cons_of_mem hfold hmem]
        exact ih
      · rw [go_cons_of_not_mem hfold hmem]
        have hentry : options.entryOf name own = .group group := by
          rw [entryOf, hfold]
          rfl
        rw [hfold, hentry] at hbehind
        refine List.pairwise_cons.2 ⟨hbehind _ fun other hother => ?_, ih⟩
        rw [Option.some.inj hother]
        exact List.mem_cons_self

/-- A listing of the objects that are described by their names: its entries are in the order of their
bytes, each object whose name starts as is asked for has one entry, and each entry is that of an object.
Without a delimiter these are the objects' own entries. -/
structure Lists (options : ListOptions) (described : String → Option ObjectInfo)
    (infos : List ObjectInfo) : Prop where
  sorted : infos.Pairwise fun a b => Text.utf8 a.name < Text.utf8 b.name
  represented : ∀ name own, described name = some own → Text.startsWith name options.start = true →
    ∃! entry, entry ∈ infos ∧ options.Represents name own entry
  represents : ∀ entry ∈ infos, ∃ name own, described name = some own ∧
    options.Represents name own entry
  plain : options.delimiter = none → ∀ entry, entry ∈ infos ↔
    ∃ name, described name = some entry ∧ Text.startsWith name options.start = true

/-- Objects that are given in name order are listed in this way. -/
theorem lists_select {described : String → Option ObjectInfo}
    (hsorted : objects.Pairwise fun a b => a.1 < b.1)
    (hmem : ∀ name own, (name, own) ∈ objects ↔ described name = some own)
    (hown : ∀ name own, described name = some own → own.name = name) :
    options.Lists described (options.select objects) := by
  have hfilter : ∀ object, object ∈ objects.filter (fun object => Text.startsWith object.1 options.start) ↔
      described object.1 = some object.2 ∧ Text.startsWith object.1 options.start = true := by
    intro object
    rw [List.mem_filter, hmem]
  have hlisted : ∀ name own, described name = some own → Text.startsWith name options.start = true →
      options.entryOf name own ∈ options.select objects := by
    intro name own hname hstart
    exact entryOf_mem_go ((hfilter (name, own)).2 ⟨hname, hstart⟩) fun group hgroup => nomatch hgroup
  have hshown : ∀ entry ∈ options.select objects, ∃ name own, described name = some own ∧
      Text.startsWith name options.start = true ∧ entry = options.entryOf name own := by
    intro entry hentry
    obtain ⟨object, hobject, hentry, -⟩ := exists_of_mem_go hentry
    obtain ⟨hname, hstart⟩ := (hfilter object).1 hobject
    exact ⟨object.1, object.2, hname, hstart, hentry⟩
  refine ⟨?_, ?_, ?_, ?_⟩
  · refine (pairwise_go (hsorted.filter _) (fun object hobject => ((hfilter object).1 hobject).2)
      fun object hobject => hown _ _ ((hfilter object).1 hobject).1).imp fun h => Text.utf8_lt_of_lt h
  · intro name own hname hstart
    refine ⟨options.entryOf name own, ⟨hlisted name own hname hstart, (represents_iff hstart).2 rfl⟩, ?_⟩
    intro entry hentry
    exact (represents_iff hstart).1 hentry.2
  · intro entry hentry
    obtain ⟨name, own, hname, hstart, hentry⟩ := hshown entry hentry
    exact ⟨name, own, hname, (represents_iff hstart).2 hentry⟩
  · intro hplain entry
    have hentry : ∀ name own, options.entryOf name own = own := by
      intro name own
      rw [entryOf, foldedInto?, hplain]
      rfl
    simp only [hentry] at hlisted hshown
    constructor
    · intro h
      obtain ⟨name, own, hname, hstart, rfl⟩ := hshown entry h
      exact ⟨name, hname, hstart⟩
    · intro h
      obtain ⟨name, hname, hstart⟩ := h
      exact hlisted name entry hname hstart

end ListOptions

end SegmentedFiles

import SegmentedFiles.Proofs.Object.Listing
import SegmentedFiles.Proofs.Volume.Below
import SegmentedFiles.Proofs.Volume.Create

/-! # What lies in a directory

A listing that folds names shows those objects by themselves in whose names no delimiter comes after the
start (`select_folded`), so what a directory is listed with are the paths whose parent it is. Where the
objects below the volume's own name are called as paths are, these are all objects in the directory, each
once and in the order of their bytes; and a listing fails where nothing is at the path (`children_exact`).
-/

namespace SegmentedFiles

variable {name start : String} {c : Char}

/-! ## Listings that fold names -/

theorem MemoryStore.answer_list_folded (start : String) (c : Char) {m : MemoryStore} {container : String}
    (hc : container ∈ m.containers) :
    ∃ infos, answer (.list container (.folded start c)) m = (.ok infos, m) ∧
      infos.filter (fun info => !info.pseudoDirectory)
        = ((m.under container start).filter fun object => (ListOptions.group? object.1 start c).isNone).map
            fun object => object.2.entry object.1 := by
  refine ⟨(ListOptions.folded start c).select ((m.objects container).toList.map fun o =>
    (o.1, o.2.entry o.1)), by simp only [answer, getElem?_containers hc], ?_⟩
  rw [ListOptions.select, ListOptions.entries_folded]
  · rw [List.filter_map, List.filter_map, List.map_map]
    rfl
  · intro object hobject
    obtain ⟨o, -, rfl⟩ := List.mem_map.1 (List.mem_filter.1 hobject).1
    rfl

/-! ## Paths in a directory -/

variable {path q : String} {rest : List Char}

namespace Path

/-- How the paths in a directory begin, after their first slash. -/
def inside (path : String) : List Char := path.toList.tail ++ if path = "/" then [] else ['/']

theorem parent_of_last {before last : List Char} (h : q.toList = before ++ '/' :: last)
    (hlast : '/' ∉ last) : parent q = if before = [] then "/" else String.ofList before := by
  rw [parent, Text.beforeLast?_eq h hlast]
  dsimp only
  by_cases hempty : before = []
  · rw [if_pos hempty, hempty]
    rfl
  · rw [if_neg hempty, if_neg]
    rw [String.isEmpty_iff, ← String.toList_inj, String.toList_ofList]
    exact hempty

/-- A path lies in a directory if no slash comes after the directory's name and its slash. -/
theorem parent_eq_iff (hpath : isValid path = true) (hq : q.toList = '/' :: rest)
    (hrest : rest.head? ≠ some '/') :
    parent q = path ↔ ∃ last, rest = inside path ++ last ∧ '/' ∉ last := by
  obtain ⟨p, hp, -⟩ := exists_rest_of_isValid hpath
  constructor
  · rintro rfl
    obtain ⟨before, last, htext, hlast⟩ := exists_last_slash (show '/' ∈ q.toList by rw [hq]; simp)
    refine ⟨last, ?_, hlast⟩
    rw [parent_of_last htext hlast, inside]
    rw [hq] at htext
    cases before with
    | nil => exact (List.cons.inj htext).2
    | cons c before =>
      obtain ⟨rfl, rfl⟩ := List.cons.inj htext
      have hne : String.ofList ('/' :: before) ≠ "/" := by
        intro hroot
        rw [← String.toList_inj, String.toList_ofList] at hroot
        obtain rfl := (List.cons.inj hroot).2
        exact hrest rfl
      rw [if_neg (List.cons_ne_nil _ _), if_neg hne, String.toList_ofList, List.tail_cons,
        List.append_assoc]
      rfl
  · intro h
    obtain ⟨last, hinside, hlast⟩ := h
    rw [hinside, inside, hp, List.tail_cons] at hq
    by_cases hroot : path = "/"
    · obtain rfl : p = [] := by
        rw [hroot] at hp
        exact (List.cons.inj hp).2.symm
      rw [if_pos hroot] at hq
      have hslash : q.toList = [] ++ '/' :: last := hq
      rw [parent_of_last hslash hlast, if_pos rfl, hroot]
    · rw [if_neg hroot] at hq
      have htext : q.toList = ('/' :: p) ++ '/' :: last := by
        rw [hq, List.append_assoc]
        rfl
      rw [parent_of_last htext hlast, if_neg (List.cons_ne_nil _ _), ← hp, String.ofList_toList]

end Path

namespace Volume

open MemoryStore (answer)
open VolumeAction

variable {v : Volume} {m : MemoryStore}

/-! ## Names and paths -/

theorem nameRoot_of_empty (hroot : Text.trim '/' v.root = "") : v.nameRoot = [] := by
  have hslashes : (Text.trimEnd '/' v.root).toList.dropWhile (· == '/') = [] := by
    rw [← trimStart_trimEnd, Text.trimStart, ← String.toList_inj, String.toList_ofList] at hroot
    exact hroot
  rw [nameRoot, String.toList_append, List.dropWhile_append, hslashes]
  rfl

theorem nameRoot_of_root (hroot : Text.trim '/' v.root ≠ "") :
    v.nameRoot = (Text.trim '/' v.root).toList ++ ['/'] := by
  have hname := congrArg String.toList (storeName_of_root hroot "/")
  rw [toList_storeName, String.toList_append] at hname
  rw [nameRoot, String.toList_append]
  exact hname

theorem storeDirectory_of_empty (hroot : Text.trim '/' v.root = "") : v.storeDirectory "/" = "" := by
  have hname : v.storeName "/" = "" := by
    rw [← String.toList_inj, toList_storeName, ← String.toList_append]
    exact nameRoot_of_empty hroot
  rw [storeDirectory, hname]
  rfl

/-- The start of the names that are listed for a directory. -/
theorem toList_below_storeDirectory (hpath : Path.isValid path = true) :
    (below (v.storeDirectory path)).toList = v.nameRoot ++ Path.inside path := by
  rw [Path.isValid, Bool.or_eq_true, beq_iff_eq] at hpath
  rcases hpath with rfl | hpath
  · have hinside : Path.inside "/" = [] := by decide
    rw [hinside, List.append_nil]
    by_cases hroot : Text.trim '/' v.root = ""
    · rw [storeDirectory_of_empty hroot, nameRoot_of_empty hroot]
      rfl
    · have hne : ¬(Text.trim '/' v.root).isEmpty = true := fun h => hroot (String.isEmpty_iff.1 h)
      rw [storeDirectory_root hroot, below, if_neg hne, nameRoot_of_root hroot, String.toList_append]
      rfl
  · obtain ⟨rest, hrest, hhead⟩ := Path.exists_rest_of_isValid (Path.isValid_of_isBelowRoot hpath)
    have hne : ¬(v.storeName path).isEmpty = true :=
      fun h => storeName_ne_empty hpath (String.isEmpty_iff.1 h)
    have hroot : path ≠ "/" := by
      rintro rfl
      exact absurd hpath (by decide)
    rw [storeDirectory_eq hpath, below, if_neg hne, String.toList_append,
      toList_storeName_of_rest hrest hhead, Path.inside, hrest, if_neg hroot, List.append_assoc]
    rfl

/-- A path is found again in the name of its object, whatever slashes the volume's own name has. -/
theorem logicalPath_storeName (hq : Path.isValid q = true) : v.logicalPath (v.storeName q) = q := by
  obtain ⟨rest, hrest, hhead⟩ := Path.exists_rest_of_isValid hq
  have hwhole : ∀ text : String, text.toList.dropWhile (· == '/') = rest →
      "/" ++ Text.trimStart '/' text = q := by
    intro text htext
    rw [← String.toList_inj, String.toList_append, Text.trimStart, htext, hrest]
    exact congrArg (List.cons '/') String.toList_ofList
  unfold logicalPath
  dsimp only
  rw [← storeDirectory]
  rw [Path.isValid, Bool.or_eq_true, beq_iff_eq] at hq
  rcases hq with rfl | hq
  · obtain rfl : rest = [] := (List.cons.inj hrest).2.symm
    by_cases hroot : Text.trim '/' v.root = ""
    · rw [storeDirectory_of_empty hroot, if_pos (String.isEmpty_iff.2 hroot)]
      exact hwhole "" rfl
    · have hne : ¬(Text.trim '/' v.root).isEmpty = true := fun h => hroot (String.isEmpty_iff.1 h)
      have hafter : Text.after? (Text.trim '/' v.root) (Text.trim '/' v.root) = some "" :=
        Text.after?_eq_some_iff.2 String.append_empty.symm
      rw [storeDirectory_root hroot, if_neg hne, hafter]
      exact hwhole "" rfl
  · rw [storeDirectory_eq hq]
    by_cases hroot : Text.trim '/' v.root = ""
    · rw [if_pos (String.isEmpty_iff.2 hroot)]
      refine hwhole _ ?_
      rw [toList_storeName_of_rest hrest hhead, nameRoot_of_empty hroot]
      exact dropWhile_slash hhead
    · have hne : ¬(Text.trim '/' v.root).isEmpty = true := fun h => hroot (String.isEmpty_iff.1 h)
      rw [if_neg hne, Text.after?_eq_some_iff.2 (storeName_of_root hroot q)]
      refine hwhole q ?_
      rw [hrest, List.dropWhile_cons_of_pos rfl, dropWhile_slash hhead]

/-- Paths are in the order of their objects' names. -/
theorem lt_of_storeName_lt {q' : String} (hq : Path.isValid q = true) (hq' : Path.isValid q' = true)
    (h : v.storeName q < v.storeName q') : q < q' := by
  obtain ⟨rest, hrest, hhead⟩ := Path.exists_rest_of_isValid hq
  obtain ⟨rest', hrest', hhead'⟩ := Path.exists_rest_of_isValid hq'
  rw [String.lt_iff, toList_storeName_of_rest hrest hhead, toList_storeName_of_rest hrest' hhead'] at h
  rw [String.lt_iff, hrest, hrest']
  exact List.cons_lt_cons_iff.2 (.inr ⟨rfl, Text.lt_of_append_lt h⟩)

/-! ## The children of a path -/

/-- There is an object at the path `q`, which lies in the directory `path`. -/
def IsChild (v : Volume) (m : MemoryStore) (path q : String) : Prop :=
  Path.isBelowRoot q = true ∧ (∃ o, m.object? v.container (v.storeName q) = some o) ∧
    Path.parent q = path

/-- The objects at and below the volume's own name are called as its paths are. -/
def NamedByPaths (v : Volume) (m : MemoryStore) : Prop :=
  ∀ name o, m.object? v.container name = some o → AtOrBelow (Text.trim '/' v.root) name →
    ∃ q, Path.isBelowRoot q = true ∧ name = v.storeName q

/-- The names that are listed by themselves for a directory. -/
def childNames (v : Volume) (m : MemoryStore) (path : String) : List String :=
  ((m.under v.container (below (v.storeDirectory path))).filter fun object =>
    (ListOptions.group? object.1 (below (v.storeDirectory path)) '/').isNone).map Prod.fst

theorem pairwise_childNames (v : Volume) (m : MemoryStore) (path : String) :
    (v.childNames m path).Pairwise fun a b => compare a b = .lt :=
  List.pairwise_map.2 ((m.pairwise_under _ _).filter _)

/-- What is listed for a directory lies below the volume's own name. -/
theorem atOrBelow_root_of_listed (hpath : Path.isValid path = true)
    (h : Text.startsWith name (below (v.storeDirectory path)) = true) :
    AtOrBelow (Text.trim '/' v.root) name := by
  by_cases hroot : Text.trim '/' v.root = ""
  · exact .inl (String.isEmpty_iff.2 hroot)
  · refine .inr (.inr (Text.startsWith_iff.2 ?_))
    rw [Text.startsWith_iff, toList_below_storeDirectory hpath, nameRoot_of_root hroot] at h
    rw [String.toList_append]
    exact (List.prefix_append _ _).trans h

theorem mem_childNames (hnamed : v.NamedByPaths m) (hpath : Path.isValid path = true) :
    name ∈ v.childNames m path ↔ ∃ q, v.IsChild m path q ∧ name = v.storeName q := by
  have hstart := toList_below_storeDirectory (v := v) hpath
  rw [childNames, List.mem_map]
  constructor
  · intro h
    obtain ⟨⟨name, o⟩, hobject, rfl⟩ := h
    obtain ⟨hunder, hgroup⟩ := List.mem_filter.1 hobject
    obtain ⟨ho, hprefix⟩ := MemoryStore.mem_under.1 hunder
    obtain ⟨q, hq, rfl⟩ := hnamed name o ho (atOrBelow_root_of_listed hpath hprefix)
    obtain ⟨rest, hrest, hhead⟩ := Path.exists_rest_of_isValid (Path.isValid_of_isBelowRoot hq)
    refine ⟨q, ⟨hq, ⟨o, ho⟩, (Path.parent_eq_iff hpath hrest hhead).2 ?_⟩, rfl⟩
    obtain ⟨last, hlast⟩ := Text.startsWith_iff.1 hprefix
    have hname : v.storeName q = below (v.storeDirectory path) ++ String.ofList last := by
      rw [← String.toList_inj, String.toList_append, String.toList_ofList, hlast]
    dsimp only at hgroup
    rw [hname, Option.isNone_iff_eq_none, ListOptions.group?_eq_none_iff, String.toList_ofList] at hgroup
    rw [hstart, toList_storeName_of_rest hrest hhead, List.append_assoc, List.append_cancel_left_eq] at hlast
    exact ⟨last, hlast.symm, hgroup⟩
  · intro h
    obtain ⟨q, ⟨hq, ⟨o, ho⟩, hparent⟩, rfl⟩ := h
    obtain ⟨rest, hrest, hhead⟩ := Path.exists_rest_of_isValid (Path.isValid_of_isBelowRoot hq)
    obtain ⟨last, rfl, hlast⟩ := (Path.parent_eq_iff hpath hrest hhead).1 hparent
    have hname : v.storeName q = below (v.storeDirectory path) ++ String.ofList last := by
      rw [← String.toList_inj, String.toList_append, String.toList_ofList, hstart,
        toList_storeName_of_rest hrest hhead, List.append_assoc]
    have hprefix : Text.startsWith (v.storeName q) (below (v.storeDirectory path)) = true := by
      rw [Text.startsWith_iff, hname, String.toList_append]
      exact List.prefix_append _ _
    have hgroup : (ListOptions.group? (v.storeName q) (below (v.storeDirectory path)) '/').isNone = true := by
      rw [hname, Option.isNone_iff_eq_none, ListOptions.group?_eq_none_iff, String.toList_ofList]
      exact hlast
    exact ⟨(v.storeName q, o), List.mem_filter.2 ⟨MemoryStore.mem_under.2 ⟨ho, hprefix⟩, hgroup⟩, rfl⟩

/-- What a listing comes to: the paths of the names that are listed, or that nothing is there. -/
theorem children_runOn (hc : v.container ∈ m.containers) (hpath : Path.isValid path = true) :
    (v.children path).runOn answer m =
      (if v.childNames m path = [] ∧ path ≠ "/" ∧ m.object? v.container (v.storeName path) = none then
        .error (.pathNotFound path) else .ok ((v.childNames m path).map v.logicalPath), m) := by
  obtain ⟨infos, hlist, hinfos⟩ := MemoryStore.answer_list_folded (below (v.storeDirectory path)) '/' hc
  have hpaths : (infos.filter fun info => !info.pseudoDirectory).map (fun info => v.logicalPath info.name)
      = (v.childNames m path).map v.logicalPath := by
    rw [hinfos, childNames, List.map_map, List.map_map]
    rfl
  have hends : Ensures (answer.mayFail never) (v.children path) m
      (fun paths t => ¬(v.childNames m path = [] ∧ path ≠ "/" ∧
          m.object? v.container (v.storeName path) = none) ∧
        paths = (v.childNames m path).map v.logicalPath ∧ t = m)
      fun e t => (v.childNames m path = [] ∧ path ≠ "/" ∧
          m.object? v.container (v.storeName path) = none) ∧ e = .pathNotFound path ∧ t = m := by
    have hcheck : checkPath path true = pure () := by
      rw [checkPath, if_pos]
      rw [Path.isValid, Bool.or_comm] at hpath
      exact hpath
    have hstart : (if (v.storeDirectory path).isEmpty = true then v.storeDirectory path
        else v.storeDirectory path ++ "/") = below (v.storeDirectory path) := by
      rw [below]
      split
      · next hempty => exact String.isEmpty_iff.1 hempty
      · rfl
    unfold children
    rw [hcheck, pure_bind]
    dsimp only
    rw [hstart]
    refine ensures_at_bind hlist ?_ fun _ hcall => hcall.elim
    rw [hpaths]
    simp only [Bool.and_eq_true, List.isEmpty_iff, List.map_eq_nil_iff, bne_iff_ne]
    split
    · next hempty =>
      cases ho : m.object? v.container (v.storeName path) with
      | some o =>
        refine ensures_at_bind (MemoryStore.answer_head_of_some ho) ?_ fun _ hcall => hcall.elim
        refine ensures_pure ⟨?_, rfl, rfl⟩
        rintro ⟨-, -, hnone⟩
        cases hnone
      | none =>
        have hhead : Ensures (answer.mayFail never) ((StoreCall.head v.container (v.storeName path)).at path) m
            (fun _ _ => False) fun e t => e = .pathNotFound path ∧ t = m := by
          refine ensures_at ?_
          intro reply t hreply
          rcases hreply with hreply | ⟨hcall, -⟩
          · rw [MemoryStore.answer_head_of_none ho] at hreply
            obtain ⟨rfl, rfl⟩ := Prod.mk.inj hreply
            exact ⟨rfl, rfl⟩
          · exact hcall.elim
        exact hhead.bind_mono (fun _ _ hend => ⟨⟨hempty.1, hempty.2, rfl⟩, hend⟩) fun _ _ hnever => hnever.elim
    · next hempty =>
      exact ensures_pure ⟨fun h => hempty ⟨h.1, h.2.1⟩, rfl, rfl⟩
  have hend := hends.runOn
  split at hend
  · next paths t hrun =>
    obtain ⟨hthere, rfl, rfl⟩ := hend
    rw [hrun, if_neg hthere]
  · next e t hrun =>
    obtain ⟨hmissing, rfl, rfl⟩ := hend
    rw [hrun, if_pos hmissing]

/-- There is something to be told of a child. -/
theorem IsChild.stat_runOn (h : v.IsChild m path q) :
    ∃ info, (v.stat q).runOn answer m = (.ok info, m) := by
  obtain ⟨hq, ⟨o, ho⟩, -⟩ := h
  have hends : Ensures (answer.mayFail never) (v.stat q) m (fun _ t => t = m) fun _ _ => False := by
    rw [stat, checkPath, if_pos (by rw [hq]; rfl), pure_bind]
    exact ensures_at_bind (MemoryStore.answer_head_of_some ho) (ensures_pure rfl) fun _ hcall => hcall.elim
  obtain ⟨info, t, hrun, rfl⟩ := hends.exists_runOn
  exact ⟨info, hrun⟩

section Named

variable (hnamed : v.NamedByPaths m) (hpath : Path.isValid path = true)

include hnamed hpath

theorem childNames_eq_nil_iff : v.childNames m path = [] ↔ ∀ q, ¬v.IsChild m path q := by
  rw [List.eq_nil_iff_forall_not_mem]
  constructor
  · intro h q hq
    exact h _ ((mem_childNames hnamed hpath).2 ⟨q, hq, rfl⟩)
  · intro h name hname
    obtain ⟨q, hq, -⟩ := (mem_childNames hnamed hpath).1 hname
    exact h q hq

theorem mem_map_childNames : q ∈ (v.childNames m path).map v.logicalPath ↔ v.IsChild m path q := by
  rw [List.mem_map]
  constructor
  · intro h
    obtain ⟨name, hname, rfl⟩ := h
    obtain ⟨q, hq, rfl⟩ := (mem_childNames hnamed hpath).1 hname
    rwa [logicalPath_storeName (Path.isValid_of_isBelowRoot hq.1)]
  · intro hq
    exact ⟨v.storeName q, (mem_childNames hnamed hpath).2 ⟨q, hq, rfl⟩,
      logicalPath_storeName (Path.isValid_of_isBelowRoot hq.1)⟩

theorem pairwise_map_childNames :
    ((v.childNames m path).map v.logicalPath).Pairwise fun a b => Text.utf8 a < Text.utf8 b := by
  rw [List.pairwise_map]
  refine (v.pairwise_childNames m path).imp_of_mem ?_
  intro name name' hname hname' hlt
  replace hlt : name < name' := compareOfLessAndEq_eq_lt.1 hlt
  obtain ⟨q, hq, rfl⟩ := (mem_childNames hnamed hpath).1 hname
  obtain ⟨q', hq', rfl⟩ := (mem_childNames hnamed hpath).1 hname'
  have hvalid := Path.isValid_of_isBelowRoot hq.1
  have hvalid' := Path.isValid_of_isBelowRoot hq'.1
  rw [logicalPath_storeName hvalid, logicalPath_storeName hvalid']
  exact Text.utf8_lt_of_lt (lt_of_storeName_lt hvalid hvalid' hlt)

end Named

/-- Paths are found again in the names of their objects. Where the objects at and below the volume's own
name are called as paths are, a listing gives the children of a path, each once and in the order of
their bytes, and there is something at each of them. It fails where there are none and nothing is at the
path, unless that is the root, and says that nothing was found. -/
theorem children_exact (v : Volume) :
    (∀ q, Path.isValid q = true → v.logicalPath (v.storeName q) = q) ∧
    ∀ m path, v.container ∈ m.containers → v.NamedByPaths m → Path.isValid path = true →
      ∃ result, (v.children path).runOn answer m = (result, m) ∧
        (∀ paths, result = .ok paths → (∀ q, q ∈ paths ↔ v.IsChild m path q) ∧
          paths.Nodup ∧ paths.Pairwise (fun a b => Text.utf8 a < Text.utf8 b) ∧
          ∀ q ∈ paths, ∃ info, (v.stat q).runOn answer m = (.ok info, m)) ∧
        ∀ e, result = .error e ↔ e = .pathNotFound path ∧ (∀ q, ¬v.IsChild m path q) ∧ path ≠ "/" ∧
          m.object? v.container (v.storeName path) = none := by
  refine ⟨fun q => logicalPath_storeName, fun m path hc hnamed hpath =>
    ⟨_, children_runOn hc hpath, ?_, ?_⟩⟩
  · intro paths hpaths
    split at hpaths
    · cases hpaths
    · obtain rfl := Except.ok.inj hpaths
      have hmem := fun q => mem_map_childNames (q := q) hnamed hpath
      have hsorted := pairwise_map_childNames hnamed hpath
      refine ⟨hmem, hsorted.imp fun hlt hsame => ?_, hsorted, fun q hq => ((hmem q).1 hq).stat_runOn⟩
      exact List.lt_irrefl _ (hsame ▸ hlt)
  · intro e
    rw [← childNames_eq_nil_iff hnamed hpath]
    split
    · next hmissing =>
      constructor
      · intro h
        exact ⟨(Except.error.inj h).symm, hmissing⟩
      · intro h
        rw [h.1]
    · next hthere =>
      exact ⟨nofun, fun h => absurd h.2 hthere⟩

/-- A volume whose name has slashes around it. -/
def prefixedVolume : Volume := ⟨"files", "/pre//", 8, by decide, true⟩

/-- A directory with a file in it and one farther below, and an object whose name only begins as the
volume's own does. -/
def nestedStore : MemoryStore :=
  ["pre/d", "pre/d/x", "pre/d/e/y", "prefix/z"].foldl
    (fun m name => m.place "files" name ⟨ByteArray.empty, fileType, Timestamp.epoch, "", none⟩)
    (fresh "files" true Timestamp.epoch)

theorem mem_of_object?_nestedStore {o : StoredObject} (h : nestedStore.object? "files" name = some o) :
    name ∈ ["pre/d", "pre/d/x", "pre/d/e/y", "prefix/z"] := by
  simp only [nestedStore, List.foldl_cons, List.foldl_nil, MemoryStore.object?_place, object?_fresh,
    true_and] at h
  simp only [List.mem_cons]
  split_ifs at h <;> simp_all

/-- In the directory there is the one file. -/
theorem children_exact_of_nested :
    prefixedVolume.logicalPath (prefixedVolume.storeName "/d/x") = "/d/x" ∧
      (prefixedVolume.children "/d").runOn answer nestedStore = (.ok ["/d/x"], nestedStore) ∧
      ∃ info, (prefixedVolume.stat "/d/x").runOn answer nestedStore = (.ok info, nestedStore) := by
  obtain ⟨hlogical, hchildren⟩ := children_exact prefixedVolume
  have ho : nestedStore.object? "files" "pre/d/x"
      = some ⟨ByteArray.empty, fileType, Timestamp.epoch, "", none⟩ := by
    simp [nestedStore, MemoryStore.object?_place]
  have hnamed : prefixedVolume.NamedByPaths nestedStore := by
    intro name o ho hbelow
    have hname := mem_of_object?_nestedStore ho
    simp only [List.mem_cons, List.not_mem_nil, or_false] at hname
    rcases hname with rfl | rfl | rfl | rfl
    · exact ⟨"/d", by decide, by decide⟩
    · exact ⟨"/d/x", by decide, by decide⟩
    · exact ⟨"/d/e/y", by decide, by decide⟩
    · exact absurd hbelow (by unfold AtOrBelow; decide)
  have hchild : ∀ q, prefixedVolume.IsChild nestedStore "/d" q ↔ q = "/d/x" := by
    intro q
    constructor
    · intro h
      obtain ⟨hq, ⟨o, ho⟩, hparent⟩ := h
      have hpath := hlogical q (Path.isValid_of_isBelowRoot hq)
      have hname := mem_of_object?_nestedStore ho
      simp only [List.mem_cons, List.not_mem_nil, or_false] at hname
      rcases hname with hname | hname | hname | hname <;> rw [hname] at hpath <;> subst hpath
      · exact absurd hparent (by decide)
      · decide
      · exact absurd hparent (by decide)
      · exact absurd hparent (by decide)
    · rintro rfl
      exact ⟨by decide, ⟨_, ho⟩, by decide⟩
  obtain ⟨result, hrun, hok, herror⟩ := hchildren nestedStore "/d"
    (MemoryStore.mem_containers_of_object? ho) hnamed (by decide)
  cases result with
  | error e => exact absurd ((hchild "/d/x").2 rfl) (((herror e).1 rfl).2.1 "/d/x")
  | ok paths =>
    obtain ⟨hmem, hnodup, -, hstat⟩ := hok paths rfl
    have hpaths : paths = ["/d/x"] := by
      refine List.Perm.eq_singleton ((List.perm_ext_iff_of_nodup hnodup (List.nodup_singleton _)).2 ?_)
      intro q
      rw [hmem, hchild, List.mem_singleton]
    subst hpaths
    exact ⟨hlogical "/d/x" (by decide), hrun, hstat "/d/x" (List.mem_singleton.2 rfl)⟩

end Volume

end SegmentedFiles

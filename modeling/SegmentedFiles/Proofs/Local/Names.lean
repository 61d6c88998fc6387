import Mathlib.Data.List.Basic
import Mathlib.Data.List.Pairwise
import SegmentedFiles.Disk.Tree
import SegmentedFiles.Local.Names
import SegmentedFiles.Object.Info

/-! # Where the content of an object is kept

The file of an object is four names below the root: its container's, two shards, and the digest. Two objects
have the same file only if the digest of their places is the same (`payloadPath_inj`). The two directories
that may be left empty are what lies between the container's and the file. -/

namespace SegmentedFiles

/-- No two of these texts have the same digest. -/
def Md5.CollisionFree (texts : List String) : Prop :=
  ∀ a ∈ texts, ∀ b ∈ texts, digest a.toUTF8 = digest b.toUTF8 → a = b

/-- Each text has to be compared with those behind it only. -/
theorem Md5.collisionFree_iff_pairwise {texts : List String} :
    CollisionFree texts ↔
      texts.Pairwise fun a b => a = b ∨ digest a.toUTF8 ≠ digest b.toUTF8 := by
  have : Std.Symm fun a b : String => a = b ∨ digest a.toUTF8 ≠ digest b.toUTF8 :=
    ⟨fun a b h => h.imp Eq.symm Ne.symm⟩
  constructor
  · intro h
    exact List.pairwise_of_forall_mem_list fun a ha b hb => Classical.or_iff_not_imp_right.2 fun hsame =>
      h a ha b hb (not_not.1 hsame)
  · intro h a ha b hb hsame
    exact (h.forall_of_forall (fun _ _ => .inl rfl) ha hb).resolve_right fun hne => hne hsame

instance (texts : List String) : Decidable (Md5.CollisionFree texts) :=
  letI : DecidableEq ByteArray := ByteArray.instDecidableEq
  decidable_of_iff _ Md5.collisionFree_iff_pairwise.symm

/-- A place in a store, written as it is digested. -/
def ObjectTarget.text (target : ObjectTarget) : String := target.container ++ "/" ++ target.name

namespace Local

variable {c c' n n' : String} {path front : List String}

theorem length_digest (c n : String) : (digest c n).length = 32 := by
  have hencode : ∀ bytes : List UInt8, (bytes.flatMap Hex.ofByte).length = 2 * bytes.length := by
    intro bytes
    induction bytes with
    | nil => rfl
    | cons byte rest ih =>
      rw [List.flatMap_cons, List.length_append, ih, List.length_cons]
      simp only [Hex.ofByte, List.length_cons, List.length_nil]
      omega
  rw [digest, Md5.hexDigest, Hex.encode, String.toList_ofList, hencode, Array.length_toList,
    ByteArray.size_data, Md5.size_digest]

theorem length_payloadPath (c n : String) : (payloadPath c n).length = 4 := rfl

/-- Objects that share a file share a container, and the digest of their places is the same. -/
theorem payloadPath_inj (h : payloadPath c n = payloadPath c' n') :
    c = c' ∧ Md5.digest (c ++ "/" ++ n).toUTF8 = Md5.digest (c' ++ "/" ++ n').toUTF8 := by
  have hnames : [c] ++ shards c n ++ [String.ofList (digest c n)]
      = [c'] ++ shards c' n' ++ [String.ofList (digest c' n')] := h
  simp only [shards, List.cons_append, List.nil_append, List.cons.injEq, and_true] at hnames
  obtain ⟨hc, -, -, hdigest⟩ := hnames
  refine ⟨hc, ?_⟩
  rw [String.ofList_inj, digest, digest, String.toList_inj] at hdigest
  have hdecode := congrArg Hex.decode? hdigest
  rwa [Md5.hexDigest, Md5.hexDigest, Hex.decode?_encode, Hex.decode?_encode, Option.some.injEq] at hdecode

/-- If the digests of two objects' places differ, so do their files. -/
theorem payloadPath_ne {texts : List String} (hfree : Md5.CollisionFree texts)
    (hn : c ++ "/" ++ n ∈ texts) (hn' : c' ++ "/" ++ n' ∈ texts)
    (h : payloadPath c n = payloadPath c' n') : c = c' ∧ n = n' := by
  obtain ⟨rfl, hdigest⟩ := payloadPath_inj h
  have htext := hfree _ hn _ hn' hdigest
  rw [String.append_right_inj] at htext
  exact ⟨rfl, htext⟩

theorem length_draftPath (c n : String) : (draftPath c n).length = 4 := rfl

/-- No content is kept under the name of a draft: that name is longer than a digest. -/
theorem draftPath_ne_payloadPath : draftPath c n ≠ payloadPath c' n' := by
  intro h
  rw [draftPath, payloadPath] at h
  have htails := List.append_inj_right' h (by rw [List.length_singleton, List.length_singleton])
  have hlength := congrArg (fun name => name.toList.length) (List.singleton_inj.1 htails)
  simp only [String.toList_append, List.length_append, String.toList_ofList, length_digest] at hlength
  exact absurd hlength (by decide)

/-! ## The names on the way -/

theorem utf8ByteSize_ofList_le (characters : List Char) :
    (String.ofList characters).utf8ByteSize ≤ 4 * characters.length := by
  induction characters with
  | nil => exact Nat.le_refl 0
  | cons first rest ih =>
    have hfirst := Char.utf8Size_le_four first
    rw [String.ofList_cons, String.utf8ByteSize_append, String.utf8ByteSize_singleton, List.length_cons]
    omega

/-- If the container's name is short enough for a directory, so are the others. -/
theorem short_of_mem_payloadPath (hc : c.utf8ByteSize ≤ Disk.maxNameSize) :
    ∀ name ∈ payloadPath c n, name.utf8ByteSize ≤ Disk.maxNameSize := by
  have hpart : ∀ part : List Char, part.length ≤ 32 →
      (String.ofList part).utf8ByteSize ≤ Disk.maxNameSize := fun part hpart =>
    Nat.le_trans (utf8ByteSize_ofList_le part) (Nat.le_trans (Nat.mul_le_mul_left 4 hpart) (by decide))
  intro name hname
  rw [payloadPath, payloadDirectory, containerPath, shards] at hname
  simp only [List.cons_append, List.nil_append, List.mem_cons, List.not_mem_nil, or_false] at hname
  rcases hname with rfl | rfl | rfl | rfl
  · exact hc
  · exact hpart _ (Nat.le_trans (List.length_take_le _ _) (by decide))
  · exact hpart _ (Nat.le_trans (List.length_take_le _ _) (by decide))
  · exact hpart _ (Nat.le_of_eq (length_digest c n))

theorem short_of_mem_draftPath (hc : c.utf8ByteSize ≤ Disk.maxNameSize) :
    ∀ name ∈ draftPath c n, name.utf8ByteSize ≤ Disk.maxNameSize := by
  intro name hname
  rcases List.mem_append.1 hname with hname | hname
  · exact short_of_mem_payloadPath hc name (List.mem_append_left _ hname)
  · rw [List.mem_singleton.1 hname, String.utf8ByteSize_append]
    have hdigest := utf8ByteSize_ofList_le (digest c n)
    rw [length_digest] at hdigest
    have htag : ".tmp-".utf8ByteSize = 5 := by decide
    have hmax : Disk.maxNameSize = 255 := rfl
    omega

/-- What leads to an object's file is the file itself or leads to its directory. -/
theorem prefix_payloadPath_iff :
    front <+: payloadPath c n ↔ front = payloadPath c n ∨ front <+: payloadDirectory c n :=
  List.prefix_concat_iff

theorem prefix_draftPath_iff :
    front <+: draftPath c n ↔ front = draftPath c n ∨ front <+: payloadDirectory c n :=
  List.prefix_concat_iff

/-- The directories that lead to an object's are the root, its container's and those that may be left
empty. -/
theorem prefix_payloadDirectory_iff :
    path <+: payloadDirectory c n ↔ path = [] ∨ path = containerPath c ∨ path ∈ prunable c n := by
  obtain ⟨first, second, hshards⟩ : ∃ first second, shards c n = [first, second] := ⟨_, _, rfl⟩
  simp only [payloadDirectory, prunable, containerPath, hshards, List.cons_append, List.nil_append,
    List.take_succ_cons, List.take_zero, List.mem_cons, List.not_mem_nil, or_false]
  constructor
  · intro h
    rcases path with _ | ⟨a, _ | ⟨b, _ | ⟨d, path⟩⟩⟩
    · exact .inl rfl
    · simp_all
    · simp_all
    · simp_all
  · rintro (rfl | rfl | rfl | rfl)
    · exact List.nil_prefix
    · exact ⟨[first, second], rfl⟩
    · exact List.prefix_rfl
    · exact ⟨[second], rfl⟩

theorem length_of_mem_prunable (h : path ∈ prunable c n) : 1 < path.length ∧ path.length ≤ 3 := by
  rw [prunable, List.mem_cons, List.mem_singleton] at h
  rcases h with rfl | rfl
  · exact ⟨show 1 < 3 by decide, show 3 ≤ 3 by decide⟩
  · exact ⟨show 1 < 2 by decide, show 2 ≤ 3 by decide⟩

theorem payloadPath_not_mem_prunable : payloadPath c' n' ∉ prunable c n := fun h =>
  absurd (length_of_mem_prunable h).2 (show ¬4 ≤ 3 by decide)

/-- The one directory is within the other. -/
theorem prunable_within (c n : String) :
    (prunable c n).Pairwise fun path outer => outer <+: path ∧ outer ≠ path := by
  rw [prunable, List.pairwise_pair]
  refine ⟨(List.prefix_append_right_inj _).2 (List.take_prefix 1 _), fun h => ?_⟩
  have hlength := congrArg List.length h
  cases hlength

end Local

end SegmentedFiles

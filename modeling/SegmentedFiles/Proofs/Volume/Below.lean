import Mathlib.Data.List.DropRight
import SegmentedFiles.Proofs.Volume.Ancestors
import SegmentedFiles.Proofs.Volume.Within

/-! # Territories at and below a name

All names at and below one name are a territory (`Territory.below`). Of two territories that are apart, what happens in
the one is not seen in the other (`Territory.Agree.of_shift`): the names are others, and the directories that are made
above the one are not in the other, nor in the way of a directory above it. -/

namespace SegmentedFiles

open Volume (AtOrBelow)

/-! ## Names -/

section Names

variable {base other name text : String}

theorem atOrBelow_iff (h : base ≠ "") :
    AtOrBelow base name ↔ Text.startsWith (Segment.start name) (Segment.start base) = true := by
  have hempty : ¬base.isEmpty = true := fun hempty => h (String.isEmpty_iff.1 hempty)
  rw [← Volume.startsWith_start_iff, Volume.below, if_neg hempty]
  rfl

theorem ne_empty_of_atOrBelow (h : base ≠ "") (hname : AtOrBelow base name) : name ≠ "" := by
  rintro rfl
  have hlength := (Text.startsWith_iff.1 ((atOrBelow_iff h).1 hname)).length_le
  rw [Segment.toList_start, Segment.toList_start, List.length_append, List.length_append] at hlength
  refine h (String.toList_inj.1 (List.eq_nil_of_length_eq_zero ?_))
  simpa using hlength

/-- What starts as the segments of a name do is below that name. -/
theorem atOrBelow_of_startsWith (h : base ≠ "") (hname : AtOrBelow base name)
    (htext : Text.startsWith text (Segment.start name) = true) : AtOrBelow base text := by
  have hstart : Text.startsWith text (Segment.start base) = true :=
    Text.startsWith_iff.2 ((Text.startsWith_iff.1 ((atOrBelow_iff h).1 hname)).trans (Text.startsWith_iff.1 htext))
  exact .inr (.inr hstart)

/-- Of two names above the same one, one is above the other. -/
theorem atOrBelow_total (h : base ≠ "") (h' : other ≠ "") (hname : AtOrBelow base name)
    (hname' : AtOrBelow other name) : AtOrBelow base other ∨ AtOrBelow other base := by
  rw [atOrBelow_iff h, Text.startsWith_iff] at *
  rw [atOrBelow_iff h', Text.startsWith_iff] at *
  exact List.prefix_or_prefix_of_prefix hname hname'

end Names

namespace Volume

variable {v : Volume} {path dir : String}

theorem storeName_ne_empty (h : Path.isBelowRoot path = true) : v.storeName path ≠ "" := by
  obtain ⟨front, c, hname, -⟩ := exists_last_of_storeName (v := v) h
  intro hempty
  rw [hempty] at hname
  exact absurd (congrArg List.length hname) (by simp)

/-- The names of objects lie as their paths do. -/
theorem atOrBelow_storeName_iff (hpath : Path.isBelowRoot path = true) (hdir : Path.isBelowRoot dir = true) :
    AtOrBelow (v.storeName dir) (v.storeName path) ↔ path = dir ∨ dir ∈ Path.ancestors path := by
  have hempty : ¬(v.storeName dir).isEmpty = true :=
    fun hempty => storeName_ne_empty hdir (String.isEmpty_iff.1 hempty)
  have hvalid := Path.isValid_of_isBelowRoot hdir
  have hbelow := startsWith_storeName_iff (v := v) (Path.isValid_of_isBelowRoot hpath) hvalid
  rw [AtOrBelow, or_iff_right hempty]
  exact or_congr (storeName_eq_iff (Path.isValid_of_isBelowRoot hpath) hvalid) hbelow

/-! ## Volumes with a name of their own -/

/-- It makes no difference from which end something is taken first. -/
theorem dropWhile_reverse_dropWhile {α : Type} (p : α → Bool) (xs : List α) :
    (xs.reverse.dropWhile p).reverse.dropWhile p = ((xs.dropWhile p).reverse.dropWhile p).reverse := by
  induction xs with
  | nil => rfl
  | cons x xs ih =>
    rw [List.reverse_cons, List.dropWhile_append]
    by_cases hx : p x = true
    · rw [List.dropWhile_cons_of_pos (l := xs) hx, ← ih]
      split
      · next hempty =>
        rw [List.isEmpty_iff.1 hempty, List.dropWhile_cons_of_pos hx]
        rfl
      · rw [List.reverse_append, List.reverse_singleton, List.singleton_append, List.dropWhile_cons_of_pos hx]
    · rw [List.dropWhile_cons_of_neg (l := xs) hx, List.reverse_cons, List.dropWhile_append]
      split
      · rw [List.dropWhile_cons_of_neg hx, List.reverse_singleton, List.dropWhile_cons_of_neg hx]
      · rw [List.reverse_append, List.reverse_singleton, List.singleton_append, List.dropWhile_cons_of_neg hx]

theorem trimStart_trimEnd (c : Char) (s : String) : Text.trimStart c (Text.trimEnd c s) = Text.trim c s := by
  rw [Text.trim, Text.trimEnd, Text.trimStart, Text.trimStart, Text.trimEnd, String.toList_ofList,
    String.toList_ofList, dropWhile_reverse_dropWhile]

/-- If the volume has a name, it stands in front of the path. -/
theorem storeName_of_root (hroot : Text.trim '/' v.root ≠ "") (path : String) :
    v.storeName path = Text.trim '/' v.root ++ path := by
  have hstart : Text.trim '/' v.root
      = String.ofList ((Text.trimEnd '/' v.root).toList.dropWhile (· == '/')) := by
    rw [← trimStart_trimEnd, Text.trimStart]
  rw [hstart] at hroot ⊢
  rw [← String.toList_inj, toList_storeName, List.dropWhile_append, if_neg, String.toList_append,
    String.toList_ofList]
  intro hempty
  exact hroot (by rw [List.isEmpty_iff.1 hempty, String.ofList_nil])

theorem storeDirectory_root (hroot : Text.trim '/' v.root ≠ "") : v.storeDirectory "/" = Text.trim '/' v.root := by
  have hslash : ("/" : String).toList.reverse = ['/'] := rfl
  rw [storeDirectory, storeName_of_root hroot, Text.trimEnd, String.toList_append,
    List.reverse_append, hslash, List.singleton_append, List.dropWhile_cons_of_pos (by decide), Text.trim,
    Text.trimEnd, String.toList_ofList, List.reverse_reverse, List.dropWhile_idempotent]

end Volume

/-- Every manifest refers to the segments of its own name, as those that volumes make do. -/
def MemoryStore.VolumeMade (m : MemoryStore) : Prop :=
  ∀ c n o ref, m.object? c n = some o → o.manifest = some ref →
    ref = ⟨Segment.containerOf c, Segment.start n⟩

namespace Territory

/-! ## Territories -/

/-- The names at and below one, with some directories above them. -/
def below (container base : String) (hbase : base ≠ "") (above : List String)
    (habove : ∀ n ∈ above, ¬AtOrBelow base n) : Territory where
  container := container
  Inside := AtOrBelow base
  above := above
  ne_empty := ne_empty_of_atOrBelow hbase
  closed := atOrBelow_of_startsWith hbase
  apart := habove

/-- A volume with a name of its own has all its files at and below it. -/
theorem covers_below {v : Volume} {container base : String} {hbase : base ≠ ""} (hroot : Text.trim '/' v.root = base)
    (path : String) : (below container base hbase [] nofun).Covers v path := by
  subst hroot
  have hname : ∀ path, Path.isBelowRoot path = true → AtOrBelow (Text.trim '/' v.root) (v.storeName path) := by
    intro path hpath
    obtain ⟨rest, hrest, -⟩ := Path.isBelowRoot_iff.1 hpath
    refine .inr (.inr (Text.startsWith_iff.2 ⟨rest, ?_⟩))
    rw [Volume.storeName_of_root hbase, String.toList_append, String.toList_append, hrest, List.append_assoc]
    rfl
  refine ⟨hname path, fun hpath dir hdir => .inl (hname dir (Path.isBelowRoot_of_mem_ancestors hpath hdir)), ?_⟩
  rintro rfl
  rw [Volume.storeDirectory_root hbase]
  exact .inr (.inl rfl)

/-- Two territories of one container, neither of which has a name or a directory above it in the other. -/
structure Apart (T U : Territory) : Prop where
  container : U.container = T.container
  inside : ∀ n, T.Inside n → ¬U.Inside n
  above : ∀ n ∈ T.above, ¬U.Inside n
  above' : ∀ n ∈ U.above, ¬T.Inside n

variable {T U : Territory} {m s t s' : MemoryStore} {made : List String} {c n : String}

theorem agree_self (hown : m.VolumeMade) (hput : m.putBudget = none) (hbulk : m.bulkFault = none) :
    T.Agree m m := by
  refine ⟨fun _ _ _ => rfl, fun c n o ref _ ho href => ?_, fun _ _ => Iff.rfl, fun _ _ => Iff.rfl, rfl,
    ⟨hput, hput⟩, ⟨hbulk, hbulk⟩⟩
  obtain ⟨o', ho', rfl⟩ := Option.map_eq_some_iff.1 ho
  exact hown c n o' ref ho' href

theorem Apart.symm (h : T.Apart U) : U.Apart T :=
  ⟨h.container.symm, fun n hn hn' => h.inside n hn' hn, h.above', h.above⟩

theorem marker?_of_not_mem (h : n ∉ made) : T.marker? made c n = none :=
  if_neg fun hmade => h hmade.2

/-- What happens in one territory is not seen in another that is apart from it. -/
theorem Agree.of_shift (h : T.Agree s t) (hapart : U.Apart T) (hmade : ∀ n ∈ made, n ∈ U.above)
    (hs : U.Shift made s s') : T.Agree s' t := by
  have hview : ∀ c n, T.Inside n → s'.view? c n = s.view? c n := by
    intro c n hn
    have hout : ¬U.Inside n := fun hn' => hapart.inside n hn' hn
    rw [hs.view c n hout, marker?_of_not_mem fun hn' => hapart.above n (hmade n hn') hn, Option.or_none]
  refine ⟨fun c n hn => ?_, fun c n o ref hn ho href => ?_, fun n hn => ?_, fun c hc => ?_, ?_, ?_, ?_⟩
  · rw [hview c n hn, h.view c n hn]
  · exact h.own c n o ref hn (hview c n hn ▸ ho) href
  · have hblocked := hs.blocked (hapart.above' n hn)
    rw [Blocked, Blocked, hapart.container.symm] at hblocked
    rw [h.blocked n hn]
    exact hblocked.symm
  · rw [hs.containers]
    exact h.containers c hc
  · rw [hs.bulkDelete, h.bulkDelete]
  · rw [hs.putBudget]
    exact h.putBudget
  · rw [hs.bulkFault]
    exact h.bulkFault

end Territory

end SegmentedFiles

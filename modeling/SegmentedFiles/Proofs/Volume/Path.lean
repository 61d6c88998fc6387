import SegmentedFiles.Proofs.Segment.Name
import SegmentedFiles.Volume.Basic

/-! # Paths, and the names of their objects

A path does not end with a slash, and so neither does the name of its object. The paths above it are
shorter, with a slash behind them, so the objects of a path and of those above it have different
names (`storeName_ne_of_mem_ancestors`). -/

namespace SegmentedFiles

variable {path dir : String} {fuel : Nat}

namespace Path

theorem exists_last_of_isBelowRoot (h : isBelowRoot path = true) :
    ∃ front c, path.toList = front ++ [c] ∧ c ≠ '/' := by
  unfold isBelowRoot at h
  rw [Bool.and_eq_true] at h
  obtain ⟨-, h⟩ := h
  split at h
  · next rest hrest =>
    rw [Text.after?_eq_some_iff] at hrest
    rw [Text.splitAt, List.all_map, List.all_eq_true] at h
    -- A piece without characters is no name.
    have hpiece : [] ∉ rest.toList.splitOn '/' := by
      intro hmem
      exact absurd (h [] hmem) (by decide)
    rcases List.eq_nil_or_concat rest.toList with hnil | ⟨front, c, hfront⟩
    · rw [hnil] at hpiece
      exact absurd (by simp) hpiece
    · rw [List.concat_eq_append] at hfront
      refine ⟨'/' :: front, c, by rw [hrest, String.toList_append, hfront]; rfl, ?_⟩
      rintro rfl
      rw [hfront, List.splitOn_append_cons_self] at hpiece
      exact absurd (by simp) hpiece
  · cases h

theorem beforeLast?_eq_some {text before : String} (h : Text.beforeLast? '/' text = some before) :
    ∃ behind, text.toList = before.toList ++ '/' :: behind := by
  unfold Text.beforeLast? at h
  split at h
  · next c rest hrest =>
    obtain rfl := Option.some.inj h
    have hsplit := List.takeWhile_append_dropWhile (p := (· != '/')) (l := text.toList.reverse)
    have hslash : c = '/' := by
      have := List.head?_dropWhile_not (· != '/') text.toList.reverse
      rw [hrest] at this
      simpa using this
    rw [hrest, hslash] at hsplit
    refine ⟨(text.toList.reverse.takeWhile (· != '/')).reverse, ?_⟩
    have htext := congrArg List.reverse hsplit
    rw [List.reverse_reverse, List.reverse_append, List.reverse_cons, List.append_assoc] at htext
    rw [String.toList_ofList]
    exact htext.symm
  · cases h

/-- What lies above a path comes before a slash of it. -/
theorem exists_of_mem_ancestors (h : dir ∈ ancestors path) :
    ∃ below, path.toList = dir.toList ++ '/' :: below := by
  have hparent : ∀ text, parent text = "/" ∨
      ∃ below, text.toList = (parent text).toList ++ '/' :: below := by
    intro text
    unfold parent
    split
    · next before hbefore =>
      split
      · exact .inl rfl
      · exact .inr (beforeLast?_eq_some hbefore)
    · exact .inl rfl
  have hgo : ∀ fuel top, (top = "/" ∨ ∃ below, path.toList = top.toList ++ '/' :: below) →
      dir ∈ ancestors.go fuel top → ∃ below, path.toList = dir.toList ++ '/' :: below := by
    intro fuel
    induction fuel with
    | zero =>
      intro top _ hmem
      cases hmem
    | succ fuel ih =>
      intro top htop hmem
      unfold ancestors.go at hmem
      split at hmem
      · cases hmem
      · next hne =>
        obtain ⟨below, hbelow⟩ := htop.resolve_left (by simpa using hne)
        rcases List.mem_cons.1 hmem with rfl | hmem
        · exact ⟨below, hbelow⟩
        · refine ih _ ?_ hmem
          rcases hparent top with hroot | ⟨inner, hinner⟩
          · exact .inl hroot
          · refine .inr ⟨inner ++ '/' :: below, ?_⟩
            rw [hbelow, hinner, List.append_assoc]
            rfl
  exact hgo _ _ (hparent path) h

end Path

namespace Volume

variable {v : Volume}

theorem toList_storeName (v : Volume) (path : String) :
    (v.storeName path).toList
      = ((Text.trimEnd '/' v.root).toList ++ path.toList).dropWhile (· == '/') := by
  rw [storeName, Text.trimStart, String.toList_ofList, String.toList_append]

/-- The end of the path is the end of its object's name. -/
theorem exists_last_of_storeName (h : Path.isBelowRoot path = true) :
    ∃ front c, (v.storeName path).toList = front ++ [c] ∧ c ≠ '/' := by
  obtain ⟨front, c, hpath, hc⟩ := Path.exists_last_of_isBelowRoot h
  have hlast : [c].dropWhile (· == '/') = [c] := List.dropWhile_cons_of_neg (by simpa using hc)
  rw [toList_storeName, hpath, ← List.append_assoc, List.dropWhile_append, hlast]
  split
  · exact ⟨[], c, rfl, hc⟩
  · exact ⟨_, c, rfl, hc⟩

theorem getLast?_storeName (h : Path.isBelowRoot path = true) :
    (v.storeName path).toList.getLast? ≠ some '/' := by
  obtain ⟨front, c, hname, hc⟩ := exists_last_of_storeName (v := v) h
  rw [hname, List.getLast?_concat]
  simpa using hc

/-- There are no slashes at its end to be left out. -/
theorem storeDirectory_eq (h : Path.isBelowRoot path = true) :
    v.storeDirectory path = v.storeName path := by
  obtain ⟨front, c, hname, hc⟩ := exists_last_of_storeName (v := v) h
  rw [storeDirectory, ← String.toList_inj, Text.trimEnd, String.toList_ofList, hname,
    List.reverse_append, List.reverse_singleton, List.singleton_append,
    List.dropWhile_cons_of_neg (by simpa using hc), List.reverse_cons, List.reverse_reverse]

theorem storeName_ne_of_mem_ancestors (hpath : Path.isBelowRoot path = true)
    (h : dir ∈ Path.ancestors path) : v.storeName dir ≠ v.storeName path := by
  obtain ⟨below, hbelow⟩ := Path.exists_of_mem_ancestors h
  obtain ⟨front, c, hlast, -⟩ := exists_last_of_storeName (v := v) hpath
  intro hname
  rw [← String.toList_inj, hlast, toList_storeName] at hname
  rw [toList_storeName, hbelow, ← List.append_assoc, List.dropWhile_append, hname] at hlast
  rw [if_neg (by simp)] at hlast
  have hlength := congrArg List.length hlast
  simp at hlength

end Volume

end SegmentedFiles

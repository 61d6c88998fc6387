import SegmentedFiles.Proofs.Volume.Below
import SegmentedFiles.Proofs.Volume.Isolation

/-! # Operations at different paths

What is written or removed at one path has nothing to do with what is written or removed at another, unless one of the
paths is above the other: the order makes no difference (`edits_commute`). Each operation has a territory, the names at
and below its path; the two have directories above them in common, which it does not matter who makes. -/

namespace SegmentedFiles

open MemoryStore (answer)
open Volume (AtOrBelow oneFileStore sampleVolume)

/-- One path is a directory in which the other is, or lies further below it. -/
def Path.IsAbove (dir path : String) : Prop :=
  dir ≠ path ∧ (dir = "/" ∨ Text.startsWith path (dir ++ "/") = true)

theorem Path.isAbove_of_mem_ancestors {path dir : String} (h : dir ∈ ancestors path) : IsAbove dir path := by
  obtain ⟨below, hbelow⟩ := exists_of_mem_ancestors h
  refine ⟨fun hsame => not_mem_ancestors_self path (hsame ▸ h), .inr (Text.startsWith_iff.2 ⟨below, ?_⟩)⟩
  rw [hbelow, String.toList_append, List.append_assoc]
  rfl

/-- A valid path that is not above all others is not the root. -/
theorem Path.isBelowRoot_of_not_isAbove {path other : String} (hvalid : isValid path = true) (hne : path ≠ other)
    (habove : ¬IsAbove path other) : isBelowRoot path = true := by
  rw [isValid, Bool.or_eq_true, beq_iff_eq] at hvalid
  exact hvalid.resolve_left fun hroot => habove ⟨hne, .inl hroot⟩

namespace MemoryStore

/-- The stores have the same objects in the same containers, but for times, and are able to do the same. -/
structure SameButTimes (s t : MemoryStore) : Prop where
  containers : ∀ c, c ∈ s.containers ↔ c ∈ t.containers
  view : ∀ c n, s.view? c n = t.view? c n
  bulkDelete : s.bulkDelete = t.bulkDelete
  putBudget : s.putBudget = t.putBudget
  bulkFault : s.bulkFault = t.bulkFault

end MemoryStore

namespace Territory

variable {T U : Territory} {m s t s' t' : MemoryStore} {made made' : List String}

/-- What is done in two territories that are apart comes to the same in either order. -/
theorem Apart.sameButTimes (h : T.Apart U) (hmade : ∀ n ∈ made, n ∈ T.above) (hmade' : ∀ n ∈ made', n ∈ U.above)
    (hs : T.Shift made m s) (ht : U.Shift made' m t) (hs' : U.Shift made' s s') (ht' : T.Shift made t t')
    (hT : T.Agree s t') (hU : U.Agree t s') : s'.SameButTimes t' := by
  refine ⟨fun c => ?_, fun c n => ?_, ?_, ?_, ?_⟩
  · rw [hs'.containers, hs.containers, ht'.containers, ht.containers]
  · by_cases hin : T.Inside n
    · have hmarker : U.marker? made' c n = none := marker?_of_not_mem fun hn => h.above' n (hmade' n hn) hin
      rw [hs'.view c n (h.inside n hin), hmarker, Option.or_none, hT.view c n hin]
    by_cases hin' : U.Inside n
    · have hmarker : T.marker? made c n = none := marker?_of_not_mem fun hn => h.above n (hmade n hn) hin'
      rw [hU.view c n hin', ht'.view c n hin, hmarker, Option.or_none]
    · -- Outside of both there are at most directories more, and they are alike whoever makes them.
      have hmarkers : (T.marker? made c n).or (U.marker? made' c n)
          = (U.marker? made' c n).or (T.marker? made c n) := by
        unfold marker?
        split <;> split <;> rfl
      rw [hs'.view c n hin', hs.view c n hin, ht'.view c n hin, ht.view c n hin', Option.or_assoc, hmarkers,
        Option.or_assoc]
  · rw [hs'.bulkDelete, hs.bulkDelete, ht'.bulkDelete, ht.bulkDelete]
  · rw [hs'.putBudget, hs.putBudget, ht'.putBudget, ht.putBudget]
  · rw [hs'.bulkFault, hs.bulkFault, ht'.bulkFault, ht.bulkFault]

end Territory

namespace Volume

variable {v : Volume} {path other : String}

/-- What an operation at a path is about: the names at and below the path's own. -/
def territory (v : Volume) (path : String) (h : Path.isBelowRoot path = true) : Territory :=
  .below v.container (v.storeName path) (storeName_ne_empty h) ((Path.ancestors path).map v.storeName) <| by
    intro name hname hbelow
    obtain ⟨dir, hdir, rfl⟩ := List.mem_map.1 hname
    rcases (atOrBelow_storeName_iff (Path.isBelowRoot_of_mem_ancestors h hdir) h).1 hbelow with rfl | habove
    · exact Path.not_mem_ancestors_self dir hdir
    · exact Path.not_mem_ancestors_self path (Path.mem_ancestors_trans hdir habove)

theorem container_territory (h : Path.isBelowRoot path = true) : (v.territory path h).container = v.container := rfl

theorem covers_territory (h : Path.isBelowRoot path = true) : (v.territory path h).Covers v path := by
  refine ⟨fun _ => .inr (.inl rfl), fun _ dir hdir => .inr (List.mem_map_of_mem hdir), ?_⟩
  rintro rfl
  exact absurd h (by decide)

/-- The names of a path and of those above it are not at or below that of another path, if the path itself is not. -/
theorem not_atOrBelow_of_mem (h : Path.isBelowRoot path = true) (h' : Path.isBelowRoot other = true)
    (hne : path ≠ other) (habove : path ∉ Path.ancestors other) {dir : String}
    (hdir : dir ∈ other :: Path.ancestors other) : ¬AtOrBelow (v.storeName path) (v.storeName dir) := by
  intro hbelow
  rcases List.mem_cons.1 hdir with rfl | hdir
  · exact ((atOrBelow_storeName_iff h' h).1 hbelow).elim (fun hsame => hne hsame.symm) habove
  · rcases (atOrBelow_storeName_iff (Path.isBelowRoot_of_mem_ancestors h' hdir) h).1 hbelow with rfl | hin
    · exact habove hdir
    · exact habove (Path.mem_ancestors_trans hdir hin)

theorem apart_territory (h : Path.isBelowRoot path = true) (h' : Path.isBelowRoot other = true)
    (hne : path ≠ other) (habove : path ∉ Path.ancestors other) (habove' : other ∉ Path.ancestors path) :
    (v.territory path h).Apart (v.territory other h') where
  container := by rw [container_territory, container_territory]
  inside n hn hn' := by
    rcases atOrBelow_total (storeName_ne_empty h) (storeName_ne_empty h') hn hn' with hbelow | hbelow
    · exact not_atOrBelow_of_mem h h' hne habove List.mem_cons_self hbelow
    · exact not_atOrBelow_of_mem h' h hne.symm habove' List.mem_cons_self hbelow
  above n hn hn' := by
    obtain ⟨dir, hdir, rfl⟩ := List.mem_map.1 hn
    exact not_atOrBelow_of_mem h' h hne.symm habove' (List.mem_cons_of_mem _ hdir) hn'
  above' n hn hn' := by
    obtain ⟨dir, hdir, rfl⟩ := List.mem_map.1 hn
    exact not_atOrBelow_of_mem h h' hne habove (List.mem_cons_of_mem _ hdir) hn'

theorem volumeMade_oneFileStore (name : String) (content : Payload) :
    (oneFileStore name content).VolumeMade := by
  intro c n o ref ho href
  rw [oneFileStore, MemoryStore.object?_place] at ho
  split at ho
  · next hplace =>
    cases ho
    rw [hplace.1, hplace.2]
    exact (Option.some.inj href).symm
  · rw [MemoryStore.object?_place] at ho
    split at ho
    · cases ho
      cases href
    · rw [Volume.object?_fresh] at ho
      cases ho

end Volume

namespace VolumeCall

variable {v : Volume} {f g : VolumeCall} {p q : String} {m : MemoryStore}

/-- The operation writes or removes what is at a path. -/
inductive Edits (path : String) : VolumeCall → Prop
  | write (offset : Nat) (source : Source) : Edits path (.write path offset source)
  | writeAll (content : Payload) : Edits path (.writeAll path content)
  | remove : Edits path (.remove path)

theorem Edits.paths (h : f.Edits p) : f.paths = [p] := by
  cases h <;> rfl

theorem Edits.timeless (h : f.Edits p) (reply : f.Reply) : f.timeless reply = reply := by
  cases h <;> rfl

theorem Edits.performAt_steady (hf : f.Edits p) (h : Path.isBelowRoot p = true) {s t : MemoryStore}
    (hst : (v.territory p h).Agree s t) (time time' : Timestamp) :
    (f.performAt v s time).1 = (f.performAt v t time').1 ∧
      (v.territory p h).Moves s t (f.performAt v s time).2 (f.performAt v t time').2 := by
  have hcovers : ∀ path ∈ f.paths, (v.territory p h).Covers v path := by
    rw [hf.paths]
    exact List.forall_mem_singleton.2 (Volume.covers_territory h)
  obtain ⟨hreply, hmoves⟩ := VolumeCall.performAt_steady f (Volume.container_territory h).symm hcovers hst time time'
  rw [hf.timeless, hf.timeless] at hreply
  exact ⟨hreply, hmoves⟩

/-- Of two operations at different paths, neither above the other, each has the same result whether it comes first or
second, and what is in the store at the end is the same. -/
theorem edits_commute (hp : Path.isValid p = true) (hq : Path.isValid q = true) (hne : p ≠ q)
    (hpq : ¬Path.IsAbove p q) (hqp : ¬Path.IsAbove q p) (hf : f.Edits p) (hg : g.Edits q)
    (hown : m.VolumeMade) (hput : m.putBudget = none) (hbulk : m.bulkFault = none)
    (time₁ time₂ time₃ time₄ : Timestamp) :
    (f.performAt v m time₁).1 = (f.performAt v (g.performAt v m time₃).2 time₄).1 ∧
      (g.performAt v m time₃).1 = (g.performAt v (f.performAt v m time₁).2 time₂).1 ∧
      (g.performAt v (f.performAt v m time₁).2 time₂).2.SameButTimes
        (f.performAt v (g.performAt v m time₃).2 time₄).2 := by
  have hp' := Path.isBelowRoot_of_not_isAbove hp hne hpq
  have hq' := Path.isBelowRoot_of_not_isAbove hq hne.symm hqp
  have hapart := Volume.apart_territory (v := v) hp' hq' hne
    (fun h => hpq (Path.isAbove_of_mem_ancestors h)) fun h => hqp (Path.isAbove_of_mem_ancestors h)
  have hself : ∀ {T : Territory}, T.Agree m m := Territory.agree_self hown hput hbulk
  -- The store that the one operation leaves is for the other one as the first store is.
  obtain ⟨made₀, hmade₀, hfshift, -⟩ := (hf.performAt_steady hp' hself time₁ time₁).2.shift
  obtain ⟨made₀', hmade₀', hgshift, -⟩ := (hg.performAt_steady hq' hself time₃ time₃).2.shift
  obtain ⟨hfreply, hfmoves⟩ :=
    hf.performAt_steady hp' (hself.of_shift hapart.symm hmade₀' hgshift).symm time₁ time₄
  obtain ⟨hgreply, hgmoves⟩ :=
    hg.performAt_steady hq' (hself.of_shift hapart hmade₀ hfshift).symm time₃ time₂
  obtain ⟨made, hmade, hs, ht'⟩ := hfmoves.shift
  obtain ⟨made', hmade', ht, hs'⟩ := hgmoves.shift
  exact ⟨hfreply, hgreply, hapart.sameButTimes hmade hmade' hs ht hs' ht' hfmoves.agree hgmoves.agree⟩

/-- A file is removed before or after another is written next to it. -/
theorem edits_commute_siblings :
    ((remove "/d/a").performAt sampleVolume (oneFileStore "d/a" ⟨#[2, 3]⟩) .epoch).1 = .ok () ∧
      ((writeAll "/d/b" ⟨#[1]⟩).performAt sampleVolume
        ((remove "/d/a").performAt sampleVolume (oneFileStore "d/a" ⟨#[2, 3]⟩) .epoch).2 .epoch).1 = .ok () ∧
      ((writeAll "/d/b" ⟨#[1]⟩).performAt sampleVolume
        ((remove "/d/a").performAt sampleVolume (oneFileStore "d/a" ⟨#[2, 3]⟩) .epoch).2 .epoch).2.SameButTimes
      ((remove "/d/a").performAt sampleVolume
        ((writeAll "/d/b" ⟨#[1]⟩).performAt sampleVolume (oneFileStore "d/a" ⟨#[2, 3]⟩) .epoch).2 .epoch).2 := by
  obtain ⟨-, hwrite, hsame⟩ := edits_commute (v := sampleVolume) (p := "/d/a") (q := "/d/b") (by decide) (by decide)
    (by decide) (by unfold Path.IsAbove; decide) (by unfold Path.IsAbove; decide) .remove (.writeAll ⟨#[1]⟩)
    (Volume.volumeMade_oneFileStore "d/a" ⟨#[2, 3]⟩) rfl rfl .epoch .epoch .epoch .epoch
  exact ⟨by rfl, hwrite.symm.trans (by rfl), hsame⟩

end VolumeCall

end SegmentedFiles

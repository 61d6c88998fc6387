import SegmentedFiles.Proofs.Volume.Frame

/-! # Making the directories above a path

Directories are made where there is nothing, and nothing else is changed (`makeParents_ensures`). -/

namespace SegmentedFiles.Volume

open MemoryStore (answer)
open VolumeAction

variable {v : Volume} {m t : MemoryStore} {name path : String} {o : StoredObject}
  {fails : StoreCall → Prop}

/-- The directories above a path are directories where they are there. -/
def UnderDirectories (v : Volume) (m : MemoryStore) (path : String) : Prop :=
  ∀ dir ∈ Path.ancestors path, ∀ o, m.object? v.container (v.storeName dir) = some o →
    o.contentType = directoryType

/-- Above a path of one name there is only the root, which is no object. -/
theorem UnderDirectories.of_nil (h : Path.ancestors path = []) : v.UnderDirectories m path := by
  intro dir hdir
  rw [h] at hdir
  cases hdir

/-- From `m` to `t` nothing is changed, but directories above a path are made where there was
nothing. -/
structure ParentsMade (v : Volume) (path : String) (m t : MemoryStore) : Prop where
  containers : ∀ container ∈ m.containers, container ∈ t.containers
  putBudget : t.putBudget = m.putBudget
  bulkFault : t.bulkFault = m.bulkFault
  object : ∀ container text, t.object? container text = m.object? container text ∨
    container = v.container ∧ (∃ dir ∈ Path.ancestors path, text = v.storeName dir) ∧
      m.object? container text = none ∧ ∃ o, t.object? container text = some o ∧ o.IsDirectory

namespace ParentsMade

theorem refl (v : Volume) (path : String) (m : MemoryStore) : v.ParentsMade path m m :=
  ⟨fun _ h => h, rfl, rfl, fun _ _ => .inl rfl⟩

theorem confined (h : v.ParentsMade path m t) : v.Confined name m t :=
  ⟨h.containers, h.putBudget, h.bulkFault, fun c text _ =>
    (h.object c text).imp_right fun ⟨hc, _, hdir⟩ => ⟨hc, hdir⟩⟩

theorem ready (h : v.ParentsMade path m t) (hm : v.Ready m) : v.Ready t :=
  (h.confined : v.Confined path m t).ready hm

theorem segment (h : v.ParentsMade path m t) (text : String) :
    t.object? v.segmentsContainer text = m.object? v.segmentsContainer text :=
  (h.object _ text).resolve_right fun hdir => v.segmentsContainer_ne hdir.1

theorem ownKept (h : v.ParentsMade path m t) : v.OwnKept m t :=
  (h.confined : v.Confined path m t).ownKept
    ((h.object v.container path).imp_right fun hdir => hdir.2.2.2)

/-- What was there is as it was. -/
theorem object_of_some {container text : String} (h : v.ParentsMade path m t)
    (ho : m.object? container text = some o) : t.object? container text = some o := by
  rcases h.object container text with hsame | ⟨-, -, hnone, -⟩
  · exact hsame.trans ho
  · rw [ho] at hnone
    cases hnone

/-- The path itself is not above it. -/
theorem file (h : v.ParentsMade path m t) (hpath : Path.isBelowRoot path = true) :
    t.object? v.container (v.storeName path) = m.object? v.container (v.storeName path) := by
  refine (h.object _ _).resolve_right ?_
  intro h
  obtain ⟨-, ⟨dir, hdir, hname⟩, -⟩ := h
  exact storeName_ne_of_mem_ancestors hpath hdir hname.symm

/-- A file above the path was there before. -/
theorem contentType (h : v.ParentsMade path m t) (hm : v.UnderDirectories m path) {dir : String}
    (hdir : dir ∈ Path.ancestors path) (ho : t.object? v.container (v.storeName dir) = some o) :
    o.contentType = directoryType := by
  rcases h.object v.container (v.storeName dir) with hsame | ⟨-, -, -, o', ho', hdirectory⟩
  · exact hm dir hdir o (hsame ▸ ho)
  · rw [ho] at ho'
    cases ho'
    exact hdirectory.contentType

theorem place {dir : String} (h : v.ParentsMade path m t) (hdir : dir ∈ Path.ancestors path)
    (habsent : t.object? v.container (v.storeName dir) = none) (ho : o.IsDirectory) :
    v.ParentsMade path m (t.place v.container (v.storeName dir) o) := by
  refine ⟨fun c hc => MemoryStore.mem_containers_place (h.containers c hc), h.putBudget,
    h.bulkFault, fun c text => ?_⟩
  by_cases hplace : c = v.container ∧ text = v.storeName dir
  · obtain ⟨rfl, rfl⟩ := hplace
    refine .inr ⟨rfl, ⟨dir, hdir, rfl⟩, ?_, o, MemoryStore.object?_place_self, ho⟩
    rcases h.object v.container (v.storeName dir) with hsame | ⟨-, -, hnone, -⟩
    · exact hsame ▸ habsent
    · exact hnone
  · rw [MemoryStore.object?_place_of_ne hplace]
    exact h.object c text

end ParentsMade

/-- Directories are made where nothing is found. This fails only where a call does, or a file is above
the path. -/
theorem makeParents_ensures (path : String) (hm : v.Ready m) :
    Ensures (answer.mayFail fails) (v.makeParents path) m (fun _ t => v.ParentsMade path m t)
      fun _ t => v.ParentsMade path m t ∧ ((∃ call, fails call) ∨ ¬v.UnderDirectories m path) := by
  refine ensures_makeParents (fun rest t => (∀ dir ∈ rest, dir ∈ Path.ancestors path) ∧
    v.ParentsMade path m t) ⟨fun _ h => h, .refl v path m⟩ ?_ ?_ ?_ ?_ fun _ ht => ht.2
  · intro dir rest t call e ht hfails
    exact ⟨ht.2, .inl ⟨call, hfails⟩⟩
  · intro dir rest t o ht ho htype
    exact ⟨ht.2, .inr fun hunder => htype (ht.2.contentType hunder (ht.1 dir List.mem_cons_self) ho)⟩
  · intro dir rest t o ht _ _
    exact ⟨fun d hd => ht.1 d (List.mem_cons_of_mem dir hd), ht.2⟩
  · intro dir rest t ht ho
    obtain ⟨hrest, ht⟩ := ht
    have hready := ht.ready hm
    refine ensures_at_ok (MemoryStore.answer_put hready.container hready.putBudget) ?_
      fun e hcall => ⟨ht, .inl ⟨_, hcall⟩⟩
    exact ⟨fun d hd => hrest d (List.mem_cons_of_mem dir hd),
      ht.place (hrest dir List.mem_cons_self) ho ⟨rfl, rfl⟩⟩

end SegmentedFiles.Volume

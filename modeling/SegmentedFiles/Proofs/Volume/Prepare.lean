import SegmentedFiles.Proofs.Volume.File
import SegmentedFiles.Proofs.Volume.Remove

/-! # How a file comes to be kept in segments

Before the first byte is written a file is made a manifest with segments: `Volume.prepare` keeps its
content, whatever it was kept in, and returns the lengths of the chunks (`prepare_ensures`). Where it
stops half way the file still holds the same bytes. -/

namespace SegmentedFiles.Volume

open Bytes (chunk? chunkLength? chunkCount)
open MemoryStore (answer)
open VolumeAction

variable {v : Volume} {m t : MemoryStore} {name path container text : String} {content : Bytes}
  {o : StoredObject} {fails : StoreCall → Prop}

/-! ## Clearing away old segments -/

/-- From `m` to `t` nothing is changed, but segments of the file called `name` are gone. -/
structure Cleared (v : Volume) (name : String) (m t : MemoryStore) : Prop
    extends v.SegmentsChanged name m t where
  segment : ∀ s, t.object? v.segmentsContainer (Segment.name name s)
      = m.object? v.segmentsContainer (Segment.name name s) ∨
    t.object? v.segmentsContainer (Segment.name name s) = none

namespace Cleared

theorem refl (v : Volume) (name : String) (m : MemoryStore) : v.Cleared name m m :=
  ⟨.refl v name m, fun _ => .inl rfl⟩

theorem vacate (h : v.Cleared name m t) (s : Nat) :
    v.Cleared name m (t.vacate v.segmentsContainer (Segment.name name s)) := by
  refine ⟨h.toSegmentsChanged.trans (.vacate v name t s), fun s' => ?_⟩
  by_cases hs : s' = s
  · exact .inr (hs ▸ MemoryStore.object?_vacate_self)
  · rw [MemoryStore.object?_vacate_of_ne fun hname => hs (Segment.name_inj hname.2).2]
    exact h.segment s'

theorem numbered (h : v.Cleared name m t) (hm : v.Numbered m name) : v.Numbered t name := by
  intro s o ho
  rcases h.segment s with hsame | hnone
  · exact hm s o (hsame ▸ ho)
  · rw [hnone] at ho
    cases ho

/-- Where nothing is left, nothing is stored. -/
theorem stores_nil (hm : v.Numbered m name) (h : v.Cleared name m t)
    (hgone : ∀ s, s ≤ Segment.maxSequence →
      t.object? v.segmentsContainer (Segment.name name s) = none) : v.Stores t name [] := by
  have hnone : ∀ s, t.object? v.segmentsContainer (Segment.name name s) = none := by
    intro s
    cases ho : t.object? v.segmentsContainer (Segment.name name s) with
    | none => rfl
    | some o =>
      rw [hgone s (h.numbered hm s o ho)] at ho
      cases ho
  refine ⟨Nat.zero_le _, segment?_eq_none_iff.2 (hnone 0), fun i => ?_, fun s o ho => ?_⟩
  · rw [segment?_eq_none_iff.2 (hnone (i + 1)), chunk?, if_neg (by simp)]
  · rw [hnone s] at ho
    cases ho

end Cleared

/-- All segments with numbers for which there is room in their names are cleared away. -/
theorem clearSegments_ensures (hm : v.Ready m) :
    Ensures (answer.mayFail fails) (v.clearSegments path name) m
      (fun _ t => v.Cleared name m t ∧ ∀ s, s ≤ Segment.maxSequence →
        t.object? v.segmentsContainer (Segment.name name s) = none)
      fun _ t => v.Cleared name m t ∧ ∃ call, fails call := by
  rw [clearSegments, segments_eq]
  simp only [bind_assoc, pure_bind]
  refine ensures_at_bind (MemoryStore.answer_list_all hm.segments) ?_
    fun _ hcall => ⟨.refl v name m, _, hcall⟩
  refine (ensures_forIn (fun rest t => (∀ entry ∈ rest, entry ∈ v.entries m name) ∧
      v.Cleared name m t ∧ ∀ s o, s ≤ Segment.maxSequence →
        t.object? v.segmentsContainer (Segment.name name s) = some o →
          ∃ entry ∈ rest, entry.sequence = s)
    ⟨fun _ h => h, .refl v name m, ?_⟩ ?_).bind ?_
  · intro s o hs ho
    exact ⟨⟨s, _, o.content.size⟩, mem_entries.2 ⟨hs, rfl, o, ho, rfl⟩, rfl⟩
  · intro entry rest t ht
    obtain ⟨hrest, ht, hleft⟩ := ht
    obtain ⟨-, hname, -⟩ := mem_entries.1 (hrest entry List.mem_cons_self)
    replace hrest : ∀ entry ∈ rest, entry ∈ v.entries m name :=
      fun e he => hrest e (List.mem_cons_of_mem entry he)
    rw [hname]
    refine Ensures.yield (deleteQuietly_ensures (singly_mayFail fails) ?_ ?_ fun _ hcall => ⟨ht, _, hcall⟩)
    · intro o _
      refine ⟨hrest, ht.vacate entry.sequence, fun s o' hs ho' => ?_⟩
      by_cases hsame : s = entry.sequence
      · rw [hsame, MemoryStore.object?_vacate_self] at ho'
        cases ho'
      · rw [MemoryStore.object?_vacate_of_ne fun h => hsame (Segment.name_inj h.2).2] at ho'
        obtain ⟨other, hother, rfl⟩ := hleft s o' hs ho'
        rcases List.mem_cons.1 hother with rfl | hother
        · exact absurd rfl hsame
        · exact ⟨other, hother, rfl⟩
    · intro hnone
      refine ⟨hrest, ht, fun s o' hs ho' => ?_⟩
      obtain ⟨other, hother, rfl⟩ := hleft s o' hs ho'
      rcases List.mem_cons.1 hother with rfl | hother
      · rw [hnone] at ho'
        cases ho'
      · exact ⟨other, hother, rfl⟩
  · intro _ t ht
    obtain ⟨-, ht, hleft⟩ := ht
    refine ensures_pure ⟨ht, fun s hs => ?_⟩
    cases ho : t.object? v.segmentsContainer (Segment.name name s) with
    | none => rfl
    | some o =>
      obtain ⟨entry, hentry, -⟩ := hleft s o hs ho
      cases hentry

/-! ## Storing a content in segments -/

/-- The pieces of a content are its chunks. -/
theorem getElem?_chunksFrom {chunk : Nat} (hchunk : 0 < chunk) (content : Payload)
    (start i : Nat) :
    ((chunksFrom chunk content start).map Payload.bytes)[i]?
      = chunk? chunk (content.bytes.drop start) i := by
  have hgo : ∀ fuel start i, content.size - start ≤ fuel →
      ((chunksFrom.go chunk content fuel start).map Payload.bytes)[i]?
        = chunk? chunk (content.bytes.drop start) i := by
    intro fuel
    induction fuel with
    | zero =>
      intro start i hfuel
      rw [List.drop_eq_nil_of_le (by rw [Payload.length_bytes]; omega), chunk?, if_neg (by simp)]
      rfl
    | succ fuel ih =>
      intro start i hfuel
      unfold chunksFrom.go
      split
      · next hlt =>
        have hlength : (content.bytes.drop start).length = content.size - start := by
          rw [List.length_drop, Payload.length_bytes]
        rw [List.map_cons]
        cases i with
        | zero =>
          rw [Bytes.chunk?_of_lt (by omega), Nat.zero_mul, List.drop_zero, List.getElem?_cons_zero,
            Payload.bytes_extract, Option.some.injEq]
          by_cases hfull : start + chunk ≤ content.size
          · rw [Nat.min_eq_left hfull, Nat.add_sub_cancel_left]
          · rw [Nat.min_eq_right (by omega), List.take_of_length_le (by omega),
              List.take_of_length_le (by omega)]
        | succ i =>
          rw [List.getElem?_cons_succ, ih _ i (by omega), Bytes.chunk?_succ, List.drop_drop]
          by_cases hfull : start + chunk ≤ content.size
          · rw [Nat.min_eq_left hfull]
          · rw [Nat.min_eq_right (by omega),
              List.drop_eq_nil_of_le (Nat.le_of_eq Payload.length_bytes),
              List.drop_eq_nil_of_le (by rw [Payload.length_bytes]; omega)]
      · rw [List.drop_eq_nil_of_le (by rw [Payload.length_bytes]; omega), chunk?, if_neg (by simp)]
        rfl
  exact hgo _ start i (Nat.le_refl _)

theorem eq_nil_of_chunk?_zero {chunk : Nat} {content : Bytes} (h : chunk? chunk content 0 = none) :
    content = [] := by
  unfold chunk? at h
  split at h
  · cases h
  · exact List.eq_nil_of_length_eq_zero (by omega)

/-- The first of the pieces that a content is cut into is its front, and the others are cut from the rest. -/
theorem chunk?_of_cons {chunk : Nat} {content : Bytes} {piece : Payload} {pieces : List Payload}
    (h : ∀ j, ((piece :: pieces).map Payload.bytes)[j]? = chunk? chunk content j) :
    0 < content.length ∧ piece.bytes = content.take chunk ∧
      ∀ j, (pieces.map Payload.bytes)[j]? = chunk? chunk (content.drop chunk) j := by
  have hfirst : chunk? chunk content 0 = some piece.bytes := (h 0).symm
  have hpos : 0 < content.length := by
    unfold chunk? at hfirst
    split at hfirst
    · omega
    · cases hfirst
  rw [Bytes.chunk?_of_lt (by omega), Nat.zero_mul, List.drop_zero] at hfirst
  refine ⟨hpos, (Option.some.inj hfirst).symm, fun j => ?_⟩
  rw [← Bytes.chunk?_succ, ← h (j + 1)]
  rfl

/-- Pieces are stored one after another as the chunks that come next. -/
theorem putSegments_ensures {i : Nat} {pieces : List Payload} {before rest : Bytes} (hm : v.Ready m)
    (hstores : v.Stores m name before) (hbefore : before.length = i * v.chunkSize ∨ rest = [])
    (hpieces : ∀ j, (pieces.map Payload.bytes)[j]? = chunk? v.chunkSize rest j)
    (hfits : (before ++ rest).length ≤ v.chunkSize * Segment.maxSequence) :
    Ensures (answer.mayFail fails) (v.putSegments path name (i + 1) pieces) m
      (fun _ t => v.SegmentsChanged name m t ∧ v.Stores t name (before ++ rest))
      fun _ t => v.SegmentsChanged name m t ∧ v.Numbered t name ∧ ∃ call, fails call := by
  induction pieces generalizing i before rest m with
  | nil =>
    have hrest : rest = [] := eq_nil_of_chunk?_zero (hpieces 0).symm
    rw [hrest, List.append_nil]
    exact ensures_pure ⟨.refl v name m, hstores⟩
  | cons piece pieces ih =>
    obtain ⟨hpos, hpiece, hothers⟩ := chunk?_of_cons hpieces
    have hlength : piece.size = min v.chunkSize rest.length := by
      rw [← Payload.length_bytes, hpiece, List.length_take]
    replace hbefore : before.length = i * v.chunkSize :=
      hbefore.resolve_right (List.ne_nil_of_length_pos hpos)
    have hchunk := v.chunkSize_pos
    rw [List.length_append] at hfits
    have hsplit : before ++ rest = before ++ piece.bytes ++ rest.drop v.chunkSize := by
      rw [hpiece, List.append_assoc, List.take_append_drop]
    have hplaced : v.Stores (m.place v.segmentsContainer (Segment.name name (i + 1))
        (m.written piece (PutOptions.plain fileType))) name
          (before.splice (i * v.chunkSize) piece.bytes) :=
      hstores.place (by omega) (by omega) (by omega) (.inr (by omega)) (by omega)
    rw [← hbefore, Bytes.splice_length] at hplaced
    refine ensures_at_bind (MemoryStore.answer_put hm.segments hm.putBudget) ?_
      fun _ hcall => ⟨.refl v name m, hstores.numbered, _, hcall⟩
    have hchanged := SegmentsChanged.place v name m (i + 1) (m.written piece (PutOptions.plain fileType))
    have hnext : (before ++ piece.bytes).length = (i + 1) * v.chunkSize ∨
        rest.drop v.chunkSize = [] := by
      by_cases hfull : v.chunkSize ≤ rest.length
      · left
        rw [List.length_append, Payload.length_bytes, Nat.succ_mul]
        omega
      · right
        exact List.drop_eq_nil_of_le (by omega)
    rw [← List.length_append, hsplit] at hfits
    refine (ih (hchanged.ready hm) hplaced hnext hothers hfits).mono ?_ ?_
    · intro _ t ht
      obtain ⟨ht, hall⟩ := ht
      exact ⟨hchanged.trans ht, hsplit ▸ hall⟩
    · intro _ t ht
      obtain ⟨ht, hnumbered, hcall⟩ := ht
      exact ⟨hchanged.trans ht, hnumbered, hcall⟩

/-- With its manifest a content that is stored in segments is a file. -/
theorem putManifest_ensures (hm : v.Ready m) (hstores : v.Stores m name content) :
    Ensures (answer.mayFail fails) (v.putManifest path name) m
      (fun _ t => v.Confined name m t ∧ v.Segmented t name content)
      fun _ t => t = m ∧ ∃ call, fails call := by
  refine ensures_at_ok (MemoryStore.answer_put hm.container hm.putBudget) ?_
    fun _ hcall => ⟨rfl, _, hcall⟩
  refine ⟨.place (v.owns_object name), ⟨_, MemoryStore.object?_place_self, rfl⟩, ?_⟩
  exact hstores.congr fun _ => MemoryStore.object?_place_of_ne fun h => v.segmentsContainer_ne h.1

/-- The content of a plain object is put into segments, and then a manifest takes its place. -/
theorem keepInSegments_ensures (hm : v.Ready m) (ho : m.object? v.container name = some o)
    (hplain : o.manifest = none) (hfile : o.contentType ≠ directoryType)
    (hfits : o.content.size ≤ v.chunkSize * Segment.maxSequence) (hstale : v.Numbered m name) :
    Ensures (answer.mayFail fails) (v.keepInSegments path name o.content) m
      (fun lengths t => v.Confined name m t ∧ v.Segmented t name o.content.bytes ∧
        ∀ j : Nat, lengths[j]? = chunkLength? v.chunkSize o.content.size j)
      fun _ t => v.Confined name m t ∧ v.Holds t name o.content.bytes ∧ ∃ call, fails call := by
  have hpieces := getElem?_chunksFrom v.chunkSize_pos o.content 0
  rw [List.drop_zero] at hpieces
  have hlength : ([] ++ o.content.bytes).length ≤ v.chunkSize * Segment.maxSequence := by
    rwa [List.nil_append, Payload.length_bytes]
  have hsizes : List.length ∘ Payload.bytes = ByteArray.size := funext fun _ => Payload.length_bytes
  have hkept : ∀ {t}, v.SegmentsChanged name m t → v.Numbered t name →
      v.Confined name m t ∧ v.Holds t name o.content.bytes :=
    fun ht hnumbered => ⟨ht.toConfined, .plain (ht.file.trans ho) hplain hfile hfits hnumbered⟩
  refine (clearSegments_ensures hm).bind_mono ?_ ?_
  · intro _ t ht
    obtain ⟨ht, hcall⟩ := ht
    exact and_assoc.1 ⟨hkept ht.toSegmentsChanged (ht.numbered hstale), hcall⟩
  intro _ t ht
  obtain ⟨ht, hgone⟩ := ht
  have hcleared := ht.toSegmentsChanged
  have hput : Ensures (answer.mayFail fails)
      (v.putSegments path name 1 (chunksFrom v.chunkSize o.content 0)) t
      (fun _ u => v.SegmentsChanged name t u ∧ v.Stores u name o.content.bytes)
      fun _ u => v.SegmentsChanged name t u ∧ v.Numbered u name ∧ ∃ call, fails call :=
    putSegments_ensures (i := 0) (ht.ready hm) (ht.stores_nil hstale hgone) (.inl (by simp)) hpieces
      hlength
  refine hput.bind_mono ?_ ?_
  · intro _ u hu
    obtain ⟨hu, hnumbered, hcall⟩ := hu
    exact and_assoc.1 ⟨hkept (hcleared.trans hu) hnumbered, hcall⟩
  intro _ u hu
  obtain ⟨hu, hstores⟩ := hu
  refine (putManifest_ensures (hu.ready (ht.ready hm)) hstores).bind_mono ?_ ?_
  · intro _ w hw
    obtain ⟨rfl, hcall⟩ := hw
    exact and_assoc.1 ⟨hkept (hcleared.trans hu) hstores.numbered, hcall⟩
  intro _ w hw
  obtain ⟨hw, hsegmented⟩ := hw
  refine ensures_pure ⟨(hcleared.trans hu).toConfined.trans hw, hsegmented, fun j => ?_⟩
  rw [← Payload.length_bytes, ← Bytes.map_length_chunk?, ← hpieces, ← List.getElem?_map,
    List.map_map, hsizes]

/-- A plain object is turned into a file in segments. -/
theorem convert_ensures (hm : v.Ready m) (ho : m.object? v.container name = some o)
    (hplain : o.manifest = none) (hfile : o.contentType ≠ directoryType)
    (hfits : o.content.size ≤ v.chunkSize * Segment.maxSequence) (hstale : v.Numbered m name) :
    Ensures (answer.mayFail fails) (v.convert path name o.content.size) m
      (fun lengths t => v.Confined name m t ∧ v.Segmented t name o.content.bytes ∧
        ∀ j : Nat, lengths[j]? = chunkLength? v.chunkSize o.content.size j)
      fun _ t => v.Confined name m t ∧ v.Holds t name o.content.bytes ∧ ∃ call, fails call := by
  have hkeep : Ensures (answer.mayFail fails) (v.keepInSegments path name o.content) m _ _ :=
    keepInSegments_ensures hm ho hplain hfile hfits hstale
  rw [convert_eq]
  split
  · next hzero =>
    have hempty : o.content = ByteArray.empty := by
      rw [← Payload.bytes_inj, Payload.bytes_empty, ← List.length_eq_zero_iff, Payload.length_bytes]
      exact hzero
    rwa [← hempty]
  · refine ensures_at_bind (MemoryStore.answer_get ho) ?_ fun _ hcall =>
      ⟨.refl v name m, .plain ho hplain hfile hfits hstale, _, hcall⟩
    rwa [MemoryStore.resolve_of_plain hplain]

/-- A new file has a manifest and no segments. -/
theorem begin_ensures (hm : v.Ready m) (hpath : Path.isBelowRoot path = true)
    (ho : m.object? v.container (v.storeName path) = none)
    (hstale : v.Numbered m (v.storeName path)) :
    Ensures (answer.mayFail fails) (v.beginFile path) m
      (fun _ t => v.Confined (v.storeName path) m t ∧ v.Segmented t (v.storeName path) [])
      fun _ t => v.Confined (v.storeName path) m t ∧ v.Holds t (v.storeName path) [] ∧
        ((∃ call, fails call) ∨ ¬v.UnderDirectories m path) := by
  have hholds : v.Holds m (v.storeName path) [] := .absent ho hstale
  refine (makeParents_ensures path hm).bind_mono ?_ ?_
  · intro _ t ht
    obtain ⟨ht, hblame⟩ := ht
    exact ⟨ht.confined, hholds.congr (ht.file hpath) fun _ => ht.segment _, hblame⟩
  intro _ t ht
  have htstale : v.Numbered t (v.storeName path) := fun s o hs => hstale s o (ht.segment _ ▸ hs)
  have htnone : t.object? v.container (v.storeName path) = none := (ht.file hpath).trans ho
  refine (clearSegments_ensures (ht.ready hm)).bind_mono ?_ ?_
  · intro _ u hu
    obtain ⟨hu, hcall⟩ := hu
    exact ⟨ht.confined.trans hu.toConfined, .absent (hu.file.trans htnone) (hu.numbered htstale),
      .inl hcall⟩
  intro _ u hu
  obtain ⟨hu, hgone⟩ := hu
  refine (putManifest_ensures (hu.ready (ht.ready hm)) (hu.stores_nil htstale hgone)).mono ?_ ?_
  · intro _ w hw
    obtain ⟨hw, hsegmented⟩ := hw
    exact ⟨(ht.confined.trans hu.toConfined).trans hw, hsegmented⟩
  · intro _ w hw
    obtain ⟨rfl, hcall⟩ := hw
    exact ⟨ht.confined.trans hu.toConfined, .absent (hu.file.trans htnone) (hu.numbered htstale),
      .inl hcall⟩

/-- Of a file that has a manifest no more than the segments are looked at. -/
theorem prepare_of_manifest (hm : v.Ready m) (hmanifest : v.HasManifest m (v.storeName path)) :
    Ensures (answer.mayFail fails) (v.prepare path) m
      (fun lengths t => t = m ∧
        lengths = (v.entries m (v.storeName path)).map SegmentEntry.length)
      fun _ t => t = m ∧ ∃ call, fails call := by
  obtain ⟨o, ho, href⟩ := hmanifest
  refine ensures_prepare_of_some (fun _ hcall => ⟨rfl, _, hcall⟩) ho ?_ ?_ ?_
  · intro _
    rw [segments_eq]
    simp only [bind_assoc, pure_bind]
    exact ensures_at_bind (MemoryStore.answer_list_all hm.segments) (ensures_pure ⟨rfl, rfl⟩)
      fun _ hcall => ⟨rfl, _, hcall⟩
  all_goals
    intro hplain
    rw [href] at hplain
    cases hplain

/-- A file is made a manifest with segments and has the bytes that it had. Where this fails, a call
does, or a file is above the path. -/
theorem prepare_ensures (hm : v.Ready m) (hpath : Path.isBelowRoot path = true)
    (hholds : v.Holds m (v.storeName path) content) :
    Ensures (answer.mayFail fails) (v.prepare path) m
      (fun lengths t => v.Confined (v.storeName path) m t ∧
        v.Segmented t (v.storeName path) content ∧
        ∀ j : Nat, lengths[j]? = chunkLength? v.chunkSize content.length j)
      fun _ t => v.Confined (v.storeName path) m t ∧ v.Holds t (v.storeName path) content ∧
        ((∃ call, fails call) ∨ ¬v.UnderDirectories m path) := by
  by_cases hmanifest : v.HasManifest m (v.storeName path)
  · obtain ⟨o, ho, href⟩ := hmanifest
    have hfile := hholds.segmented_of_manifest ho href
    refine (prepare_of_manifest hm hfile.object).mono ?_ ?_
    · intro lengths t ht
      obtain ⟨rfl, rfl⟩ := ht
      exact ⟨.refl v _ t, hfile, hfile.stores.entries_lengths⟩
    · intro _ t ht
      obtain ⟨rfl, hcall⟩ := ht
      exact ⟨.refl v _ t, hholds, .inl hcall⟩
  have hcall : ∀ {call}, fails call → v.Confined (v.storeName path) m m ∧
      v.Holds m (v.storeName path) content ∧ ((∃ call, fails call) ∨ ¬v.UnderDirectories m path) :=
    fun hcall => ⟨.refl v _ m, hholds, .inl ⟨_, hcall⟩⟩
  cases hholds with
  | absent object stale =>
    refine ensures_prepare_of_none (fun _ => hcall) object ?_
    refine (begin_ensures hm hpath object stale).mono ?_ fun _ _ ht => ht
    intro _ t ht
    exact ⟨ht.1, ht.2, fun j => (Bytes.chunkLength?_eq_none_iff.2 (Nat.zero_le _)).symm⟩
  | plain object plain file fits stale =>
    refine ensures_prepare_of_some (fun _ => hcall) object ?_ ?_ ?_
    · intro hsome
      rw [plain] at hsome
      cases hsome
    · exact fun _ htype => absurd htype file
    · intro _ _
      rw [MemoryStore.resolve_of_plain plain, Payload.length_bytes]
      refine (convert_ensures hm object plain file fits stale).mono (fun _ _ h => h) ?_
      intro _ t ht
      obtain ⟨ht, hholds, hcall⟩ := ht
      exact ⟨ht, hholds, .inl hcall⟩
  | segmented file => exact absurd file.object hmanifest

end SegmentedFiles.Volume

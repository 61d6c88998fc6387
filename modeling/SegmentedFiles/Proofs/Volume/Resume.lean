import SegmentedFiles.Proofs.Volume.Create
import SegmentedFiles.Proofs.Volume.Write

/-! # Writes as changes of one sequence of bytes

A write that nothing disturbs puts its data over the old bytes (`write_splices`). One that fails says
how many bytes it has stored. The rest can be written where it stopped, and to do so, as often as it takes,
comes to the same file in the same segments (`write_resumes`). -/

namespace SegmentedFiles

/-- The source has these data, or a part of their beginning and then breaks off. -/
def Source.Delivers (source : Source) (data : Bytes) : Prop :=
  source.bytes <+: data ∧ (source.failure = none → source.bytes = data)

namespace Volume

open Interaction (Outcome)
open MemoryStore (answer)

variable {v : Volume} {m t u : MemoryStore} {name path : String} {content data old : Bytes}
  {source : Source} {fails : StoreCall → Prop} {offset total : Nat}

/-! ## A write that nothing disturbs -/

/-- The read of a file gives what is at its path. -/
theorem readAll_runOn {o : StoredObject} (hpath : Path.isBelowRoot path = true)
    (ho : m.object? v.container (v.storeName path) = some o) :
    (v.readAll path).runOn answer m = (.ok (m.resolve o), m) := by
  have hread : v.readAll path = (StoreCall.get v.container (v.storeName path) none).at path := by
    rw [readAll, checkPath, if_pos (by rw [hpath]; rfl), pure_bind]
  rw [hread]
  show ((answer (.get v.container (v.storeName path) none) m).1.mapError _, _) = _
  rw [MemoryStore.answer_get ho]
  rfl

/-- Without failing calls, and with data that does not break off, there is nothing for a write to fail
of. -/
theorem write_runOn (hm : v.Ready m) (hpath : Path.isBelowRoot path = true)
    (hfile : v.Writable m path) (hwhole : source.failure = none)
    (hfits : offset + source.bytes.length ≤ v.chunkSize * Segment.maxSequence) :
    ∃ t, (v.write path offset source).runOn answer m = (.ok source.bytes.length, t) ∧
      v.Confined (v.storeName path) m t ∧ v.Segmented t (v.storeName path)
        ((v.contentAt m path).splice offset source.bytes) := by
  cases hrun : (v.write path offset source).runOn answer m with
  | mk r t =>
    have hwritten := write_ensures hm hpath hfile.holds hfits r t (outcome_never_iff.2 hrun)
    cases r with
    | ok count =>
      obtain ⟨ht, -, rfl, hsegmented⟩ := hwritten
      exact ⟨t, rfl, ht, hsegmented⟩
    | error failure =>
      obtain ⟨-, hblame, -⟩ := hwritten
      rcases hblame with ⟨_, hcall⟩ | hbroken | hparents
      · exact hcall.elim
      · exact absurd hwhole hbroken
      · exact absurd hfile.parents hparents

/-- A file in segments reads as its content, unless something else lies below its name. -/
theorem Segmented.readAll_runOn (h : v.Segmented m (v.storeName path) content)
    (hforeign : v.NoForeign m (v.storeName path)) (hpath : Path.isBelowRoot path = true) :
    ∃ read, (v.readAll path).runOn answer m = (.ok read, m) ∧ read.bytes = content := by
  obtain ⟨o, ho, hmanifest⟩ := h.object
  exact ⟨m.resolve o, Volume.readAll_runOn hpath ho, h.stores.bytes_resolve hforeign hmanifest⟩

/-- A write that nothing disturbs stores all of its data. A read then gives the old bytes, extended with
zeros if they end before the offset, with the data in the place of those from the offset on. -/
theorem write_splices (offset : Nat) (source : Source) (hm : v.Ready m)
    (hpath : Path.isBelowRoot path = true) (hfile : v.Writable m path)
    (hwhole : source.failure = none)
    (hfits : offset + source.bytes.length ≤ v.chunkSize * Segment.maxSequence) :
    ∃ t read, (v.write path offset source).runOn answer m = (.ok source.bytes.length, t) ∧
      (v.readAll path).runOn answer t = (.ok read, t) ∧
      read.bytes = (v.contentAt m path).splice offset source.bytes := by
  obtain ⟨t, hrun, ht, hsegmented⟩ := write_runOn hm hpath hfile hwhole hfits
  have hforeign := ht.noForeign hfile.segments hsegmented.stores.numbered
  obtain ⟨read, hread, hbytes⟩ := hsegmented.readAll_runOn hforeign hpath
  exact ⟨t, read, hrun, hread, hbytes⟩

/-- A store in which the volume has one file, of five bytes, that is kept as a plain object. -/
def sampleStore : MemoryStore :=
  (fresh "files" true Timestamp.epoch).place "files" "f"
    ⟨⟨#[9, 9, 9, 9, 9]⟩, fileType, Timestamp.epoch, "", none⟩

theorem ready_sampleStore : sampleVolume.Ready sampleStore :=
  (Confined.place (sampleVolume.owns_object "f")).ready (ready_fresh sampleVolume true Timestamp.epoch)

theorem writable_sampleStore : sampleVolume.Writable sampleStore "/f" := by
  have hname : sampleVolume.storeName "/f" = "f" := by decide
  refine ⟨?_, ?_, .of_nil (by decide)⟩
  · intro o ho
    rw [hname] at ho
    obtain rfl := Option.some.inj (MemoryStore.object?_place_self.symm.trans ho)
    exact .inl ⟨rfl, by decide, by decide⟩
  · intro text o ho
    rw [sampleStore, MemoryStore.object?_place_of_ne fun h => absurd h.1 (by decide),
      object?_fresh] at ho
    cases ho

theorem contentAt_sampleStore : sampleVolume.contentAt sampleStore "/f" = [9, 9, 9, 9, 9] := by
  have hname : sampleVolume.storeName "/f" = "f" := by decide
  have ho : sampleStore.object? sampleVolume.container (sampleVolume.storeName "/f")
      = some ⟨⟨#[9, 9, 9, 9, 9]⟩, fileType, Timestamp.epoch, "", none⟩ := by
    rw [hname]
    exact MemoryStore.object?_place_self
  rw [contentAt, ho]
  rfl

/-- A write into the gap behind a plain object, from two pieces. -/
theorem write_splices_behind_plain :
    ∃ t read, (sampleVolume.write "/f" 7 (.ofPieces [⟨#[1]⟩, ⟨#[2, 3]⟩] none)).runOn answer sampleStore
        = (.ok 3, t) ∧
      (sampleVolume.readAll "/f").runOn answer t = (.ok read, t) ∧
      read.bytes = [9, 9, 9, 9, 9, 0, 0, 1, 2, 3] := by
  have hbytes : (Source.ofPieces [⟨#[1]⟩, ⟨#[2, 3]⟩] none).bytes = [1, 2, 3] := by decide
  have hwrite := write_splices 7 (.ofPieces [⟨#[1]⟩, ⟨#[2, 3]⟩] none) ready_sampleStore (by decide)
    writable_sampleStore rfl (by rw [hbytes]; decide)
  rw [contentAt_sampleStore, hbytes] at hwrite
  exact hwrite

/-- Any file of a new volume can be written. -/
theorem writable_fresh (v : Volume) (bulk : Bool) (now : Timestamp) (path : String) :
    v.Writable (fresh v.container bulk now) path := by
  refine ⟨?_, ?_, ?_⟩
  · intro o ho
    rw [object?_fresh] at ho
    cases ho
  · intro text o ho
    rw [object?_fresh] at ho
    cases ho
  · intro dir _ o ho
    rw [object?_fresh] at ho
    cases ho

theorem contentAt_fresh (v : Volume) (bulk : Bool) (now : Timestamp) (path : String) :
    v.contentAt (fresh v.container bulk now) path = [] := by
  rw [contentAt, object?_fresh]

/-- A file is stored in segments in a new container. -/
theorem exists_stored (data : Payload)
    (hfits : data.size ≤ sampleVolume.chunkSize * Segment.maxSequence) : ∃ t,
    (sampleVolume.write "/f" 0 (.ofPieces [data] none)).runOn answer
        (fresh "files" true Timestamp.epoch) = (.ok data.size, t) ∧
      sampleVolume.Segmented t (sampleVolume.storeName "/f") data.bytes ∧
      sampleVolume.Ready t ∧ sampleVolume.NoForeign t (sampleVolume.storeName "/f") := by
  have hm := ready_fresh sampleVolume true Timestamp.epoch
  have hfile := writable_fresh sampleVolume true Timestamp.epoch "/f"
  have hbytes : (Source.ofPieces [data] none).bytes = data.bytes := by
    rw [Source.bytes_ofPieces, List.flatMap_cons, List.flatMap_nil, List.append_nil]
  have hlength : data.bytes.length = data.size := Payload.length_bytes
  have hfits : 0 + (Source.ofPieces [data] none).bytes.length ≤ sampleVolume.chunkSize * Segment.maxSequence := by
    rwa [hbytes, hlength, Nat.zero_add]
  obtain ⟨t, hrun, ht, hsegmented⟩ := write_runOn hm (by decide) hfile rfl hfits
  rw [contentAt_fresh, hbytes, ← List.length_nil (α := UInt8), Bytes.splice_length, List.nil_append] at hsegmented
  rw [hbytes, hlength] at hrun
  exact ⟨t, hrun, hsegmented, ht.ready hm, ht.noForeign hfile.segments hsegmented.stores.numbered⟩

/-! ## Writes that are taken up again -/

/-- Writes of data from an offset on. Each but the last fails, and the one after it takes up with what
is not stored yet. The last succeeds. The number is that of all bytes that the writes say they have
stored. -/
inductive Attempts (v : Volume) (path : String) (fails : StoreCall → Prop) :
    Nat → Bytes → MemoryStore → Nat → MemoryStore → Prop where
  | last {offset : Nat} {data : Bytes} {m t : MemoryStore} {source : Source} {count : Nat} :
    source.Delivers data →
    Outcome (answer.mayFail fails) (v.write path offset source) m (.ok count) t →
    v.Attempts path fails offset data m count t
  | again {offset : Nat} {data : Bytes} {m t u : MemoryStore} {source : Source}
    {failure : WriteFailure} {count : Nat} :
    source.Delivers data →
    Outcome (answer.mayFail fails) (v.write path offset source) m (.error failure) t →
    v.Attempts path fails (offset + failure.written) (data.drop failure.written) t count u →
    v.Attempts path fails offset data m (failure.written + count) u

/-- What a file with the bytes `old` has after a write of `data` that stored `count` bytes: the bytes
before the offset and behind those stored are the old ones, between them are the data, and if nothing
was stored the old bytes may have been extended, but not past the offset. -/
structure Interrupted (old : Bytes) (offset : Nat) (data : Bytes) (count : Nat) (content : Bytes) :
    Prop where
  count_le : count ≤ data.length
  kept : ∀ i, i < old.length → i < offset ∨ offset + count ≤ i → content[i]? = old[i]?
  stored : ∀ i, i < count → content[offset + i]? = data[i]?
  nothing : count = 0 → ∃ z, z ≤ offset ∧ content = old.extend z
  something : 0 < count → content = old.splice offset (data.take count)

theorem interrupted_of_extend {z : Nat} (hz : z ≤ offset) :
    Interrupted old offset data 0 (old.extend z) := by
  refine ⟨Nat.zero_le _, ?_, nofun, fun _ => ⟨z, hz, rfl⟩, fun h => absurd h (Nat.lt_irrefl 0)⟩
  intro i hi _
  rw [Bytes.getElem?_extend, if_pos hi]

theorem interrupted_of_splice {count : Nat} (hpos : 0 < count) (hle : count ≤ data.length) :
    Interrupted old offset data count (old.splice offset (data.take count)) := by
  have hlength : (data.take count).length = count := by
    rw [List.length_take]
    omega
  refine ⟨hle, ?_, ?_, fun h => absurd h (Nat.ne_of_gt hpos), fun _ => rfl⟩
  · intro i hi h
    rcases h with hbefore | hbehind
    · rw [Bytes.getElem?_splice_of_lt hbefore, Bytes.getElem?_extend, if_pos hi]
    · exact Bytes.getElem?_splice_of_le (by omega)
  · intro i hi
    rw [Bytes.getElem?_splice_add (by omega), List.getElem?_take_of_lt hi]

/-- A write that fails has stored the beginning of the data, and the file can be written again. -/
theorem interrupted_of_failure {failure : WriteFailure} (hm : v.Ready m)
    (hpath : Path.isBelowRoot path = true) (hholds : v.Holds m (v.storeName path) old)
    (hfits : offset + data.length ≤ v.chunkSize * Segment.maxSequence)
    (hsource : source.Delivers data)
    (h : Outcome (answer.mayFail fails) (v.write path offset source) m (.error failure) t) :
    v.Confined (v.storeName path) m t ∧ ∃ content, v.Holds t (v.storeName path) content ∧
      Interrupted old offset data failure.written content := by
  have hlength := hsource.1.length_le
  obtain ⟨ht, -, hle, z, hz, hcontent⟩ := write_ensures hm hpath hholds (by omega) _ t h
  refine ⟨ht, _, hcontent, ?_⟩
  split
  · next hzero =>
    rw [hzero]
    exact interrupted_of_extend hz
  · next hpos =>
    have htake : source.bytes.take failure.written = data.take failure.written := by
      rw [List.prefix_iff_eq_take.1 hsource.1, List.take_take, Nat.min_eq_left hle]
    rw [htake]
    exact interrupted_of_splice (Nat.pos_of_ne_zero hpos) (by omega)

/-- To write the rest after a failure comes to the same bytes as to write all. -/
theorem Interrupted.splice {count : Nat} (h : Interrupted old offset data count content) :
    content.splice (offset + count) (data.drop count) = old.splice offset data := by
  rcases Nat.eq_zero_or_pos count with rfl | hpos
  · obtain ⟨z, hz, rfl⟩ := h.nothing rfl
    rw [Nat.add_zero, List.drop_zero, Bytes.splice_extend hz]
  · have hlength : (data.take count).length = count := by
      rw [List.length_take]
      exact Nat.min_eq_left h.count_le
    have hsplit : (old.splice offset (data.take count)).splice
        (offset + (data.take count).length) (data.drop count)
          = old.splice offset (data.take count ++ data.drop count) := Bytes.splice_splice
    rw [hlength, List.take_append_drop] at hsplit
    rw [h.something hpos, hsplit]

/-- Whatever fails on the way, in the end all data is stored. -/
theorem Attempts.segmented (h : v.Attempts path fails offset data m total t) (hm : v.Ready m)
    (hpath : Path.isBelowRoot path = true) (hholds : v.Holds m (v.storeName path) old)
    (hfits : offset + data.length ≤ v.chunkSize * Segment.maxSequence) :
    total = data.length ∧ v.Confined (v.storeName path) m t ∧
      v.Segmented t (v.storeName path) (old.splice offset data) := by
  induction h generalizing old with
  | last hsource hwrite =>
    have hlength := hsource.1.length_le
    obtain ⟨ht, hnone, hcount, hsegmented⟩ := write_ensures hm hpath hholds (by omega) _ _ hwrite
    rw [hsource.2 hnone] at hcount hsegmented
    exact ⟨hcount, ht, hsegmented⟩
  | again hsource hwrite _ ih =>
    obtain ⟨ht, content, hcontent, hinterrupted⟩ :=
      interrupted_of_failure hm hpath hholds hfits hsource hwrite
    have hle := hinterrupted.count_le
    obtain ⟨hcount, hu, hsegmented⟩ :=
      ih (ht.ready hm) hcontent (by rw [List.length_drop]; omega)
    rw [List.length_drop] at hcount
    rw [hinterrupted.splice] at hsegmented
    exact ⟨by omega, ht.trans hu, hsegmented⟩

/-- The segments of a file in segments are known by its content. -/
theorem Stores.object?_congr (h : v.Stores t name content) (h' : v.Stores u name content) (s : Nat) :
    (t.object? v.segmentsContainer (Segment.name name s)).map StoredObject.content
      = (u.object? v.segmentsContainer (Segment.name name s)).map StoredObject.content := by
  have hsegment : v.segment? t name s = v.segment? u name s := by
    cases s with
    | zero => rw [h.zero, h'.zero]
    | succ i => rw [h.chunk, h'.chunk]
  have hbytes : Function.Injective Payload.bytes := fun a b => Payload.bytes_inj.1
  refine Option.map_injective hbytes ?_
  rw [Option.map_map, Option.map_map]
  exact hsegment

/-- Two changes that are confined to a file and leave it the same content in segments leave the same segments. -/
theorem Confined.segments_congr (ht : v.Confined name m t) (hu : v.Confined name m u) (h : v.Stores t name content)
    (h' : v.Stores u name content) (text : String) :
    (t.object? v.segmentsContainer text).map StoredObject.content
      = (u.object? v.segmentsContainer text).map StoredObject.content := by
  by_cases htext : ∃ s, text = Segment.name name s
  · obtain ⟨s, rfl⟩ := htext
    exact h.object?_congr h' s
  · have hne : ∀ s, text ≠ Segment.name name s := fun s hs => htext ⟨s, hs⟩
    rw [ht.segment hne, hu.segment hne]

/-- What a failed write has not stored can be written where it stopped, and if nothing disturbs that, all of the data
is stored then. -/
theorem exists_resumed {failure : WriteFailure} (hm : v.Ready m) (hpath : Path.isBelowRoot path = true)
    (hfile : v.Writable m path) (hfits : offset + data.length ≤ v.chunkSize * Segment.maxSequence)
    (hsource : source.Delivers data)
    (h : Outcome (answer.mayFail fails) (v.write path offset source) m (.error failure) t) {rest : Source}
    (hrest : rest.bytes = data.drop failure.written) (hwhole : rest.failure = none) :
    ∃ u, (v.write path (offset + failure.written) rest).runOn answer t = (.ok rest.bytes.length, u) ∧
      v.Attempts path fails offset data m data.length u := by
  obtain ⟨ht, content, hcontent, hinterrupted⟩ := interrupted_of_failure hm hpath hfile.holds hfits hsource h
  have hle := hinterrupted.count_le
  have hlength : rest.bytes.length = data.length - failure.written := by rw [hrest, List.length_drop]
  have hroom : offset + failure.written + rest.bytes.length ≤ v.chunkSize * Segment.maxSequence := by omega
  obtain ⟨u, hrun, -⟩ :=
    write_runOn (ht.ready hm) hpath (ht.writable hpath hfile hcontent) hwhole hroom
  have hagain := Attempts.again hsource h (.last ⟨hrest ▸ List.prefix_rfl, fun _ => hrest⟩
    (outcome_mono (fun _ hnever => hnever.elim) (outcome_never_iff.2 hrun)))
  rw [hlength, Nat.add_sub_cancel' hle] at hagain
  exact ⟨u, hrun, hagain⟩

/-- A write that nothing disturbs stores all of its data. One that fails leaves the old bytes, but for those that it
says it has stored and, if these are none, for zeros behind the old bytes up to the offset; the file can be written
again, and where nothing disturbs the write of the rest, that stores it. To write the rest where it stopped, whatever
fails again, up to the first success, stores as many bytes in all as there are, and leaves the same content and the
same segments as the write that nothing disturbs. -/
theorem write_resumes (fails : StoreCall → Prop) (offset : Nat) (data : Bytes) (hm : v.Ready m)
    (hpath : Path.isBelowRoot path = true) (hfile : v.Writable m path)
    (hfits : offset + data.length ≤ v.chunkSize * Segment.maxSequence) :
    (∀ source : Source, source.bytes = data → source.failure = none →
      ∃ u, (v.write path offset source).runOn answer m = (.ok data.length, u)) ∧
    (∀ source failure t, source.Delivers data →
      Outcome (answer.mayFail fails) (v.write path offset source) m (.error failure) t →
      Interrupted (v.contentAt m path) offset data failure.written (v.contentAt t path) ∧ v.Writable t path ∧
      ∀ rest : Source, rest.bytes = data.drop failure.written → rest.failure = none →
        ∃ u, (v.write path (offset + failure.written) rest).runOn answer t = (.ok rest.bytes.length, u) ∧
          v.Attempts path fails offset data m data.length u) ∧
    ∀ total t, v.Attempts path fails offset data m total t → total = data.length ∧
      v.contentAt t path = (v.contentAt m path).splice offset data ∧
      ∀ source : Source, source.bytes = data → source.failure = none →
        ∃ u, (v.write path offset source).runOn answer m = (.ok data.length, u) ∧
          v.contentAt t path = v.contentAt u path ∧
          ∀ text, (t.object? v.segmentsContainer text).map StoredObject.content
            = (u.object? v.segmentsContainer text).map StoredObject.content := by
  refine ⟨?_, ?_, ?_⟩
  · rintro source rfl hwhole
    obtain ⟨u, hrun, -⟩ := write_runOn hm hpath hfile hwhole hfits
    exact ⟨u, hrun⟩
  · intro source failure t hsource hwrite
    obtain ⟨ht, content, hcontent, hinterrupted⟩ :=
      interrupted_of_failure hm hpath hfile.holds hfits hsource hwrite
    rw [ht.contentAt_eq hfile.segments hcontent]
    exact ⟨hinterrupted, ht.writable hpath hfile hcontent,
      fun rest => exists_resumed hm hpath hfile hfits hsource hwrite⟩
  · intro total t hattempts
    obtain ⟨hcount, ht, hsegmented⟩ := hattempts.segmented hm hpath hfile.holds hfits
    have hcontent := ht.contentAt_eq hfile.segments (.segmented hsegmented)
    refine ⟨hcount, hcontent, ?_⟩
    rintro source rfl hwhole
    obtain ⟨u, hrun, hu, hsegmented'⟩ := write_runOn hm hpath hfile hwhole hfits
    have hcontent' := hu.contentAt_eq hfile.segments (.segmented hsegmented')
    exact ⟨u, hrun, hcontent.trans hcontent'.symm, ht.segments_congr hu hsegmented.stores hsegmented'.stores⟩

/-- Of three bytes behind a plain object the data breaks off after two. One of them is stored, which fills a segment,
and the write of the others from there on stores the rest. -/
theorem write_resumes_behind_plain :
    ∃ t u, (sampleVolume.write "/f" 7 (.ofPieces [⟨#[1, 2]⟩] (some (.other "reset")))).runOn answer sampleStore
        = (.error ⟨1, .io "/f" (.other "reset")⟩, t) ∧
      sampleVolume.contentAt t "/f" = [9, 9, 9, 9, 9, 0, 0, 1] ∧
      (sampleVolume.write "/f" 8 (.ofPieces [⟨#[2, 3]⟩] none)).runOn answer t = (.ok 2, u) ∧
      sampleVolume.contentAt u "/f" = [9, 9, 9, 9, 9, 0, 0, 1, 2, 3] := by
  obtain ⟨-, hfailed, hattempts⟩ := write_resumes never 7 [1, 2, 3] ready_sampleStore (by decide)
    writable_sampleStore (by decide)
  rw [contentAt_sampleStore] at hfailed hattempts
  have hsource : (Source.ofPieces [⟨#[1, 2]⟩] (some (.other "reset"))).Delivers [1, 2, 3] := ⟨⟨[3], rfl⟩, nofun⟩
  have hreply : ((sampleVolume.write "/f" 7 (.ofPieces [⟨#[1, 2]⟩] (some (.other "reset")))).runOn answer
      sampleStore).1 = .error ⟨1, .io "/f" (.other "reset")⟩ := by decide +kernel
  obtain ⟨t, hrun⟩ : ∃ t, (sampleVolume.write "/f" 7 (.ofPieces [⟨#[1, 2]⟩] (some (.other "reset")))).runOn answer
      sampleStore = (.error ⟨1, .io "/f" (.other "reset")⟩, t) := ⟨_, Prod.ext hreply rfl⟩
  obtain ⟨hinterrupted, -, hresumed⟩ := hfailed _ _ _ hsource (outcome_never_iff.2 hrun)
  obtain ⟨u, hrest, hattempt⟩ := hresumed (.ofPieces [⟨#[2, 3]⟩] none) rfl rfl
  exact ⟨t, u, hrun, hinterrupted.something (by decide), hrest, (hattempts _ u hattempt).2.1⟩

end Volume

end SegmentedFiles

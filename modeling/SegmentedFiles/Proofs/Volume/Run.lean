import SegmentedFiles.Proofs.Volume.Pruned
import SegmentedFiles.Proofs.Volume.Resume

/-! # Runs of operations

Each operation on files may stop at any of its calls, and the next one starts from what it has left. A
run is any number of operations in any order (`Volume.Run`). In all states that a run comes to the files
in segments are laid out well (`regular_of_run`): a write keeps the file that it writes, and the other
operations make no segments. Only the deletion of single objects by a removal must not fail, for what is
left of a file there can have gaps. -/

namespace SegmentedFiles.Volume

open Interaction (Outcome)
open MemoryStore (answer)
open VolumeAction

variable {v : Volume} {m t u start : MemoryStore} {name path : String} {content : Bytes}
  {o : StoredObject} {ref : ManifestRef} {fails : StoreCall → Prop} {offset : Nat} {source : Source}

/-- The containers of the volume are there, no failures are injected into the store, and all manifests
refer to their own segments. -/
structure Proper (v : Volume) (m : MemoryStore) : Prop where
  ready : v.Ready m
  bulkFault : m.bulkFault = none
  own : v.OwnManifests m

theorem Proper.pruned (hm : v.Proper m) (h : v.Pruned m t) : v.Proper t :=
  ⟨h.ready hm.ready, h.bulkFault.trans hm.bulkFault, h.ownManifests hm.own⟩

/-- All files in segments are laid out well. Segments of other names are numbered within the bounds. -/
structure LaidOut (v : Volume) (m : MemoryStore) : Prop extends v.Proper m where
  stores : ∀ name, v.HasManifest m name → ∃ content, v.Stores m name content
  numbered : ∀ name, v.Numbered m name

namespace LaidOut

theorem pruned (hm : v.LaidOut m) (h : v.Pruned m t) : v.LaidOut t := by
  refine ⟨hm.toProper.pruned h, ?_, fun name s o ho => hm.numbered name s o (h.segment _ o ho)⟩
  intro name hname
  obtain ⟨o, ho, href⟩ := hname
  obtain ⟨hthere, hsame⟩ := h.manifest name o _ ho href
  obtain ⟨content, hstores⟩ := hm.stores name ⟨o, hthere, href⟩
  exact ⟨content, hstores.congr hsame⟩

/-- What is written is a file that holds something; all others are as they were. -/
theorem written (hm : v.LaidOut m) (hpath : Path.isBelowRoot path = true)
    (h : v.Confined (v.storeName path) m t) (hholds : v.Holds t (v.storeName path) content) :
    v.LaidOut t := by
  have hothers : ∀ name o ref, name ≠ v.storeName path → t.object? v.container name = some o →
      o.manifest = some ref → m.object? v.container name = some o := by
    intro name o ref hne ho href
    rcases h.file hne with hsame | ⟨-, o', ho', hdirectory⟩
    · exact hsame ▸ ho
    · rw [ho] at ho'
      cases ho'
      rw [hdirectory.manifest] at href
      cases href
  refine ⟨⟨h.ready hm.ready, h.bulkFault.trans hm.bulkFault, ?_⟩, ?_, ?_⟩
  · intro name o ref ho href
    by_cases hname : name = v.storeName path
    · subst hname
      obtain ⟨o', ho', hmanifest⟩ := (hholds.segmented_of_manifest ho href).object
      rw [ho] at ho'
      cases ho'
      exact ⟨Option.some.inj (href.symm.trans hmanifest), getLast?_storeName hpath⟩
    · exact hm.own name o ref (hothers name o ref hname ho href) href
  · intro name hname
    obtain ⟨o, ho, href⟩ := hname
    by_cases hsame : name = v.storeName path
    · subst hsame
      cases hholds with
      | absent object =>
        rw [object] at ho
        cases ho
      | plain object plain =>
        rw [object] at ho
        cases ho
        rw [plain] at href
        cases href
      | segmented file => exact ⟨_, file.stores⟩
    · obtain ⟨content, hstores⟩ := hm.stores name ⟨o, hothers name o _ hsame ho href, href⟩
      exact ⟨content, h.stores_of_ne hsame hstores⟩
  · intro name s o ho
    by_cases hsame : name = v.storeName path
    · exact hholds.numbered s o (hsame ▸ ho)
    · rw [h.segment fun s' hname => hsame (Segment.name_inj hname).1] at ho
      exact hm.numbered name s o ho

end LaidOut

/-- A write to what is no path of a file, or where a directory is, changes nothing. -/
theorem write_unchanged (offset : Nat) (source : Source)
    (h : Path.isBelowRoot path = true →
      ∃ o, m.object? v.container (v.storeName path) = some o ∧ o.IsDirectory) :
    Interaction.Ensures (answer.mayFail fails) (v.write path offset source) m fun _ t => t = m := by
  have hbegin : Ensures (answer.mayFail fails) (v.beginWrite path offset) m (fun _ _ => False)
      fun _ t => t = m := by
    refine ensures_beginWrite (fun _ => rfl) (fun hpath => ?_) fun _ _ _ hfalse => False.elim hfalse
    obtain ⟨o, ho, hdirectory⟩ := h hpath
    refine ensures_prepare_of_some (fun _ _ => rfl) ho (fun hsome => ?_) (fun _ _ => rfl) fun _ hfile => ?_
    · rw [hdirectory.manifest] at hsome
      cases hsome
    · exact absurd hdirectory.contentType hfile
  exact ensures_write hbegin fun _ _ _ hfalse => hfalse.elim

/-- However a write ends, the files in segments are laid out well again. -/
theorem LaidOut.write (hm : v.LaidOut m)
    (hfits : offset + source.bytes.length ≤ v.chunkSize * Segment.maxSequence)
    (hfile : (v.contentAt m path).length ≤ v.chunkSize * Segment.maxSequence) :
    Interaction.Ensures (answer.mayFail fails) (v.write path offset source) m
      fun _ t => v.LaidOut t := by
  by_cases hnothing : Path.isBelowRoot path = true →
      ∃ o, m.object? v.container (v.storeName path) = some o ∧ o.IsDirectory
  · refine (write_unchanged offset source hnothing).mono ?_
    intro _ t ht
    exact ht ▸ hm
  · rw [Classical.not_imp] at hnothing
    obtain ⟨hpath, hdirectory⟩ := hnothing
    have hholds : ∃ content, v.Holds m (v.storeName path) content := by
      cases ho : m.object? v.container (v.storeName path) with
      | none => exact ⟨_, .absent ho (hm.numbered _)⟩
      | some o =>
        cases hmanifest : o.manifest with
        | none =>
          rw [contentAt, ho] at hfile
          dsimp only at hfile
          rw [MemoryStore.resolve_of_plain hmanifest, Payload.length_bytes] at hfile
          exact ⟨_, .plain ho hmanifest (fun htype => hdirectory ⟨o, ho, htype, hmanifest⟩) hfile
            (hm.numbered _)⟩
        | some ref =>
          obtain ⟨rfl, -⟩ := hm.own _ o ref ho hmanifest
          obtain ⟨content, hstores⟩ := hm.stores _ ⟨o, ho, hmanifest⟩
          exact ⟨content, .segmented ⟨⟨o, ho, hmanifest⟩, hstores⟩⟩
    obtain ⟨old, hold⟩ := hholds
    refine (write_ensures hm.ready hpath hold hfits).mono ?_
    intro r t ht
    obtain ⟨ht, hr⟩ := ht
    cases r with
    | ok count => exact hm.written hpath ht (.segmented hr.2.2)
    | error failure =>
      obtain ⟨-, -, z, -, hpart⟩ := hr
      exact hm.written hpath ht hpart

/-! ## Runs -/

/-- An operation that changes files. -/
inductive Operation where
  | write (path : String) (offset : Nat) (source : Source)
  | writeAll (path : String) (content : Payload)
  | move (source target : String)
  | remove (path : String)

namespace Operation

/-- Where calls may fail, the operation may leave the store `t`, whatever its result is. -/
def Leads (v : Volume) (fails : StoreCall → Prop) : Operation → MemoryStore → MemoryStore → Prop
  | .write path offset source, m, t =>
    ∃ r, Outcome (answer.mayFail fails) (v.write path offset source) m r t
  | .writeAll path content, m, t =>
    ∃ r, Outcome (answer.mayFail fails) (v.writeAll path content).run m r t
  | .move source target, m, t =>
    ∃ r, Outcome (answer.mayFail fails) (v.move source target).run m r t
  | .remove path, m, t =>
    ∃ r, Outcome (answer.mayFail fails) (v.remove path).run m r t

/-- All calls but the single deletions of a removal. -/
def anyButDelete : Operation → StoreCall → Prop
  | .remove _, .delete _ _ => False
  | _, _ => True

/-- There is room in segments for what a write puts into a file, and for what the file has before. -/
def Fits (v : Volume) : Operation → MemoryStore → Prop
  | .write path offset source, m =>
    offset + source.bytes.length ≤ v.chunkSize * Segment.maxSequence ∧
      (v.contentAt m path).length ≤ v.chunkSize * Segment.maxSequence
  | _, _ => True

end Operation

/-- Operations one after another, and time that passes in between. Of an operation the calls of `fails`
may fail. -/
inductive Run (v : Volume) (fails : Operation → StoreCall → Prop)
    (allowed : Operation → MemoryStore → Prop) : MemoryStore → MemoryStore → Prop where
  | start (m : MemoryStore) : v.Run fails allowed m m
  | wait {m t : MemoryStore} (now : Timestamp) :
    v.Run fails allowed m t → v.Run fails allowed m { t with now := now }
  | step {m t u : MemoryStore} {operation : Operation} :
    v.Run fails allowed m t → allowed operation t → operation.Leads v (fails operation) t u →
    v.Run fails allowed m u

/-- An operation that is no write prunes, wherever it stops. -/
theorem Operation.Leads.pruned_or_write {operation : Operation} (h : operation.Leads v fails m t)
    (hm : v.Proper m) (hdelete : ∀ path c n, operation = .remove path → ¬fails (.delete c n)) :
    v.Pruned m t ∨ ∃ path offset source, operation = .write path offset source ∧
      ∃ r, Outcome (answer.mayFail fails) (v.write path offset source) m r t := by
  cases operation with
  | write path offset source => exact .inr ⟨path, offset, source, rfl, h⟩
  | writeAll path content =>
    obtain ⟨r, h⟩ := h
    exact .inl ((writeAll_prunes path content hm.ready hm.own).state h)
  | move source target =>
    obtain ⟨r, h⟩ := h
    exact .inl ((move_prunes source target hm.ready hm.own).state h)
  | remove path =>
    obtain ⟨r, h⟩ := h
    have hremove : Ensures (answer.mayFail fails) (v.remove path) m (fun _ t => v.Pruned m t)
        fun _ t => v.Pruned m t :=
      remove_prunes path hm.ready hm.own hm.bulkFault fun c n => hdelete path c n rfl
    exact .inl (hremove.state h)

theorem Proper.leads {operation : Operation} (hm : v.Proper m)
    (hdelete : ∀ path c n, operation = .remove path → ¬fails (.delete c n))
    (h : operation.Leads v fails m t) : v.Proper t := by
  rcases h.pruned_or_write hm hdelete with hpruned | ⟨path, offset, source, -, r, hwrite⟩
  · exact hm.pruned hpruned
  · have hkept := write_keeps path offset source m r t hwrite hm.ready
    exact ⟨hkept.ready hm.ready, hkept.bulkFault.trans hm.bulkFault, hkept.own hm.own⟩

/-- Wherever an operation stops, the files in segments are laid out well. -/
theorem LaidOut.leads {operation : Operation} (hm : v.LaidOut m) (hfits : operation.Fits v m)
    (h : operation.Leads v operation.anyButDelete m t) : v.LaidOut t := by
  have hdelete : ∀ path c n, operation = .remove path → ¬operation.anyButDelete (.delete c n) := by
    intro path c n hoperation
    rw [hoperation]
    exact fun hcall => hcall
  rcases h.pruned_or_write hm.toProper hdelete with hpruned | ⟨path, offset, source, rfl, r, hwrite⟩
  · exact hm.pruned hpruned
  · exact hm.write hfits.1 hfits.2 r t hwrite

theorem Proper.at_time (hm : v.Proper m) (now : Timestamp) : v.Proper { m with now := now } :=
  ⟨⟨hm.ready.container, hm.ready.segments, hm.ready.putBudget⟩, hm.bulkFault, hm.own⟩

/-- Time alone changes nothing. -/
theorem LaidOut.at_time (hm : v.LaidOut m) (now : Timestamp) : v.LaidOut { m with now := now } :=
  ⟨hm.toProper.at_time now,
    fun name hname => (hm.stores name hname).imp fun _ h => ⟨h.fits, h.zero, h.chunk, h.plain⟩,
    hm.numbered⟩

theorem Run.proper {fails : Operation → StoreCall → Prop} {allowed : Operation → MemoryStore → Prop}
    (h : v.Run fails allowed m t) (hm : v.Proper m)
    (hdelete : ∀ path c n, ¬fails (.remove path) (.delete c n)) : v.Proper t := by
  induction h with
  | start => exact hm
  | wait now _ ih => exact ih.at_time now
  | step _ _ hstep ih =>
    refine ih.leads ?_ hstep
    intro path c n hoperation
    rw [hoperation]
    exact hdelete path c n

theorem Run.laidOut (h : v.Run Operation.anyButDelete (Operation.Fits v) m t) (hm : v.LaidOut m) :
    v.LaidOut t := by
  induction h with
  | start => exact hm
  | wait now _ ih => exact ih.at_time now
  | step _ hfits hstep ih => exact ih.leads hfits hstep

/-- Nothing is there to be laid out yet. -/
theorem laidOut_fresh (v : Volume) (bulk : Bool) (now : Timestamp) :
    v.LaidOut (fresh v.container bulk now) := by
  refine ⟨⟨ready_fresh v bulk now, by simp [fresh, MemoryStore.empty], ?_⟩, ?_, ?_⟩
  · intro name o ref ho
    rw [object?_fresh] at ho
    cases ho
  · intro name hname
    obtain ⟨o, ho, -⟩ := hname
    rw [object?_fresh] at ho
    cases ho
  · intro name s o ho
    rw [object?_fresh] at ho
    cases ho

/-- In all states that operations on a new volume come to, the segments of each manifest have the numbers
from 1 on without a gap, and all but the last are as long as a chunk. Calls may fail wherever they
are, but not the single deletions of a removal. -/
theorem regular_of_run {options : VolumeOptions} {bulk : Bool} {now : Timestamp}
    (hcreate : Outcome (answer.mayFail fails) (create options).run (MemoryStore.empty bulk now)
      (.ok v) start)
    (hrun : v.Run Operation.anyButDelete (Operation.Fits v) start t)
    (ho : t.object? v.container name = some o) (hmanifest : o.manifest = some ref) :
    ∃ k, v.Regular t name k := by
  obtain rfl := create_ensures (.ok v) start hcreate
  have ht := hrun.laidOut (laidOut_fresh v bulk now)
  obtain ⟨rfl, -⟩ := ht.own name o ref ho hmanifest
  obtain ⟨content, hstores⟩ := ht.stores name ⟨o, ho, hmanifest⟩
  exact ⟨_, hstores.regular⟩

/-- A new volume in which a file is written. -/
theorem regular_of_run_of_write :
    ∃ t o, sampleVolume.Run Operation.anyButDelete (Operation.Fits sampleVolume)
        (fresh "files" true Timestamp.epoch) t ∧
      t.object? "files" "f" = some o ∧ o.manifest = some (sampleVolume.manifestRef "f") ∧
        ∃ k, sampleVolume.Regular t "f" k := by
  have hname : sampleVolume.storeName "/f" = "f" := by decide
  have hfits : Operation.Fits sampleVolume (.write "/f" 7 (.ofPieces [⟨#[1]⟩, ⟨#[2, 3]⟩] none))
      (fresh "files" true Timestamp.epoch) := by
    refine ⟨by decide, ?_⟩
    have hnone := contentAt_fresh sampleVolume true Timestamp.epoch "/f"
    exact Nat.le_trans (Nat.le_of_eq (congrArg List.length hnone)) (Nat.zero_le _)
  obtain ⟨t, hrun, -, hfile⟩ := write_runOn (ready_fresh sampleVolume true Timestamp.epoch) (by decide)
    (writable_fresh sampleVolume true Timestamp.epoch "/f") rfl hfits.1
  obtain ⟨o, ho, hmanifest⟩ := hfile.object
  rw [hname] at ho hmanifest
  have hreached : sampleVolume.Run Operation.anyButDelete (Operation.Fits sampleVolume)
      (fresh "files" true Timestamp.epoch) t :=
    .step (.start _) hfits ⟨_, outcome_mono (fun _ h => h.elim) (outcome_never_iff.2 hrun)⟩
  refine ⟨t, o, hreached, ho, hmanifest, ?_⟩
  exact regular_of_run (outcome_never_iff.2 create_sampleVolume) hreached ho hmanifest

end SegmentedFiles.Volume

import SegmentedFiles.Proofs.Volume.Isolation

/-! # Paths that are refused

A write into a directory is refused, and so is whatever would leave a file below a file. The directories
above a path are made the nearest first, so when a file is met those that are nearer have been made
already (`makeParents_refuses`). The store is what it was exactly where none of them was missing
(`refused_unchanged_iff`). -/

namespace SegmentedFiles.Volume

open Interaction (Outcome)
open MemoryStore (answer SameBut At)
open VolumeAction

variable {v : Volume} {m t u : MemoryStore} {path dir name : String} {dirs : List String} {o : StoredObject}
  {fails : StoreCall → Prop} {operation : Operation}

/-! ## Operations that refuse no path -/

/-- Whatever the store answers, no error of the operation is that a path is invalid. -/
def Accepting {α : Type} (x : VolumeAction α) : Prop :=
  ∀ answers (s : MemoryStore),
    Ensures answers x s (fun _ _ => True) fun e _ => ∀ path, e ≠ .invalidPath path

section Accepting

variable {α β : Type} {call : StoreCall}

/-- The errors of calls are others. -/
theorem ofStore_ne_invalidPath (path : String) (error : StoreError) (other : String) :
    VolumeError.ofStore path error ≠ .invalidPath other := by
  unfold VolumeError.ofStore
  split
  · exact VolumeError.noConfusion
  · exact VolumeError.noConfusion

theorem accepting_pure (a : α) : Accepting (pure a : VolumeAction α) :=
  fun _ _ => ensures_pure trivial

theorem accepting_throw (path : String) (error : StoreError) :
    Accepting (throw (.ofStore path error) : VolumeAction α) :=
  fun _ _ => ensures_throw (ofStore_ne_invalidPath path error)

theorem accepting_at (path : String) : Accepting (call.at path) := by
  intro answers s
  refine ensures_at fun reply t _ => ?_
  cases reply with
  | ok a => trivial
  | error e => exact ofStore_ne_invalidPath path e

theorem accepting_try : Accepting call.try :=
  fun _ _ => ensures_try fun _ _ _ => trivial

theorem Accepting.bind {x : VolumeAction β} {f : β → VolumeAction α} (hx : Accepting x)
    (hf : ∀ b, Accepting (f b)) : Accepting (x >>= f) :=
  fun answers s => (hx answers s).bind fun b t _ => hf b answers t

theorem accepting_forIn {xs : List β} {body : β → VolumeAction PUnit} (h : ∀ x, Accepting (body x)) :
    Accepting (forIn xs PUnit.unit fun x _ => do
      body x
      pure (ForInStep.yield PUnit.unit)) :=
  fun answers _ => ensures_forIn (fun _ _ => True) trivial fun x _ t _ => (h x answers t).yield

theorem accepting_deleteQuietly (container name path : String) :
    Accepting (deleteQuietly container name path) := by
  refine accepting_try.bind fun reply => ?_
  split
  · exact accepting_pure _
  · exact accepting_pure _
  · exact accepting_throw _ _

theorem accepting_removeSegments (path : String) (ref : ManifestRef) :
    Accepting (removeSegments path ref) := by
  refine accepting_try.bind fun reply => ?_
  split
  · exact accepting_pure _
  · exact accepting_throw _ _
  · exact (accepting_forIn fun info => accepting_deleteQuietly _ _ _).bind fun _ => accepting_pure _

theorem accepting_removeFound (path : String) (found : Option ManifestRef) :
    Accepting (removeFound path found) := by
  cases found with
  | none => exact accepting_pure _
  | some ref => exact accepting_removeSegments path ref

theorem accepting_manifestAt (v : Volume) (path name : String) : Accepting (v.manifestAt path name) := by
  refine accepting_try.bind fun reply => ?_
  split
  · exact accepting_pure _
  · exact accepting_pure _
  · exact accepting_throw _ _

theorem accepting_segments (v : Volume) (path name : String) : Accepting (v.segments path name) :=
  (accepting_at path).bind fun _ => accepting_pure _

theorem accepting_clearSegments (v : Volume) (path name : String) :
    Accepting (v.clearSegments path name) := by
  refine (accepting_segments v path name).bind fun entries => ?_
  exact (accepting_forIn fun entry => accepting_deleteQuietly _ _ _).bind fun _ => accepting_pure _

theorem accepting_putSegments (v : Volume) (path name : String) (sequence : Nat) (pieces : List Payload) :
    Accepting (v.putSegments path name sequence pieces) := by
  induction pieces generalizing sequence with
  | nil => exact accepting_pure _
  | cons piece rest ih => exact (accepting_at path).bind fun _ => ih (sequence + 1)

theorem accepting_convert (v : Volume) (path name : String) (size : Nat) :
    Accepting (v.convert path name size) := by
  have hrest : ∀ content : Payload, Accepting (v.keepInSegments path name content) := by
    intro content
    refine (accepting_clearSegments v path name).bind fun _ => ?_
    refine (accepting_putSegments v path name 1 _).bind fun _ => ?_
    exact (accepting_at path).bind fun _ => accepting_pure _
  rw [convert_eq]
  split
  · exact hrest _
  · exact (accepting_at path).bind hrest

theorem accepting_pad (v : Volume) (path name : String) (plan : WritePlan) :
    Accepting (v.pad path name plan) := by
  have hzeros : Accepting (v.putZeros path name plan.zeroSegments) :=
    (accepting_forIn fun s => accepting_at path).bind fun _ => accepting_pure _
  rw [pad_eq]
  split
  · next tail _ =>
    have hread : Accepting (v.readTail path name tail) := by
      unfold readTail
      split
      · exact accepting_pure _
      · exact accepting_at path
    have hfill : Accepting (v.fillTail path name tail) := hread.bind fun _ => accepting_at path
    exact hfill.bind fun _ => hzeros
  · exact hzeros

theorem accepting_segmentHead (v : Volume) (path segment : String) (retained zeroFill : Nat) :
    Accepting (v.segmentHead path segment retained zeroFill) := by
  unfold segmentHead
  dsimp only
  split
  · exact (accepting_pure _).bind fun _ => accepting_pure _
  · exact (accepting_at path).bind fun _ => accepting_pure _

theorem accepting_commitSegment (v : Volume) (path segment : String) (oldLength : Nat)
    (head data : Payload) (last commit : Bool) :
    Accepting (v.commitSegment path segment oldLength head data last commit) := by
  unfold commitSegment
  dsimp only
  split
  · split
    · exact (accepting_at path).bind fun _ => accepting_at path
    · exact (accepting_pure _).bind fun _ => accepting_at path
  · exact accepting_pure _

theorem accepting_writeFrom (v : Volume) (path name : String) (existing : Array Nat)
    (sequence retained zeroFill written : Nat) (source : Source)
    (answers : (call : StoreCall) → MemoryStore → call.Reply → MemoryStore → Prop) (s : MemoryStore) :
    Interaction.Ensures answers
      (v.writeFrom path name existing sequence retained zeroFill written source) s
      fun r _ => ∀ failure, r = .error failure → ∀ path, failure.source ≠ .invalidPath path := by
  induction hremaining : source.remaining using Nat.strongRecOn
    generalizing sequence retained zeroFill written source s with
  | _ remaining ih =>
    rw [writeFrom]
    refine Interaction.Ensures.bind (accepting_segmentHead v path _ _ _ answers s) ?_
    intro head t hhead
    split
    · refine Interaction.ensures_done ?_
      rintro _ ⟨⟩
      exact hhead
    dsimp only
    split
    · refine Interaction.ensures_done ?_
      rintro _ ⟨⟩ _
      exact VolumeError.noConfusion
    next data rest hread =>
    refine Interaction.Ensures.bind (accepting_commitSegment v path _ _ _ _ _ _ answers t) ?_
    intro committed u hcommit
    split
    · refine Interaction.ensures_done ?_
      rintro _ ⟨⟩
      exact hcommit
    split
    · refine Interaction.ensures_done ?_
      intro failure heq
      cases heq
    next hmore =>
    exact ih rest.remaining (hremaining ▸ Source.remaining_lt_of_read hread hmore) _ _ _ _ rest _ rfl

/-- Such an operation does not end in a refusal. -/
theorem Accepting.unless {x : VolumeAction α} (hx : Accepting x)
    {answers : (call : StoreCall) → MemoryStore → call.Reply → MemoryStore → Prop} {ok : α → MemoryStore → Prop}
    {fail : VolumeError → MemoryStore → Prop} {post : MemoryStore → Prop} (h : Ensures answers x m ok fail) :
    Ensures answers x m ok fun e t => e = .invalidPath path → post t := by
  intro r t hend
  have hother := hx answers m r t hend
  cases r with
  | ok a => exact h (.ok a) t hend
  | error e => exact fun heq => absurd heq (hother path)

theorem Accepting.ends {x : VolumeAction α} (hx : Accepting x)
    {answers : (call : StoreCall) → MemoryStore → call.Reply → MemoryStore → Prop}
    {post : MemoryStore → Prop} :
    Ensures answers x m (fun _ _ => True) fun e t => e = .invalidPath path → post t :=
  hx.unless (hx answers m)

end Accepting

/-! ## The directories above a path -/

/-- There is a file at a path. -/
def fileAt (v : Volume) (m : MemoryStore) (path : String) : Bool :=
  match m.object? v.container (v.storeName path) with
  | some object => object.contentType != directoryType
  | none => false

/-- The paths above `path` that are nearer to it than the nearest file above it. -/
def nearer (v : Volume) (m : MemoryStore) (path : String) : List String :=
  (Path.ancestors path).takeWhile fun dir => !v.fileAt m dir

/-- From `m` to `t` markers are made at those of `dirs` where there was nothing, and nothing else is
changed. -/
structure Made (v : Volume) (dirs : List String) (m t : MemoryStore) : Prop where
  marker : ∀ dir ∈ dirs, m.object? v.container (v.storeName dir) = none →
    ∃ o, t.object? v.container (v.storeName dir) = some o ∧ o.IsMarker
  same : SameBut (fun c n => m.object? c n = none ∧ ∃ dir ∈ dirs, At v.container (v.storeName dir) c n) m t

namespace Made

theorem nil (v : Volume) (m : MemoryStore) : v.Made [] m m :=
  ⟨fun _ h => absurd h List.not_mem_nil, .refl _ m⟩

/-- What was there is as it was. -/
theorem object {c n : String} (h : v.Made dirs m t) (ho : m.object? c n = some o) :
    t.object? c n = some o := by
  refine (h.same c n fun hmade => ?_).trans ho
  rw [hmade.1] at ho
  cases ho

/-- What was not there before is a marker. -/
theorem isMarker (h : v.Made dirs m t) (hnone : m.object? v.container name = none)
    (ho : t.object? v.container name = some o) : o.IsMarker := by
  have hmade : ∃ dir ∈ dirs, name = v.storeName dir := by
    by_contra hnot
    have hsame : t.object? v.container name = m.object? v.container name :=
      h.same _ _ fun ⟨_, dir, hdir, hplace⟩ => hnot ⟨dir, hdir, hplace.2⟩
    rw [hsame, hnone] at ho
    cases ho
  obtain ⟨dir, hdir, rfl⟩ := hmade
  obtain ⟨o', ho', hmarker⟩ := h.marker dir hdir hnone
  exact Option.some.inj (ho.symm.trans ho') ▸ hmarker

/-- There is something at the next path. -/
theorem found (h : v.Made dirs m t) (ho : t.object? v.container (v.storeName dir) = some o) :
    v.Made (dirs ++ [dir]) m t := by
  refine ⟨fun other hother hnone => ?_, h.same.mono fun c n hmade => ?_⟩
  · rcases List.mem_append.1 hother with hother | hother
    · exact h.marker other hother hnone
    · obtain rfl := List.mem_singleton.1 hother
      exact ⟨o, ho, h.isMarker hnone ho⟩
  · obtain ⟨hnone, other, hother, hplace⟩ := hmade
    exact ⟨hnone, other, List.mem_append_left _ hother, hplace⟩

/-- There is nothing at the next path, and a marker is put there. -/
theorem put (h : v.Made dirs m t) (habsent : t.object? v.container (v.storeName dir) = none)
    (ho : u.object? v.container (v.storeName dir) = some o) (hmarker : o.IsMarker)
    (hsame : SameBut (At v.container (v.storeName dir)) t u) : v.Made (dirs ++ [dir]) m u := by
  refine ⟨fun other hother hnone => ?_, fun c n hnot => ?_⟩
  · by_cases hname : v.storeName other = v.storeName dir
    · rw [hname]
      exact ⟨o, ho, hmarker⟩
    · rcases List.mem_append.1 hother with hother | hother
      · obtain ⟨o', ho', hmarker'⟩ := h.marker other hother hnone
        exact ⟨o', (hsame _ _ fun hplace => hname hplace.2).trans ho', hmarker'⟩
      · exact absurd (congrArg v.storeName (List.mem_singleton.1 hother)) hname
  · have hold : t.object? c n = m.object? c n := h.same c n fun ⟨hnone, other, hother, hplace⟩ =>
      hnot ⟨hnone, other, List.mem_append_left _ hother, hplace⟩
    refine (hsame c n fun hplace => ?_).trans hold
    have hnone : m.object? c n = none := by rw [← hold, hplace.1, hplace.2, habsent]
    exact hnot ⟨hnone, dir, List.mem_append_right _ (List.mem_singleton_self dir), hplace⟩

end Made

/-- There is a file above `path`, and the directories nearer than the nearest one have been made where
they were missing. -/
structure Stopped (v : Volume) (path : String) (m t : MemoryStore) : Prop where
  file : ¬v.UnderDirectories m path
  made : v.Made (v.nearer m path) m t
  unchanged : v.HasDirectories m (v.nearer m path) → t = m

theorem fileAt_of_some (ho : m.object? v.container (v.storeName dir) = some o) :
    v.fileAt m dir = true ↔ o.contentType ≠ directoryType := by
  rw [fileAt, ho]
  exact bne_iff_ne

theorem fileAt_of_none (ho : m.object? v.container (v.storeName dir) = none) : v.fileAt m dir = false := by
  rw [fileAt, ho]

theorem nearer_eq {done rest : List String} (hsplit : Path.ancestors path = done ++ dir :: rest)
    (hdone : ∀ dir ∈ done, v.fileAt m dir = false) (hdir : v.fileAt m dir = true) :
    v.nearer m path = done := by
  rw [nearer, hsplit, List.takeWhile_append_of_pos, List.takeWhile_cons_of_neg, List.append_nil]
  · rw [hdir]
    exact Bool.false_ne_true
  · intro dir hmem
    rw [hdone dir hmem]
    rfl

theorem noFile_concat {done : List String} (hdone : ∀ dir ∈ done, v.fileAt m dir = false)
    (hdir : v.fileAt m dir = false) : ∀ dir' ∈ done ++ [dir], v.fileAt m dir' = false := by
  intro dir' hmem
  rcases List.mem_append.1 hmem with hmem | hmem
  · exact hdone dir' hmem
  · exact List.mem_singleton.1 hmem ▸ hdir

/-- Where there was something at all of these paths, there were directories. -/
theorem Stopped.eq_iff (h : v.Stopped path m t) : t = m ↔ v.HasDirectories m (v.nearer m path) := by
  refine ⟨fun heq dir hdir => ?_, h.unchanged⟩
  subst heq
  cases ho : t.object? v.container (v.storeName dir) with
  | none =>
    obtain ⟨o, ho', -⟩ := h.made.marker dir hdir ho
    rw [ho] at ho'
    cases ho'
  | some o =>
    have hfile : (!v.fileAt t dir) = true := List.all_eq_true.1 List.all_takeWhile dir hdir
    by_contra hnot
    have htype : o.contentType ≠ directoryType := fun htype => hnot ⟨o, rfl, htype⟩
    rw [(fileAt_of_some ho).2 htype] at hfile
    cases hfile

/-- The making of directories refuses a path where there is a file above it. -/
theorem makeParents_refuses (path : String) :
    Ensures (answer.mayFail fails) (v.makeParents path) m (fun _ _ => True) fun e t =>
      e = .invalidPath path → v.Stopped path m t := by
  have hother : ∀ {t dir e}, VolumeError.ofStore dir e = .invalidPath path → v.Stopped path m t :=
    fun heq => absurd heq (ofStore_ne_invalidPath _ _ path)
  refine ensures_makeParents (fun rest t => ∃ done, Path.ancestors path = done ++ rest ∧
    (∀ dir ∈ done, v.fileAt m dir = false) ∧ v.Made done m t ∧ (v.HasDirectories m done → t = m))
    ⟨[], rfl, fun _ h => absurd h List.not_mem_nil, .nil v m, fun _ => rfl⟩ (fun _ _ _ _ _ _ _ => hother)
    ?_ ?_ ?_ fun _ _ => trivial
  · intro dir rest t o ht ho htype _
    obtain ⟨done, hsplit, hfiles, hmade, hsame⟩ := ht
    -- It is no marker that has been made here, so it is a file that was there before.
    have hthere : m.object? v.container (v.storeName dir) = some o := by
      cases ho' : m.object? v.container (v.storeName dir) with
      | none => exact absurd (hmade.isMarker ho' ho).contentType htype
      | some o' => exact (hmade.object ho').symm.trans ho
    rw [← nearer_eq hsplit hfiles ((fileAt_of_some hthere).2 htype)] at hmade hsame
    have hmem : dir ∈ Path.ancestors path := by rw [hsplit]; simp
    exact ⟨fun hunder => htype (hunder dir hmem o hthere), hmade, hsame⟩
  · intro dir rest t o ht ho htype
    obtain ⟨done, hsplit, hfiles, hmade, hsame⟩ := ht
    refine ⟨done ++ [dir], hsplit.trans (List.append_cons ..), noFile_concat hfiles ?_, hmade.found ho,
      fun hall => ?_⟩
    · cases ho' : m.object? v.container (v.storeName dir) with
      | none => exact fileAt_of_none ho'
      | some o' =>
        obtain rfl := Option.some.inj ((hmade.object ho').symm.trans ho)
        rw [Bool.eq_false_iff, ne_eq, fileAt_of_some ho']
        exact not_not_intro htype
    · exact hsame fun dir' hdir' => hall dir' (List.mem_append_left _ hdir')
  · intro dir rest t ht ho
    obtain ⟨done, hsplit, hfiles, hmade, hsame⟩ := ht
    have hnone : m.object? v.container (v.storeName dir) = none := by
      cases ho' : m.object? v.container (v.storeName dir) with
      | none => rfl
      | some o' => exact absurd ((hmade.object ho').symm.trans ho) nofun
    refine ((accepting_at dir).unless MemoryStore.ensures_put_at).mono ?_ fun _ _ hu => hu
    intro _ u hu
    obtain ⟨hobject, hput⟩ := hu
    refine ⟨done ++ [dir], hsplit.trans (List.append_cons ..), noFile_concat hfiles (fileAt_of_none hnone),
      hmade.put ho hobject (isMarker_written t) hput, fun hall => ?_⟩
    obtain ⟨o, ho', -⟩ := hall dir (List.mem_append_right _ (List.mem_singleton_self dir))
    rw [hnone] at ho'
    cases ho'

/-! ## Operations -/

/-- There is a directory at a path, and no segments are read there. -/
def DirectoryAt (v : Volume) (m : MemoryStore) (path : String) : Prop :=
  ∃ o, m.object? v.container (v.storeName path) = some o ∧ o.manifest = none ∧ o.contentType = directoryType

/-- A write stops at a directory that it would write into, and then nothing has changed, or below a
file. -/
theorem prepare_refuses (path : String) :
    Ensures (answer.mayFail fails) (v.prepare path) m (fun _ _ => True) fun e t =>
      e = .invalidPath path → v.DirectoryAt m path ∧ t = m ∨ ¬v.DirectoryAt m path ∧ v.Stopped path m t := by
  have hcall : ∀ {t e}, VolumeError.ofStore path e = .invalidPath path →
      v.DirectoryAt m path ∧ t = m ∨ ¬v.DirectoryAt m path ∧ v.Stopped path m t :=
    fun heq => absurd heq (ofStore_ne_invalidPath _ _ path)
  cases ho : m.object? v.container (v.storeName path) with
  | none =>
    have hnot : ¬v.DirectoryAt m path := by
      intro h
      obtain ⟨o, ho', -⟩ := h
      rw [ho] at ho'
      cases ho'
    refine ensures_prepare_of_none (fun _ _ => hcall) ho ?_
    refine (makeParents_refuses path).bind_mono (fun _ _ h heq => .inr ⟨hnot, h heq⟩) ?_
    intro _ t _
    exact ((accepting_clearSegments v path _).bind fun _ => accepting_at path).ends
  | some o =>
    refine ensures_prepare_of_some (fun _ _ => hcall) ho (fun _ => ?_) ?_ fun _ _ => ?_
    · exact ((accepting_segments v path _).bind fun _ => accepting_pure _).ends
    · intro hmanifest htype _
      exact .inl ⟨⟨o, ho, hmanifest, htype⟩, rfl⟩
    · exact (accepting_convert v path _ _).ends

theorem write_refuses (hpath : Path.isBelowRoot path = true) (offset : Nat) (source : Source) :
    Interaction.Ensures (answer.mayFail fails) (v.write path offset source) m fun r t =>
      ∀ written, r = .error ⟨written, .invalidPath path⟩ →
        v.DirectoryAt m path ∧ t = m ∨ ¬v.DirectoryAt m path ∧ v.Stopped path m t := by
  have hbegin : Ensures (answer.mayFail fails) (v.beginWrite path offset) m (fun _ _ => True) fun e t =>
      e = .invalidPath path → v.DirectoryAt m path ∧ t = m ∨ ¬v.DirectoryAt m path ∧ v.Stopped path m t := by
    refine ensures_beginWrite (fun hinvalid => ?_) (fun _ => prepare_refuses path) fun _ _ _ _ => ?_
    · rw [hpath] at hinvalid
      cases hinvalid
    · exact (accepting_pad v path _ _).ends
  refine ensures_write (hbegin.mono (fun _ _ h => h) fun e t ht written heq => ?_) fun plan lengths t _ => ?_
  · exact ht (WriteFailure.mk.inj (Except.error.inj heq)).2
  · refine Interaction.Ensures.mono (accepting_writeFrom v path _ _ _ _ _ _ source _ t) ?_
    intro r u hother written heq
    exact absurd rfl (hother _ heq path)

theorem writeAll_refuses (hpath : Path.isBelowRoot path = true) (content : Payload) :
    Ensures (answer.mayFail fails) (v.writeAll path content) m (fun _ _ => True) fun e t =>
      e = .invalidPath path → v.Stopped path m t := by
  refine ensures_writeAll (fun hinvalid => ?_) fun _ => ?_
  · rw [hpath] at hinvalid
    cases hinvalid
  refine (makeParents_refuses path).bind fun _ t _ => Accepting.ends ?_
  refine (accepting_manifestAt v path _).bind fun found => ?_
  exact (accepting_at path).bind fun _ => accepting_removeFound path found

theorem move_refuses {target : String} (htarget : Path.isBelowRoot target = true) (source : String) :
    Ensures (answer.mayFail fails) (v.move source target) m (fun _ _ => True) fun e t =>
      e = .invalidPath target → v.Stopped target m t := by
  refine ensures_move (fun hinvalid heq => ?_) (fun hinvalid => ?_)
    (fun _ heq => absurd heq (ofStore_ne_invalidPath _ _ target)) (fun _ _ _ => trivial) fun _ _ _ o _ => ?_
  · rw [VolumeError.invalidPath.inj heq, htarget] at hinvalid
    cases hinvalid
  · rw [htarget] at hinvalid
    cases hinvalid
  refine (makeParents_refuses target).bind fun _ u _ => Accepting.ends ?_
  refine (accepting_manifestAt v target _).bind fun replaced => ?_
  refine (accepting_at source).bind fun _ => (accepting_at source).bind fun _ => ?_
  exact (accepting_removeFound source o.manifest).bind fun _ => accepting_removeFound target replaced

/-- The operation is a write, and its file is a directory. -/
def Operation.IntoDirectory (v : Volume) (m : MemoryStore) : Operation → Prop
  | .write path _ _ => v.DirectoryAt m path
  | _ => False

/-- The operation may end in `t` with the error that the path at which it leaves a file is invalid. -/
def Operation.Refused (v : Volume) (fails : StoreCall → Prop) (m t : MemoryStore) : Operation → Prop
  | .write path offset source => ∃ written,
    Outcome (answer.mayFail fails) (v.write path offset source) m (.error ⟨written, .invalidPath path⟩) t
  | .writeAll path content =>
    Outcome (answer.mayFail fails) (v.writeAll path content).run m (.error (.invalidPath path)) t
  | .move source target =>
    Outcome (answer.mayFail fails) (v.move source target).run m (.error (.invalidPath target)) t
  | .remove _ => False

theorem Operation.Refused.reason (hpath : Path.isBelowRoot operation.target = true)
    (h : operation.Refused v fails m t) :
    operation.IntoDirectory v m ∧ t = m ∨
      ¬operation.IntoDirectory v m ∧ v.Stopped operation.target m t := by
  cases operation with
  | write path offset source =>
    obtain ⟨written, hend⟩ := h
    exact write_refuses hpath offset source _ t hend written rfl
  | writeAll path content => exact .inr ⟨id, writeAll_refuses hpath content _ t h rfl⟩
  | move source target => exact .inr ⟨id, move_refuses hpath source _ t h rfl⟩
  | remove path => exact h.elim

/-- An operation refuses a valid path because it would write into a directory, and nothing has changed
then, or because a file is above the path. In that case markers are made, where there was nothing, at the
paths that are nearer than the nearest file above it, and nothing else is changed: the store is as it was
exactly if there were directories at all of these. -/
theorem refused_unchanged_iff (hpath : Path.isBelowRoot operation.target = true)
    (h : operation.Refused v fails m t) :
    (operation.IntoDirectory v m ∧ t = m ∨
      ¬v.UnderDirectories m operation.target ∧ v.Made (v.nearer m operation.target) m t) ∧
    (t = m ↔ operation.IntoDirectory v m ∨ v.HasDirectories m (v.nearer m operation.target)) := by
  rcases h.reason hpath with ⟨hinto, rfl⟩ | ⟨hnot, hstopped⟩
  · exact ⟨.inl ⟨hinto, rfl⟩, fun _ => .inl hinto, fun _ => rfl⟩
  · exact ⟨.inr ⟨hstopped.file, hstopped.made⟩, hstopped.eq_iff.trans (or_iff_right hnot).symm⟩

/-- A file is stored at a path that lies two names below a file. -/
theorem refused_unchanged_iff_of_writeAll :
    ∃ t, (Operation.writeAll "/f/a/b" ⟨#[1]⟩).Refused sampleVolume never sampleStore t ∧
      sampleVolume.Made ["/f/a"] sampleStore t ∧
      (t = sampleStore ↔ sampleVolume.HasDirectories sampleStore ["/f/a"]) := by
  have hnearer : sampleVolume.nearer sampleStore "/f/a/b" = ["/f/a"] := by rfl
  have hrefused : (Operation.writeAll "/f/a/b" ⟨#[1]⟩).Refused sampleVolume never sampleStore _ :=
    outcome_never_iff.2 rfl
  obtain ⟨hreason, hunchanged⟩ := refused_unchanged_iff (by decide) hrefused
  rw [Operation.target, hnearer] at hreason hunchanged
  refine ⟨_, hrefused, (hreason.resolve_left fun hinto => hinto.1).2, hunchanged.trans ?_⟩
  exact or_iff_right id

/-- The file is the one at the top, and the directory below it is made before it is met. -/
theorem writeAll_below_file :
    ∃ t o, (sampleVolume.writeAll "/f/a/b" ⟨#[1]⟩).runOn answer sampleStore
        = (.error (.invalidPath "/f/a/b"), t) ∧
      "/f" ∈ Path.ancestors "/f/a/b" ∧ sampleVolume.fileAt sampleStore "/f" = true ∧
      sampleStore.object? "files" "f/a" = none ∧ t.object? "files" "f/a" = some o ∧ o.IsMarker ∧
      t ≠ sampleStore := by
  refine ⟨_, _, rfl, by decide, by rfl, by rfl, by rfl, ⟨⟨rfl, rfl⟩, rfl⟩, fun heq => ?_⟩
  have hsame := congrArg (fun m : MemoryStore => (m.object? "files" "f/a").isSome) heq
  exact absurd hsame (by decide)

end SegmentedFiles.Volume

import SegmentedFiles.Proofs.Local.Refine

/-! # What is on disk after any calls

Calls with any names, accepted or not, keep a store on disk in step (`InStep.answer`). So at any time its table
accounts for all that is on disk (`Accounted`): the directories of the containers, a file for each row, and the
directories that lead to these files. This needs that no two objects share a file and that the system
does not fail (`accounted_after`). -/

namespace SegmentedFiles.LocalStore

open Local

variable {s t : LocalStore} {c n : String}

/-! ## One call -/

/-- A call has led from a store to another that is in step. The containers are those from before and the one
that was to be made, if a container may be called so. -/
structure Advances (s : LocalStore) (call : StoreCall) (t : LocalStore) : Prop where
  inStep : t.InStep
  containers : ∀ c, c ∈ t.containers ↔
    c ∈ s.containers ∨ call.created? = some c ∧ isContainerName c = true
  holds : ∀ c n, t.Holds c n → s.Holds c n ∨ call.written? = some ⟨c, n⟩

theorem checkContainer_cases (s : LocalStore) (c : String) :
    (∃ e, s.checkContainer c = .error e) ∨
      s.checkContainer c = .ok () ∧ isContainerName c = true ∧ c ∈ s.containers := by
  cases hc : isContainerName c with
  | false => exact .inl ⟨.invalidName c, by rw [checkContainer, hc]; rfl⟩
  | true =>
    by_cases hmem : c ∈ s.containers
    · exact .inr ⟨checkContainer_of_mem hc hmem, rfl, hmem⟩
    · exact .inl ⟨.notFound, checkContainer_of_not_mem hc hmem⟩

namespace InStep

/-- A call that makes no container and leaves the store as it is. -/
theorem stays (h : s.InStep) {call : StoreCall} (hcall : call.created? = none) : s.Advances call s :=
  ⟨h, fun c => by rw [hcall]; simp, fun _ _ => .inl⟩

/-- Writing an object under any names keeps a store in step. -/
theorem insert_advances (h : s.InStep) {call : StoreCall} (hcall : call.created? = none)
    (hwritten : call.written? = some ⟨c, n⟩) (content : Payload) (options : PutOptions)
    (hfree : ∀ c' n', s.Holds c' n' → payloadPath c' n' = payloadPath c n → c' = c ∧ n' = n) :
    s.Advances call (s.insert c n content options).2 := by
  cases hn : isObjectName n with
  | false =>
    rw [LocalStore.insert, hn]
    exact h.stays hcall
  | true =>
    rcases checkContainer_cases s c with ⟨e, he⟩ | ⟨-, hc, hmem⟩
    · rw [LocalStore.insert, hn]
      simp only [he]
      exact h.stays hcall
    · obtain ⟨t, ht, hstep, hchanges, -⟩ : ∃ t, s.insert c n content options = (.ok (), t) ∧ t.InStep ∧
          s.Changes t c n (some (s.written c n content options)) ∧ _ := h.insert options hn hc hmem hfree
      rw [ht]
      refine ⟨hstep, fun c' => ?_, fun c' n' h' => ?_⟩
      · rw [hchanges.containers, hcall]
        simp
      · rcases hchanges.holds_some.1 h' with ⟨rfl, rfl⟩ | h'
        · exact .inr hwritten
        · exact .inl h'

theorem erase_advances (h : s.InStep) {call : StoreCall} (hcall : call.created? = none) (c n : String) :
    s.Advances call (s.erase c n).2 := by
  by_cases hholds : s.Holds c n
  · obtain ⟨t, ht, hstep, hchanges⟩ := h.erase hholds
    rw [ht]
    refine ⟨hstep, fun c' => ?_, fun c' n' h' => .inl (hchanges.holds_none.1 h').1⟩
    rw [hchanges.containers, hcall]
    simp
  · rw [erase_of_not_holds hholds]
    exact h.stays hcall

theorem eraseAll_advances (h : s.InStep) {call : StoreCall} (hcall : call.created? = none)
    (targets : List ObjectTarget) (summary : BulkDeleteSummary) :
    s.Advances call (s.eraseAll targets summary).2 := by
  induction targets generalizing s summary with
  | nil => exact h.stays hcall
  | cons target rest ih =>
    have hfirst := h.erase_advances hcall target.container target.name
    have hnext : ∀ summary, s.Advances call
        ((s.erase target.container target.name).2.eraseAll rest summary).2 := by
      intro summary
      have hrest := ih hfirst.inStep summary
      refine ⟨hrest.inStep, fun c => ?_, fun c n h' => ?_⟩
      · rw [hrest.containers, hfirst.containers]
        simp [hcall]
      · exact (hrest.holds c n h').elim (hfirst.holds c n) .inr
    rw [LocalStore.eraseAll]
    split
    · next heq => simpa only [heq] using hnext _
    · next heq => simpa only [heq] using hnext _
    · next heq => simpa only [heq] using hnext _

/-- Every call keeps a store in step, if no file is shared with the object it writes and the system does not
fail. -/
theorem answer (h : s.InStep) (call : StoreCall)
    (hfree : ∀ target, call.written? = some target → ∀ c n, s.Holds c n →
      payloadPath c n = payloadPath target.container target.name →
        c = target.container ∧ n = target.name)
    (hio : ∀ failure, (LocalStore.answer call s).1 ≠ .error (.io failure)) :
    s.Advances call (LocalStore.answer call s).2 := by
  cases call with
  | createContainer c =>
    cases hc : isContainerName c with
    | false =>
      simp only [LocalStore.answer, LocalStore.createContainer, hc]
      refine ⟨h, fun c' => ⟨.inl, fun h' => h'.resolve_right ?_⟩, fun _ _ => .inl⟩
      rintro ⟨heq, hc'⟩
      rw [StoreCall.created?_eq_some_iff, StoreCall.createContainer.injEq] at heq
      rw [heq, hc'] at hc
      cases hc
    | true =>
      have hshort : c.utf8ByteSize ≤ Disk.maxNameSize := by
        by_contra hlong
        exact hio (.disk .nameTooLong)
          (congrArg Prod.fst (createContainer_of_long hc (Nat.lt_of_not_le hlong)))
      obtain ⟨t, ht, hstep, hcontainers, hrow, -⟩ := h.createContainer hc hshort
      rw [LocalStore.answer, ht]
      refine ⟨hstep, fun c' => ?_, fun c' n' h' => ?_⟩
      · rw [hcontainers, or_comm, StoreCall.created?_eq_some_iff, StoreCall.createContainer.injEq]
        refine or_congr_right ⟨fun heq => ⟨heq.symm, heq ▸ hc⟩, fun h' => h'.1.symm⟩
      · rw [Holds, hrow] at h'
        exact .inl h'
  | put c n body options => exact h.insert_advances rfl rfl body options (hfree ⟨c, n⟩ rfl)
  | copy source target =>
    simp only [LocalStore.answer]
    split
    · exact h.stays rfl
    · split
      · exact h.stays rfl
      · exact h.insert_advances rfl rfl _ _ (hfree target rfl)
  | delete c n => exact h.erase_advances rfl c n
  | bulkDelete targets => exact h.eraseAll_advances rfl targets _
  | head c n => exact h.stays rfl
  | get c n range => exact h.stays rfl
  | openFrom c n offset => exact h.stays rfl
  | list c options => exact h.stays rfl
  | capabilities => exact h.stays rfl

theorem atTime (h : s.InStep) (now : Timestamp) : (s.atTime now).InStep :=
  ⟨h.short, h.row, h.file, h.directory_iff, h.apart⟩

/-- Calls made one after another keep a store in step. -/
theorem after (h : s.InStep) {texts : List String} (hfree : Md5.CollisionFree texts)
    (hheld : ∀ c n, s.Holds c n → ObjectTarget.text ⟨c, n⟩ ∈ texts)
    {calls : List (StoreCall × Timestamp)}
    (htexts : ∀ call ∈ calls, ∀ target ∈ call.1.written?, target.text ∈ texts)
    (hio : ∀ reply ∈ Store.replies LocalStore.answer LocalStore.atTime calls s, ∀ failure,
      reply.2 ≠ .error (.io failure)) :
    (Store.after LocalStore.answer LocalStore.atTime calls s).InStep ∧
      ∀ c, c ∈ (Store.after LocalStore.answer LocalStore.atTime calls s).containers ↔
        c ∈ s.containers ∨ isContainerName c = true ∧ .createContainer c ∈ calls.map Prod.fst := by
  induction calls generalizing s with
  | nil => exact ⟨h, fun c => by simp [Store.after]⟩
  | cons first rest ih =>
    obtain ⟨call, now⟩ := first
    have hstep := (h.atTime now).answer call
      (fun target htarget c n hholds => payloadPath_ne hfree (hheld c n hholds)
        (htexts _ List.mem_cons_self target htarget))
      (hio _ List.mem_cons_self)
    have hheld' : ∀ c n, (LocalStore.answer call (s.atTime now)).2.Holds c n →
        ObjectTarget.text ⟨c, n⟩ ∈ texts := by
      intro c n hholds
      rcases hstep.holds c n hholds with hholds | hwritten
      · exact hheld c n hholds
      · exact htexts _ List.mem_cons_self _ hwritten
    obtain ⟨hend, hcontainers⟩ := ih hstep.inStep hheld'
      (fun call hcall => htexts call (List.mem_cons_of_mem _ hcall))
      fun reply hreply => hio reply (List.mem_cons_of_mem _ hreply)
    refine ⟨hend, fun c => ?_⟩
    rw [Store.after, hcontainers, hstep.containers, or_assoc, StoreCall.created?_eq_some_iff, List.map_cons,
      List.mem_cons, and_or_left, and_comm (a := call = _), eq_comm (a := call)]
    rfl

end InStep

/-! ## All that is on disk -/

/-- Where the content of an object is. The two directories below that of the container are called after the first
two bytes of the digest, and the file after all of it. -/
def digestPath (container name : String) : List String :=
  let digest := Md5.digest (container ++ "/" ++ name).toUTF8
  [container, Hex.encode (digest.extract 0 1), Hex.encode (digest.extract 1 2), Hex.encode digest]

theorem payloadPath_eq (c n : String) : payloadPath c n = digestPath c n := by
  have hsize := Md5.size_digest (c ++ "/" ++ n).toUTF8
  have hdigits : digest c n = (Md5.digest (c ++ "/" ++ n).toUTF8).data.toList.flatMap Hex.ofByte :=
    String.toList_ofList
  rw [digestPath, payloadPath, payloadDirectory, containerPath, shards]
  simp only [Hex.encode, hdigits, ByteArray.data_extract, Array.toList_extract]
  rw [← ByteArray.size_data, ← Array.length_toList] at hsize
  generalize (Md5.digest (c ++ "/" ++ n).toUTF8).data.toList = bytes at hsize ⊢
  cases bytes with
  | nil => cases hsize
  | cons first rest =>
    cases rest with
    | nil => cases hsize
    | cons second rest => rfl

/-- The table accounts for all that is on disk. -/
structure Accounted (s : LocalStore) : Prop where
  /-- Right below the root there are the directories of the containers. -/
  top : ∀ name entry, s.disk.entry? [name] = some entry ↔ name ∈ s.containers ∧ entry = .directory
  /-- All else is below these. -/
  within : ∀ path entry, path ≠ [] → s.disk.entry? path = some entry → ∃ c ∈ s.containers, [c] <+: path
  /-- Each row has its file, of the size and with the digest that the row tells. -/
  row : ∀ c n r, s.row? c n = some r → ∃ content,
    s.disk.entry? (digestPath c n) = some (.file content) ∧ r.Describes c n content
  /-- Each file is that of one row. -/
  file : ∀ path content, s.disk.entry? path = some (.file content) →
    ∃ c n, s.Holds c n ∧ path = digestPath c n ∧
      ∀ c' n', s.Holds c' n' → path = digestPath c' n' → c' = c ∧ n' = n
  /-- Below that of a container each directory leads to a file, so none is empty. -/
  directory : ∀ path, 1 < path.length → s.disk.entry? path = some .directory →
    ∃ c n content, path <+: digestPath c n ∧ s.disk.entry? (digestPath c n) = some (.file content)
  /-- Nothing is left of a draft. -/
  draft : ∀ c n, s.disk.entry? (draftPath c n) = none

theorem InStep.accounted (h : s.InStep) : s.Accounted := by
  have hwithin : ∀ path entry, path ≠ [] → s.disk.entry? path = some entry →
      ∃ c ∈ s.containers, [c] <+: path := by
    intro path entry hpath hentry
    cases entry with
    | directory =>
      rcases (h.directory_iff path).1 hentry with hnil | ⟨c, hc, rfl⟩ | ⟨c, n, hholds, hleads⟩
      · exact absurd hnil hpath
      · exact ⟨c, hc, List.prefix_rfl⟩
      · refine ⟨c, hholds.mem_containers, ?_⟩
        obtain ⟨first, rest, rfl⟩ := List.exists_cons_of_ne_nil hpath
        obtain ⟨rfl, -⟩ := List.cons_prefix_cons.1 hleads
        exact List.cons_prefix_cons.2 ⟨rfl, List.nil_prefix⟩
    | file content =>
      obtain ⟨c, n, hholds, rfl⟩ := h.file path content hentry
      exact ⟨c, hholds.mem_containers, List.cons_prefix_cons.2 ⟨rfl, List.nil_prefix⟩⟩
  refine ⟨fun name entry => ⟨fun hentry => ?_, fun hcontainer => ?_⟩, hwithin, fun c n r hr => ?_,
    fun path content hfile => ?_, fun path hlong hpath => ?_, h.entry?_draftPath⟩
  · obtain ⟨c, hc, hprefix⟩ := hwithin [name] entry (List.cons_ne_nil _ _) hentry
    obtain ⟨rfl, -⟩ := List.cons_prefix_cons.1 hprefix
    refine ⟨hc, ?_⟩
    cases entry with
    | directory => rfl
    | file content => exact absurd hentry (h.no_file (show 1 ≤ 3 by decide))
  · obtain ⟨hc, rfl⟩ := hcontainer
    exact (h.directory_iff _).2 (.inr (.inl ⟨name, hc, rfl⟩))
  · rw [← payloadPath_eq]
    exact h.row c n r hr
  · obtain ⟨c, n, hholds, rfl⟩ := h.file path content hfile
    refine ⟨c, n, hholds, payloadPath_eq c n, fun c' n' hholds' heq => ?_⟩
    rw [← payloadPath_eq] at heq
    exact h.apart c' n' c n hholds' hholds heq.symm
  · rcases (h.directory_iff path).1 hpath with rfl | ⟨c, -, rfl⟩ | ⟨c, n, hholds, hleads⟩
    · exact absurd hlong (Nat.not_lt_zero 1)
    · exact absurd hlong (Nat.lt_irrefl 1)
    · obtain ⟨content, hfile⟩ := h.file_of_holds hholds
      rw [payloadPath_eq] at hfile
      refine ⟨c, n, content, ?_, hfile⟩
      rw [← payloadPath_eq, prefix_payloadPath_iff]
      exact .inr hleads

/-- **After any calls the table of a store accounts for all that is on disk.** The store starts empty, and the calls
have any names. The places that are written to have different digests, and no reply is a failure of the system.
The containers are those that were to be made and may be called so. -/
theorem accounted_after (now : Timestamp) {calls : List (StoreCall × Timestamp)}
    (hfree : Md5.CollisionFree (writtenTexts calls))
    (hio : ∀ reply ∈ Store.replies answer atTime calls (empty now), ∀ failure,
      reply.2 ≠ .error (.io failure)) :
    (Store.after answer atTime calls (empty now)).Accounted ∧
      ∀ c, c ∈ (Store.after answer atTime calls (empty now)).containers ↔
        isContainerName c = true ∧ .createContainer c ∈ calls.map Prod.fst := by
  obtain ⟨hend, hcontainers⟩ := (InStep.empty now).after hfree
    (fun c n h => absurd h (not_holds_empty now c n))
    (fun call hcall target htarget => List.mem_map_of_mem (List.mem_filterMap.2 ⟨call, hcall, htarget⟩)) hio
  refine ⟨hend.accounted, fun c => ?_⟩
  have hnone : c ∉ (empty now).containers := Std.ExtTreeMap.not_mem_empty
  rw [hcontainers, or_iff_right hnone]

instance {α : Type} (reply : Except StoreError α) :
    Decidable (∀ failure, reply ≠ .error (.io failure)) :=
  match reply with
  | .ok _ => .isTrue nofun
  | .error e =>
    match e with
    | .io failure => .isFalse fun hne => hne failure rfl
    | .notFound | .rangeNotSatisfiable | .status _ _ | .auth _ | .invalidResponse _ | .invalidName _
    | .unsupported _ | .bulkDelete _ | .http _ => .isTrue nofun

/-- Calls with accepted and with rejected names. Some of them fail, and one object is left. -/
def mixedSession : List StoreCall :=
  [.createContainer "c", .createContainer ".c", .put "c" "a" (Payload.ofText "Hi") (.plain "text/plain"),
    .put "c" "" ByteArray.empty (.plain "text/plain"), .get "c" "a" (some (.onward 2)), .delete "c" "b"]

theorem accounted_after_mixedSession :
    (Store.after answer atTime (mixedSession.map (·, .epoch)) (empty .epoch)).Accounted ∧
      ∀ c, c ∈ (Store.after answer atTime (mixedSession.map (·, .epoch)) (empty .epoch)).containers ↔
        isContainerName c = true ∧ .createContainer c ∈ (mixedSession.map (·, Timestamp.epoch)).map Prod.fst :=
  accounted_after .epoch (by decide +kernel) (by decide +kernel)

end SegmentedFiles.LocalStore

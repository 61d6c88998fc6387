import SegmentedFiles.Proofs.Local.Mirror

/-! # A store on disk replies like one in memory

Each call keeps a store on disk that mirrors one in memory its mirror, and the replies are the same but for
times (`Mirrors.answer`). So two stores that start empty cannot be told apart by calls (`replies_eq_memory`), as long as
the names are accepted, no two objects share a file, and the system does not fail. It fails only at a container
whose name is too long for a directory (`replies_ne_io`). -/

namespace SegmentedFiles

open Local

/-- The call has the names that a store on disk accepts, and a manifest reference can be read back. -/
def StoreCall.Accepted (call : StoreCall) : Prop :=
  (∀ container ∈ call.containers, isContainerName container = true) ∧
    (∀ target ∈ call.written?, isObjectName target.name = true) ∧
      ∀ ref ∈ call.manifest?, ref.container ≠ "" ∧ '/' ∉ ref.container.toList

instance (call : StoreCall) : Decidable call.Accepted := by
  unfold StoreCall.Accepted
  infer_instance

namespace LocalStore

/-- A store whose clock shows this time. -/
def atTime (s : LocalStore) (now : Timestamp) : LocalStore := { s with now }

variable {s t : LocalStore} {m : MemoryStore} {c n : String} {o : StoredObject} {r : ObjectRecord}

namespace Mirrors

theorem empty (now now' : Timestamp) :
    (LocalStore.empty now).Mirrors (MemoryStore.empty true now') := by
  have hobject : ∀ c n, (MemoryStore.empty true now').object? c n = none := fun c n => by
    rw [MemoryStore.object?, MemoryStore.objects, MemoryStore.empty, Std.ExtTreeMap.getD_empty]
    exact Std.ExtTreeMap.getElem?_empty
  refine ⟨.empty now, fun c => ?_, fun c n => ?_, fun c n o ho => ?_, fun c n o ref ho => ?_, rfl, rfl, rfl⟩
  · exact iff_of_false Std.ExtTreeMap.not_mem_empty Std.ExtTreeMap.not_mem_empty
  · rw [row?_empty, hobject]
    rfl
  · exact absurd ((hobject c n).symm.trans ho) (Option.some_ne_none o).symm
  · exact absurd ((hobject c n).symm.trans ho) (Option.some_ne_none o).symm

theorem atTime (h : s.Mirrors m) (now now' : Timestamp) : (s.atTime now).Mirrors (m.atTime now') :=
  ⟨⟨h.inStep.short, h.inStep.row, h.inStep.file, h.inStep.directory_iff, h.inStep.apart⟩, h.containers,
    h.row, h.content, h.legible, h.bulkDelete, h.putBudget, h.bulkFault⟩

theorem bulkDeleteCalls (h : s.Mirrors m) (count : Nat) :
    s.Mirrors { m with bulkDeleteCalls := count } :=
  ⟨h.inStep, h.containers, h.row, h.content, h.legible, h.bulkDelete, h.putBudget, h.bulkFault⟩

/-! ## The two changes -/

theorem place (h : s.Mirrors m) (ht : t.InStep) (hchanges : s.Changes t c n (some r))
    (hmem : c ∈ s.containers) (hr : r.timeless = o.row c n)
    (hpayload : t.disk.entry? (payloadPath c n) = some (.file o.content))
    (hlegible : ∀ ref, o.manifest = some ref → ManifestRef.ofHeader? ref.header = some ref) :
    t.Mirrors (m.place c n o) := by
  refine ⟨ht, fun c' => ?_, fun c' n' => ?_, fun c' n' o' ho' => ?_, fun c' n' o' ref ho' => ?_,
    h.bulkDelete, h.putBudget, h.bulkFault⟩
  · rw [hchanges.containers, ← h.containers]
    exact mem_insert_of_mem ((h.containers c).2 hmem)
  · rw [hchanges.row?, MemoryStore.object?_place]
    split
    · next heq =>
      obtain ⟨rfl, rfl⟩ := heq
      exact congrArg some hr
    · exact h.row c' n'
  · rw [MemoryStore.object?_place] at ho'
    split at ho'
    · next heq =>
      obtain ⟨rfl, rfl⟩ := heq
      cases ho'
      exact hpayload
    · next hne =>
      rw [hchanges.payload c' n' (h.holds_iff.2 ⟨o', ho'⟩) hne]
      exact h.content c' n' o' ho'
  · rw [MemoryStore.object?_place] at ho'
    split at ho'
    · cases ho'
      exact hlegible ref
    · exact h.legible c' n' o' ref ho'

theorem vacate (h : s.Mirrors m) (ht : t.InStep) (hchanges : s.Changes t c n none)
    (hmem : c ∈ s.containers) : t.Mirrors (m.vacate c n) := by
  refine ⟨ht, fun c' => ?_, fun c' n' => ?_, fun c' n' o' ho' => ?_, fun c' n' o' ref ho' => ?_,
    h.bulkDelete, h.putBudget, h.bulkFault⟩
  · rw [hchanges.containers, ← h.containers]
    exact mem_insert_of_mem ((h.containers c).2 hmem)
  · rw [hchanges.row?, MemoryStore.object?_vacate]
    split
    · rfl
    · exact h.row c' n'
  · rw [MemoryStore.object?_vacate] at ho'
    split at ho'
    · cases ho'
    · next hne =>
      rw [hchanges.payload c' n' (h.holds_iff.2 ⟨o', ho'⟩) hne]
      exact h.content c' n' o' ho'
  · rw [MemoryStore.object?_vacate] at ho'
    split at ho'
    · cases ho'
    · exact h.legible c' n' o' ref ho'

end Mirrors

/-! ## One call -/

/-- What comes of a call on the one store follows what comes of it on the other. -/
structure Follows (s : LocalStore) (call : StoreCall) (made : call.Reply × LocalStore)
    (model : call.Reply × MemoryStore) : Prop where
  reply : call.timeless made.1 = call.timeless model.1
  mirrors : made.2.Mirrors model.2
  holds : ∀ c n, made.2.Holds c n → s.Holds c n ∨ call.written? = some ⟨c, n⟩

namespace Mirrors

theorem createContainer (h : s.Mirrors m) (hc : isContainerName c = true)
    (hshort : c.utf8ByteSize ≤ Disk.maxNameSize) :
    s.Follows (.createContainer c) (answer (.createContainer c) s)
      (MemoryStore.answer (.createContainer c) m) := by
  obtain ⟨t, ht, hstep, hcontainers, hrow, hpayload⟩ := h.inStep.createContainer hc hshort
  rw [answer, ht, MemoryStore.answer_createContainer]
  refine ⟨rfl, ⟨hstep, fun c' => ?_, fun c' n' => ?_, fun c' n' o' ho' => ?_, fun c' n' o' ref ho' => ?_,
    ?_, ?_, ?_⟩, fun c' n' h' => ?_⟩
  · rw [MemoryStore.mem_containers_withContainer, hcontainers, h.containers]
  · rw [hrow, MemoryStore.object?_withContainer]
    exact h.row c' n'
  · rw [MemoryStore.object?_withContainer] at ho'
    rw [hpayload]
    exact h.content c' n' o' ho'
  · rw [MemoryStore.object?_withContainer] at ho'
    exact h.legible c' n' o' ref ho'
  · rw [MemoryStore.bulkDelete_withContainer, h.bulkDelete]
  · rw [MemoryStore.putBudget_withContainer, h.putBudget]
  · rw [MemoryStore.bulkFault_withContainer, h.bulkFault]
  · rw [Holds, hrow] at h'
    exact .inl h'

/-- Writing an object follows the same write in memory. -/
theorem insert (h : s.Mirrors m) (content : Payload) (options : PutOptions) (hn : isObjectName n = true)
    (hc : isContainerName c = true)
    (hlegible : ∀ ref, options.manifest = some ref → ManifestRef.ofHeader? ref.header = some ref)
    (hfree : ∀ c' n', s.Holds c' n' → payloadPath c' n' = payloadPath c n → c' = c ∧ n' = n) :
    let made := s.insert c n content options
    let model := m.orUnchanged (m.insert c n content options)
    made.1 = model.1 ∧ made.2.Mirrors model.2 ∧
      ∀ c' n', made.2.Holds c' n' → s.Holds c' n' ∨ (⟨c, n⟩ : ObjectTarget) = ⟨c', n'⟩ := by
  by_cases hmem : c ∈ s.containers
  · obtain ⟨t, ht, hstep, hchanges, hpayload⟩ := h.inStep.insert options hn hc hmem hfree
    have hmodel : m.orUnchanged (m.insert c n content options)
        = (.ok (), m.place c n (m.written content options)) := by
      rw [MemoryStore.insert, MemoryStore.getElem?_containers ((h.containers c).2 hmem)]
      rfl
    rw [ht, hmodel]
    refine ⟨rfl, h.place hstep hchanges hmem rfl hpayload hlegible, fun c' n' h' => ?_⟩
    rcases hchanges.holds_some.1 h' with ⟨rfl, rfl⟩ | h'
    · exact .inr rfl
    · exact .inl h'
  · have hmodel : m.orUnchanged (m.insert c n content options) = (.error .notFound, m) := by
      rw [MemoryStore.insert, Std.ExtTreeMap.getElem?_eq_none (mt (h.containers c).1 hmem)]
      rfl
    have hmade : s.insert c n content options = (.error .notFound, s) := by
      rw [LocalStore.insert, hn, checkContainer_of_not_mem hc hmem]
      rfl
    rw [hmade, hmodel]
    exact ⟨rfl, h, fun _ _ => .inl⟩

/-- Deleting an object follows the same deletion in memory. -/
theorem erase (h : s.Mirrors m) (c n : String) :
    (∃ t u, s.erase c n = (.ok (), t) ∧ m.erase? c n = some u ∧ t.Mirrors u ∧
        ∀ c' n', t.Holds c' n' → s.Holds c' n') ∨
      s.erase c n = (.error .notFound, s) ∧ m.erase? c n = none := by
  cases ho : m.object? c n with
  | some o =>
    have hholds : s.Holds c n := h.holds_iff.2 ⟨o, ho⟩
    obtain ⟨t, ht, hstep, hchanges⟩ := h.inStep.erase hholds
    exact .inl ⟨t, m.vacate c n, ht, MemoryStore.erase?_of_some ho,
      h.vacate hstep hchanges hholds.mem_containers, fun c' n' h' => (hchanges.holds_none.1 h').1⟩
  | none =>
    refine .inr ⟨InStep.erase_of_not_holds fun h' => ?_, MemoryStore.erase?_of_none ho⟩
    obtain ⟨o, ho'⟩ := h.holds_iff.1 h'
    exact nomatch ho.symm.trans ho'

theorem eraseAll (h : s.Mirrors m) (targets : List ObjectTarget) (summary : BulkDeleteSummary) :
    (s.eraseAll targets summary).1 = (m.eraseAll targets summary).1 ∧
      (s.eraseAll targets summary).2.Mirrors (m.eraseAll targets summary).2 ∧
        ∀ c n, (s.eraseAll targets summary).2.Holds c n → s.Holds c n := by
  induction targets generalizing s m summary with
  | nil => exact ⟨rfl, h, fun _ _ => id⟩
  | cons target rest ih =>
    rw [LocalStore.eraseAll, MemoryStore.eraseAll]
    rcases h.erase target.container target.name with ⟨t, u, ht, hu, htu, hholds⟩ | ⟨ht, hu⟩
    · rw [ht, hu]
      obtain ⟨hsummary, hmirrors, hrest⟩ := ih htu { summary with deleted := summary.deleted + 1 }
      exact ⟨hsummary, hmirrors, fun c n h' => hholds c n (hrest c n h')⟩
    · rw [ht, hu]
      exact ih h { summary with notFound := summary.notFound + 1 }

/-- A call that leaves both stores as they are. -/
theorem reading (h : s.Mirrors m) {call : StoreCall} {reply reply' : call.Reply}
    (hreply : call.timeless reply = call.timeless reply') : s.Follows call (reply, s) (reply', m) :=
  ⟨hreply, h, fun _ _ => .inl⟩

/-- Every call on the store on disk follows the same call on the store in memory, if no file is shared with
the object it writes, and a container it makes can be a directory. -/
theorem answer (h : s.Mirrors m) (call : StoreCall) (haccepted : call.Accepted)
    (hfree : ∀ target, call.written? = some target → ∀ c n, s.Holds c n →
      payloadPath c n = payloadPath target.container target.name →
        c = target.container ∧ n = target.name)
    (hshort : ∀ c ∈ call.created?, c.utf8ByteSize ≤ Disk.maxNameSize) :
    s.Follows call (LocalStore.answer call s) (MemoryStore.answer call m) := by
  obtain ⟨hcontainers, hwritten, hmanifest⟩ := haccepted
  cases call with
  | createContainer c => exact h.createContainer (hcontainers c List.mem_cons_self) (hshort c rfl)
  | head c n => exact h.reading (h.head c n)
  | get c n range => exact h.reading (h.read c n range)
  | openFrom c n offset => exact h.reading (h.openFrom c n offset)
  | put c n body options =>
    have hlegible : ∀ ref, options.manifest = some ref → ManifestRef.ofHeader? ref.header = some ref := by
      intro ref href
      obtain ⟨hcontainer, hslash⟩ := hmanifest ref href
      exact ManifestRef.ofHeader?_header hcontainer hslash
    have htake : m.takePut = .ok m := by rw [MemoryStore.takePut, h.putBudget]
    obtain ⟨hreply, hmirrors, hholds⟩ := h.insert body options (hwritten ⟨c, n⟩ rfl)
      (hcontainers c List.mem_cons_self) hlegible (hfree ⟨c, n⟩ rfl)
    simp only [LocalStore.answer, MemoryStore.answer, htake]
    exact ⟨hreply, hmirrors, fun c' n' h' => (hholds c' n' h').imp_right (congrArg some)⟩
  | copy source target =>
    cases ho : m.object? source.container source.name with
    | none =>
      simp only [LocalStore.answer, record_of_none (h.row_of_none ho), MemoryStore.answer, ho,
        MemoryStore.orUnchanged]
      exact h.reading rfl
    | some o =>
      obtain ⟨r, hrow, hr⟩ := h.row_of_some ho
      have htype : r.contentType = o.contentType := congrArg ObjectRecord.contentType hr
      obtain ⟨hreply, hmirrors, hholds⟩ := h.insert (m.resolve o) (PutOptions.plain o.contentType)
        (hwritten target rfl) (hcontainers target.container (List.mem_cons_of_mem _ List.mem_cons_self))
        (fun ref href => absurd href.symm (Option.some_ne_none ref)) (hfree target rfl)
      simp only [LocalStore.answer, record_of_some hrow, h.resolve ho hr, htype, MemoryStore.answer, ho]
      exact ⟨hreply, hmirrors, fun c' n' h' => (hholds c' n' h').imp_right (congrArg some)⟩
  | delete c n =>
    simp only [LocalStore.answer, MemoryStore.answer]
    rcases h.erase c n with ⟨t, u, ht, hu, htu, hholds⟩ | ⟨ht, hu⟩
    · rw [ht, hu]
      exact ⟨rfl, htu, fun c' n' h' => .inl (hholds c' n' h')⟩
    · rw [ht, hu]
      exact h.reading rfl
  | bulkDelete targets =>
    obtain ⟨hsummary, hmirrors, hholds⟩ :=
      (h.bulkDeleteCalls (m.bulkDeleteCalls + 1)).eraseAll targets BulkDeleteSummary.empty
    simp only [h.bulkDelete, h.bulkFault] at hsummary hmirrors
    simp only [LocalStore.answer, MemoryStore.answer, MemoryStore.answerBulk, h.bulkDelete, h.bulkFault,
      if_true]
    exact ⟨congrArg Except.ok hsummary, hmirrors, fun c n h' => .inl (hholds c n h')⟩
  | list c options => exact h.reading (h.list (hcontainers c List.mem_cons_self) options)
  | capabilities =>
    refine h.reading ?_
    rw [h.bulkDelete]

/-! ## Calls made one after another -/

/-- Calls on stores that mirror each other have the same replies, but for times. -/
theorem replies (h : s.Mirrors m) {texts : List String} (hfree : Md5.CollisionFree texts)
    (hheld : ∀ c n, s.Holds c n → ObjectTarget.text ⟨c, n⟩ ∈ texts)
    {calls calls' : List (StoreCall × Timestamp)} (hsame : calls.map Prod.fst = calls'.map Prod.fst)
    (haccepted : ∀ call ∈ calls, call.1.Accepted)
    (htexts : ∀ call ∈ calls, ∀ target ∈ call.1.written?, target.text ∈ texts)
    (hshort : ∀ call ∈ calls, ∀ c ∈ call.1.created?, c.utf8ByteSize ≤ Disk.maxNameSize) :
    timelessReplies (Store.replies LocalStore.answer LocalStore.atTime calls s)
      = timelessReplies (Store.replies MemoryStore.answer MemoryStore.atTime calls' m) := by
  induction calls generalizing s m calls' with
  | nil =>
    obtain rfl := List.map_eq_nil_iff.1 hsame.symm
    rfl
  | cons first rest ih =>
    obtain ⟨first', rest', rfl, hfirst, hrest⟩ := List.map_eq_cons_iff.1 hsame.symm
    obtain ⟨call, now⟩ := first
    obtain ⟨call', now'⟩ := first'
    obtain rfl : call' = call := hfirst
    have hfollows := (h.atTime now now').answer call' (haccepted _ List.mem_cons_self)
      (fun target htarget c n hholds => payloadPath_ne hfree (hheld c n hholds)
        (htexts _ List.mem_cons_self target htarget))
      (hshort _ List.mem_cons_self)
    have hheld' : ∀ c n, (LocalStore.answer call' (s.atTime now)).2.Holds c n →
        ObjectTarget.text ⟨c, n⟩ ∈ texts := by
      intro c n hholds
      rcases hfollows.holds c n hholds with hholds | hwritten
      · exact hheld c n hholds
      · exact htexts _ List.mem_cons_self _ hwritten
    have hrest' := ih hfollows.mirrors hheld' hrest.symm
      (fun call hcall => haccepted call (List.mem_cons_of_mem _ hcall))
      (fun call hcall => htexts call (List.mem_cons_of_mem _ hcall))
      fun call hcall => hshort call (List.mem_cons_of_mem _ hcall)
    have hreply := hfollows.reply
    simp only [timelessReplies, Store.replies, List.map_cons] at hrest' ⊢
    rw [hrest', hreply]

end Mirrors

/-- Making a container whose name is too long for a directory fails. -/
theorem createContainer_of_long (hc : isContainerName c = true)
    (hlong : Disk.maxNameSize < c.utf8ByteSize) :
    s.createContainer c = (.error (.io (.disk .nameTooLong)), s) := by
  rw [LocalStore.createContainer, hc, containerPath, Disk.makeDirectories_of_long hlong]
  rfl

/-- The places that calls write to, as they are digested. -/
def writtenTexts (calls : List (StoreCall × Timestamp)) : List String :=
  (calls.filterMap fun call => call.1.written?).map ObjectTarget.text

/-- If no container is made whose name is too long for a directory, the system does not fail. -/
theorem replies_ne_io (now : Timestamp) {calls : List (StoreCall × Timestamp)}
    (haccepted : ∀ call ∈ calls, call.1.Accepted) (hfree : Md5.CollisionFree (writtenTexts calls))
    (hshort : ∀ call ∈ calls, ∀ c ∈ call.1.created?, c.utf8ByteSize ≤ Disk.maxNameSize) :
    ∀ reply ∈ Store.replies answer atTime calls (empty now), ∀ failure,
      reply.2 ≠ .error (.io failure) := by
  intro reply hreply failure hio
  have hsame := (Mirrors.empty now now).replies hfree (fun c n h => absurd h (not_holds_empty now c n)) rfl
    haccepted (fun call hcall target htarget =>
      List.mem_map_of_mem (List.mem_filterMap.2 ⟨call, hcall, htarget⟩)) hshort
  have hmem := mem_timelessReplies hreply
  rw [hsame] at hmem
  obtain ⟨other, hother, heq⟩ := List.mem_map.1 hmem
  obtain ⟨call, r⟩ := reply
  obtain ⟨call', r'⟩ := other
  obtain rfl : call' = call := congrArg Sigma.fst heq
  have hr : call'.timeless r' = call'.timeless r := eq_of_heq (Sigma.mk.inj heq).2
  rw [StoreCall.timeless_eq_error_iff.2 hio, StoreCall.timeless_eq_error_iff] at hr
  obtain ⟨u, hu⟩ := Store.exists_of_mem_replies hother
  exact MemoryStore.answer_ne_io call' u failure (hu.symm.trans hr)

/-- **A store on disk refines a store in memory.** Both start empty, and the same calls are made on both, at
whatever times. The names in the calls are accepted, the places that are written to have different digests,
and no reply of the store on disk is a failure of the system. Then each reply is the same, but for times. -/
theorem replies_eq_memory (now now' : Timestamp) {calls calls' : List (StoreCall × Timestamp)}
    (hsame : calls.map Prod.fst = calls'.map Prod.fst) (haccepted : ∀ call ∈ calls, call.1.Accepted)
    (hfree : Md5.CollisionFree (writtenTexts calls))
    (hio : ∀ reply ∈ Store.replies answer atTime calls (empty now), ∀ failure,
      reply.2 ≠ .error (.io failure)) :
    timelessReplies (Store.replies answer atTime calls (empty now))
      = timelessReplies (Store.replies MemoryStore.answer MemoryStore.atTime calls'
          (MemoryStore.empty true now')) := by
  refine (Mirrors.empty now now').replies hfree (fun c n h => absurd h (not_holds_empty now c n)) hsame
    haccepted (fun call hcall target htarget => ?_) fun call hcall c hc => ?_
  · exact List.mem_map_of_mem (List.mem_filterMap.2 ⟨call, hcall, htarget⟩)
  · by_contra hlong
    obtain ⟨t, ht⟩ := Store.exists_mem_replies answer atTime (empty now) hcall
    obtain ⟨hcontainers, -⟩ := haccepted call hcall
    obtain ⟨call, time⟩ := call
    obtain rfl := StoreCall.created?_eq_some_iff.1 hc
    refine hio _ ht (.disk .nameTooLong) ?_
    exact congrArg Prod.fst
      (createContainer_of_long (hcontainers c List.mem_cons_self) (Nat.lt_of_not_le hlong))

/-- Calls by which a manifest is written, read, copied and listed, and a segment of it is deleted. -/
def manifestSession : List StoreCall :=
  [.createContainer "c", .put "c" "a/1" (Payload.ofText "Hi") (.plain "text/plain"),
    .put "c" "b" ByteArray.empty ⟨"text/plain", some ⟨"c", "a/"⟩⟩, .head "c" "b",
    .get "c" "b" (some (.onward 1)), .copy ⟨"c", "b"⟩ ⟨"c", "d"⟩, .list "c" (.folded "" '/'),
    .delete "c" "a/1", .openFrom "c" "d" 0, .bulkDelete [⟨"c", "b"⟩, ⟨"c", "e"⟩], .capabilities]

theorem replies_eq_memory_manifestSession :
    timelessReplies (Store.replies answer atTime (manifestSession.map (·, .epoch)) (empty .epoch))
      = timelessReplies (Store.replies MemoryStore.answer MemoryStore.atTime
          (manifestSession.map (·, ⟨1, 0⟩)) (MemoryStore.empty true .epoch)) := by
  have haccepted : ∀ call ∈ manifestSession.map (·, Timestamp.epoch), call.1.Accepted := by decide
  have hfree : Md5.CollisionFree (writtenTexts (manifestSession.map (·, Timestamp.epoch))) := by
    decide +kernel
  exact replies_eq_memory .epoch .epoch rfl haccepted hfree (replies_ne_io .epoch haccepted hfree (by decide))

end LocalStore

end SegmentedFiles

import SegmentedFiles.Store.Memory

/-! # What a store replies

`Store.replies` is all that can be seen of a store: its replies to calls made one after another. Two stores may
have different clocks, so replies are compared without the times at which objects were last changed. -/

namespace SegmentedFiles

/-- The description, but for the time of the last change. -/
def ObjectInfo.timeless (info : ObjectInfo) : ObjectInfo := { info with lastModified := .epoch }

namespace StoreCall

/-- The reply, but for the times of the last changes. -/
def timeless : (call : StoreCall) → call.Reply → call.Reply
  | .head _ _, reply => reply.map ObjectInfo.timeless
  | .list _ _, reply => reply.map (List.map ObjectInfo.timeless)
  | .createContainer _, reply => reply
  | .get _ _ _, reply => reply
  | .openFrom _ _ _, reply => reply
  | .put _ _ _ _, reply => reply
  | .copy _ _, reply => reply
  | .delete _ _, reply => reply
  | .bulkDelete _, reply => reply
  | .capabilities, reply => reply

theorem timeless_eq_error_iff {call : StoreCall} {reply : call.Reply} {e : StoreError} :
    call.timeless reply = .error e ↔ reply = .error e := by
  cases call with
  | head _ _ => cases reply <;> simp [timeless, Except.map]
  | list _ _ => cases reply <;> simp [timeless, Except.map]
  | _ => exact Iff.rfl

/-- The containers that a call names. -/
def containers : StoreCall → List String
  | .createContainer container => [container]
  | .head container _ => [container]
  | .get container _ _ => [container]
  | .openFrom container _ _ => [container]
  | .put container _ _ _ => [container]
  | .copy source target => [source.container, target.container]
  | .delete container _ => [container]
  | .bulkDelete targets => targets.map ObjectTarget.container
  | .list container _ => [container]
  | .capabilities => []

/-- The container that a call makes. -/
def created? : StoreCall → Option String
  | .createContainer container => some container
  | _ => none

theorem created?_eq_some_iff {call : StoreCall} {container : String} :
    call.created? = some container ↔ call = .createContainer container := by
  cases call <;> simp [created?]

/-- The object that a call writes. -/
def written? : StoreCall → Option ObjectTarget
  | .put container name _ _ => some ⟨container, name⟩
  | .copy _ target => some target
  | _ => none

/-- The manifest reference that a call writes. -/
def manifest? : StoreCall → Option ManifestRef
  | .put _ _ _ options => options.manifest
  | _ => none

end StoreCall

/-- The replies of a store to calls made one after another, each at a time on the store's clock. -/
def Store.replies {σ : Type} (store : Store σ) (atTime : σ → Timestamp → σ) :
    List (StoreCall × Timestamp) → σ → List ((call : StoreCall) × call.Reply)
  | [], _ => []
  | (call, now) :: rest, s =>
    let (reply, t) := store call (atTime s now)
    ⟨call, reply⟩ :: store.replies atTime rest t

/-- The store after calls made one after another, each at a time on the store's clock. -/
def Store.after {σ : Type} (store : Store σ) (atTime : σ → Timestamp → σ) :
    List (StoreCall × Timestamp) → σ → σ
  | [], s => s
  | (call, now) :: rest, s => store.after atTime rest (store call (atTime s now)).2

/-- A reply is what the store returns for its call in some state. -/
theorem Store.exists_of_mem_replies {σ : Type} {store : Store σ} {atTime : σ → Timestamp → σ}
    {calls : List (StoreCall × Timestamp)} {s : σ} {reply : (call : StoreCall) × call.Reply}
    (h : reply ∈ store.replies atTime calls s) : ∃ t, reply.2 = (store reply.1 t).1 := by
  induction calls generalizing s with
  | nil => cases h
  | cons call rest ih =>
    rcases List.mem_cons.1 h with rfl | h
    · exact ⟨_, rfl⟩
    · exact ih h

/-- There is a reply to each call. -/
theorem Store.exists_mem_replies {σ : Type} (store : Store σ) (atTime : σ → Timestamp → σ)
    {calls : List (StoreCall × Timestamp)} (s : σ) {call : StoreCall × Timestamp} (h : call ∈ calls) :
    ∃ t, (⟨call.1, (store call.1 t).1⟩ : (call : StoreCall) × call.Reply)
      ∈ store.replies atTime calls s := by
  induction calls generalizing s with
  | nil => cases h
  | cons first rest ih =>
    rcases List.mem_cons.1 h with rfl | h
    · exact ⟨_, List.mem_cons_self⟩
    · obtain ⟨t, ht⟩ := ih _ h
      exact ⟨t, List.mem_cons_of_mem _ ht⟩

/-- Replies, but for the times of the last changes. -/
def timelessReplies (replies : List ((call : StoreCall) × call.Reply)) :
    List ((call : StoreCall) × call.Reply) :=
  replies.map fun reply => ⟨reply.1, reply.1.timeless reply.2⟩

theorem mem_timelessReplies {replies : List ((call : StoreCall) × call.Reply)}
    {reply : (call : StoreCall) × call.Reply} (h : reply ∈ replies) :
    ⟨reply.1, reply.1.timeless reply.2⟩ ∈ timelessReplies replies :=
  List.mem_map_of_mem h

/-- A listing does not look at times. -/
theorem ListOptions.select_timeless (options : ListOptions) (objects : List (String × ObjectInfo)) :
    options.select (objects.map fun object => (object.1, object.2.timeless))
      = (options.select objects).map ObjectInfo.timeless := by
  have hgo : ∀ (groups : List String) (xs : List (String × ObjectInfo)),
      entries.go options groups (xs.map fun object => (object.1, object.2.timeless))
        = (entries.go options groups xs).map ObjectInfo.timeless := by
    intro groups xs
    induction xs generalizing groups with
    | nil => rfl
    | cons x rest ih =>
      rw [List.map_cons]
      simp only [entries.go]
      split
      · split
        · exact ih groups
        · rw [ih]
          rfl
      · rw [ih]
        rfl
  rw [select, select, List.filter_map]
  exact hgo [] _

/-! ## The store in memory -/

namespace MemoryStore

/-- A store whose clock shows this time. -/
def atTime (m : MemoryStore) (now : Timestamp) : MemoryStore := { m with now }

/-- A write in memory fails only for want of the container. -/
theorem orUnchanged_insert_ne_io (m : MemoryStore) (c n : String) (content : Payload)
    (options : PutOptions) (failure : IoFailure) :
    (m.orUnchanged (m.insert c n content options)).1 ≠ .error (.io failure) := by
  unfold insert
  split
  · exact nofun
  · exact nofun

theorem read_ne_io (m : MemoryStore) (c n : String) (range : Option ByteRange) (failure : IoFailure) :
    m.read c n range ≠ .error (.io failure) := by
  unfold read
  split
  · exact nofun
  · dsimp only
    split
    · exact nofun
    · split
      · exact nofun
      · exact nofun

theorem eq_injected_of_takePut {m : MemoryStore} {e : StoreError} (h : m.takePut = .error e) : e = injected := by
  unfold takePut at h
  split at h
  · cases h
  · cases h
    rfl
  · cases h

/-- The system does not fail a store in memory. -/
theorem answer_ne_io (call : StoreCall) (m : MemoryStore) (failure : IoFailure) :
    (answer call m).1 ≠ .error (.io failure) := by
  cases call with
  | createContainer c => exact nofun
  | head c n =>
    simp only [answer]
    split
    · exact nofun
    · exact nofun
  | get c n range => exact m.read_ne_io c n range failure
  | openFrom c n offset =>
    simp only [answer]
    intro h
    cases hread : m.read c n (some (.onward offset)) with
    | ok content =>
      rw [hread] at h
      cases h
    | error e =>
      rw [hread] at h
      cases h
      exact m.read_ne_io c n _ failure hread
  | put c n body options =>
    simp only [answer]
    split
    · next e htake =>
      rw [eq_injected_of_takePut htake]
      exact nofun
    · next u _ => exact u.orUnchanged_insert_ne_io c n body options failure
  | copy source target =>
    simp only [answer]
    split
    · exact nofun
    · exact m.orUnchanged_insert_ne_io _ _ _ _ failure
  | delete c n =>
    simp only [answer]
    split
    · exact nofun
    · exact nofun
  | bulkDelete targets =>
    simp only [answer, answerBulk]
    split
    · split
      · exact nofun
      · exact nofun
      · exact nofun
    · exact nofun
  | list c options =>
    simp only [answer]
    split
    · exact nofun
    · exact nofun
  | capabilities => exact nofun

end MemoryStore

end SegmentedFiles

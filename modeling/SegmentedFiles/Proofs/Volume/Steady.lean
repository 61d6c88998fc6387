import SegmentedFiles.Proofs.Store.Territory
import SegmentedFiles.Proofs.Volume.Action

/-! # Operations within a territory

From two stores that agree on a territory an operation within it comes to the same result and to two stores that agree
again (`Territory.Steady`). The rules follow the notation in which the operations are written. A call whose reply has
times in it may go on with either reply if what follows does not look at them. -/

namespace SegmentedFiles

open MemoryStore (answer)

variable {T : Territory} {α β : Type}

/-- What a reply tells of the territory: a manifest is one of the name's own segments, and what is listed is inside. -/
def StoreCall.Tells (T : Territory) : (call : StoreCall) → call.Reply → Prop
  | .createContainer _, _ => True
  | .head container name, reply => ∀ info ref, reply = .ok info → info.manifest = some ref →
    ref = ⟨Segment.containerOf container, Segment.start name⟩
  | .get _ _ _, _ => True
  | .openFrom _ _ _, _ => True
  | .put _ _ _ _, _ => True
  | .copy _ _, _ => True
  | .delete _ _, _ => True
  | .bulkDelete _, _ => True
  | .list _ options, reply => ∀ infos, options.delimiter = none → reply = .ok infos →
    ∀ info ∈ infos, T.Inside info.name
  | .capabilities, _ => True

namespace Territory

theorem tells_answer {s t : MemoryStore} {call : StoreCall} (h : T.Agree s t) (hcall : call.Within T) :
    call.Tells T (call.timeless (answer call s).1) := by
  cases call with
  | head c n =>
    intro info ref hinfo href
    rcases h.object_cases (c := c) hcall with ⟨hs, -⟩ | ⟨o, -, hs, -, -, -, hown⟩
    · rw [MemoryStore.answer_head_of_none hs] at hinfo
      cases hinfo
    · rw [MemoryStore.answer_head_of_some hs] at hinfo
      cases hinfo
      exact hown ref href
  | list c options =>
    intro infos hdelimiter hinfos info hinfo
    obtain ⟨start, delimiter⟩ := options
    cases hdelimiter
    by_cases hc : c ∈ s.containers
    · have hlist : answer (.list c ⟨start, none⟩) s
          = (.ok ((s.under c start).map fun object => object.2.entry object.1), s) :=
        MemoryStore.answer_list_all hc
      rw [hlist] at hinfos
      cases hinfos
      rw [List.map_map] at hinfo
      obtain ⟨object, hobject, rfl⟩ := List.mem_map.1 hinfo
      exact hcall.2 _ (MemoryStore.mem_under.1 hobject).2
    · simp only [MemoryStore.answer, Std.ExtTreeMap.getElem?_eq_none hc] at hinfos
      cases hinfos
  | _ => trivial

/-- From two stores that agree on the territory the program comes to the same result, which satisfies `P`, and to two
stores that agree again. -/
def SteadyProgram (T : Territory) (p : StoreProgram α) (P : α → Prop) : Prop :=
  ∀ s t, T.Agree s t → (p.runOn answer s).1 = (p.runOn answer t).1 ∧ P (p.runOn answer s).1 ∧
    T.Moves s t (p.runOn answer s).2 (p.runOn answer t).2

theorem steadyProgram_done {P : α → Prop} {a : α} (h : P a) : T.SteadyProgram (.done a) P :=
  fun _ _ hst => ⟨rfl, h, .refl hst⟩

theorem SteadyProgram.bind {P : β → Prop} {Q : α → Prop} {p : StoreProgram β} {f : β → StoreProgram α}
    (hp : T.SteadyProgram p P) (hf : ∀ b, P b → T.SteadyProgram (f b) Q) :
    T.SteadyProgram (Interaction.bind p f) Q := by
  intro s t hst
  obtain ⟨hresult, hP, hmoves⟩ := hp s t hst
  obtain ⟨hresult', hQ, hmoves'⟩ := hf _ hP _ _ hmoves.agree
  have hrun : ∀ m, StoreProgram.runOn (Interaction.bind p f) answer m
      = (f (p.runOn answer m).1).runOn answer (p.runOn answer m).2 := fun m => Interaction.run_bind answer p f m
  rw [hrun, hrun, ← hresult]
  exact ⟨hresult', hQ, hmoves.trans hmoves'⟩

/-- As `SteadyProgram`, of a result if there is one. -/
def Steady (T : Territory) (x : VolumeAction α) (P : α → Prop) : Prop :=
  T.SteadyProgram x.run fun r => ∀ a, r = .ok a → P a

theorem steady_pure {P : α → Prop} {a : α} (h : P a) : T.Steady (pure a) P :=
  steadyProgram_done fun _ ha => Except.ok.inj ha ▸ h

theorem steady_throw {P : α → Prop} (e : VolumeError) : T.Steady (throw e : VolumeAction α) P :=
  steadyProgram_done nofun

theorem steady_throw_bind {P : α → Prop} (e : VolumeError) (f : β → VolumeAction α) :
    T.Steady ((throw e : VolumeAction β) >>= f) P :=
  steadyProgram_done nofun

theorem Steady.bind {P : β → Prop} {Q : α → Prop} {x : VolumeAction β} {f : β → VolumeAction α}
    (hx : T.Steady x P) (hf : ∀ b, P b → T.Steady (f b) Q) : T.Steady (x >>= f) Q := by
  refine SteadyProgram.bind hx fun r hr => ?_
  cases r with
  | ok b => exact hf b (hr b rfl)
  | error e => exact steadyProgram_done nofun

theorem steady_tryCatch {P : α → Prop} {x : VolumeAction α} {handle : VolumeError → VolumeAction α}
    (hx : T.Steady x P) (hcatch : ∀ e, T.Steady (handle e) P) : T.Steady (tryCatch x handle) P := by
  refine SteadyProgram.bind hx fun r hr => ?_
  cases r with
  | ok a => exact steadyProgram_done hr
  | error e => exact hcatch e

theorem steady_forIn_value {γ : Type} {xs : List β} {init : γ} {body : β → γ → VolumeAction (ForInStep γ)}
    (h : ∀ x ∈ xs, ∀ c, T.Steady (body x c) fun _ => True) :
    T.Steady (forIn xs init body) fun _ => True := by
  induction xs generalizing init with
  | nil => exact steady_pure trivial
  | cons x rest ih =>
    rw [List.forIn_cons]
    refine (h x List.mem_cons_self init).bind fun step _ => ?_
    cases step with
    | done c => exact steady_pure trivial
    | yield c => exact ih fun y hy => h y (List.mem_cons_of_mem x hy)

theorem steady_forIn {xs : List β} {body : β → VolumeAction PUnit}
    (h : ∀ x ∈ xs, T.Steady (body x) fun _ => True) :
    T.Steady (forIn xs PUnit.unit fun x _ => do
      body x
      pure (ForInStep.yield PUnit.unit)) fun _ => True :=
  steady_forIn_value fun x hx _ => (h x hx).bind fun _ _ => steady_pure trivial

/-! ## Calls -/

section Calls

variable {call : StoreCall} {path : String} {P : α → Prop}

theorem runOn_try_bind (f : call.Reply → VolumeAction α) (m : MemoryStore) :
    (call.try >>= f).runOn answer m = (f (answer call m).1).runOn answer (answer call m).2 :=
  rfl

/-- What follows goes on from both stores in the same way. -/
theorem steady_try_bind_of {f : call.Reply → VolumeAction α}
    (h : ∀ s t, T.Agree s t → ∃ reply, f (answer call s).1 = f reply ∧ f (answer call t).1 = f reply ∧
      T.Moves s t (answer call s).2 (answer call t).2 ∧ T.Steady (f reply) P) :
    T.Steady (call.try >>= f) P := by
  intro s t hst
  obtain ⟨reply, hs, ht, hmoves, hnext⟩ := h s t hst
  obtain ⟨hresult, hP, hmoves'⟩ := hnext _ _ hmoves.agree
  change ((call.try >>= f).runOn answer s).1 = ((call.try >>= f).runOn answer t).1 ∧
    (∀ a, ((call.try >>= f).runOn answer s).1 = .ok a → P a) ∧
    T.Moves s t ((call.try >>= f).runOn answer s).2 ((call.try >>= f).runOn answer t).2
  rw [runOn_try_bind, runOn_try_bind, hs, ht]
  exact ⟨hresult, hP, hmoves.trans hmoves'⟩

theorem steady_try_bind {f : call.Reply → VolumeAction α} (h : call.Within T)
    (hf : ∀ reply, f (call.timeless reply) = f reply)
    (hnext : ∀ reply, call.Tells T reply → T.Steady (f reply) P) : T.Steady (call.try >>= f) P := by
  refine steady_try_bind_of fun s t hst => ?_
  obtain ⟨hreply, hmoves⟩ := hst.answer h
  exact ⟨call.timeless (answer call s).1, (hf _).symm, by rw [hreply, hf], hmoves, hnext _ (tells_answer hst h)⟩

theorem at_bind_eq (f : call.Answer → VolumeAction α) : call.at path >>= f = call.try >>= fun
    | .ok a => f a
    | .error e => throw (.ofStore path e) := by
  refine congrArg (Interaction.ask call) (funext fun reply => ?_)
  cases reply <;> rfl

theorem steady_at_bind {f : call.Answer → VolumeAction α} (h : call.Within T)
    (hf : ∀ a a', call.timeless (.ok a) = .ok a' → f a' = f a)
    (hnext : ∀ a, call.Tells T (.ok a) → T.Steady (f a) P) : T.Steady (call.at path >>= f) P := by
  rw [at_bind_eq]
  refine steady_try_bind h (fun reply => ?_) fun reply hreply => ?_
  · cases hreply : call.timeless reply with
    | ok a' =>
      cases reply with
      | ok a => exact hf a a' hreply
      | error e => exact absurd (hreply.symm.trans (StoreCall.timeless_eq_error_iff.2 rfl)) nofun
    | error e =>
      rw [StoreCall.timeless_eq_error_iff.1 hreply]
  · cases reply with
    | ok a => exact hnext a hreply
    | error e => exact steady_throw _

/-- A call whose reply has no times in it. -/
theorem steady_at (h : call.Within T) (htimeless : ∀ a, call.timeless (.ok a) = .ok a) :
    T.Steady (call.at path) fun _ => True := by
  rw [← bind_pure (call.at path)]
  refine steady_at_bind h (fun a a' ha => ?_) fun a _ => steady_pure trivial
  rw [htimeless] at ha
  rw [Except.ok.inj ha]

/-- A plain object is put into the territory. -/
theorem steady_put_at {container name contentType : String} {body : Payload}
    (hcontainer : container ∈ T.containers) (hname : T.Inside name) :
    T.Steady ((StoreCall.put container name body (PutOptions.plain contentType)).at path) fun _ => True :=
  steady_at ⟨hcontainer, hname, nofun⟩ fun _ => rfl

/-- A directory is made above the territory, if it is missing. The store in which it is there and the store in which it
is missing go on in the same way; that something else is in the way is so in both. -/
theorem steady_of_withDirectory {x : VolumeAction α} {name : String} (a : α) (blocked lost : VolumeError)
    (hname : name ∈ T.above) (ha : P a)
    (hblocked : ∀ m, T.Blocked m name → x.runOn answer m = (.error blocked, m))
    (hlost : ∀ m, m.putBudget = none → T.container ∉ m.containers → x.runOn answer m = (.error lost, m))
    (hmade : ∀ m, m.putBudget = none → ¬T.Blocked m name → T.container ∈ m.containers →
      x.runOn answer m = (.ok a, m.withDirectory T.container name)) : T.Steady x P := by
  intro s t hst
  change (x.runOn answer s).1 = (x.runOn answer t).1 ∧ (∀ a, (x.runOn answer s).1 = .ok a → P a) ∧
    T.Moves s t (x.runOn answer s).2 (x.runOn answer t).2
  have hcontainer := hst.containers T.container List.mem_cons_self
  by_cases hin : T.Blocked s name
  · rw [hblocked s hin, hblocked t ((hst.blocked name hname).2 hin)]
    exact ⟨rfl, nofun, .refl hst⟩
  by_cases hs : T.container ∈ s.containers
  · have hfree : ¬T.Blocked t name := fun ht => hin ((hst.blocked name hname).1 ht)
    rw [hmade s hst.putBudget.1 hin hs, hmade t hst.putBudget.2 hfree (hcontainer.2 hs)]
    exact ⟨rfl, fun _ h => Except.ok.inj h ▸ ha, hst.withDirectory hname hs (hcontainer.2 hs)⟩
  · rw [hlost s hst.putBudget.1 hs, hlost t hst.putBudget.2 fun ht => hs (hcontainer.1 ht)]
    exact ⟨rfl, nofun, .refl hst⟩

end Calls

end Territory

end SegmentedFiles

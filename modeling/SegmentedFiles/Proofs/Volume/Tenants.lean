import SegmentedFiles.Proofs.Volume.Below
import SegmentedFiles.Proofs.Volume.Create

/-! # Two tenants of one store

Two tenants keep their volumes in one container of one store, each under a name of its own. As long as neither name is
above the other, a tenant does not notice the other: every reply and everything under the tenant's name is as if the
other had done nothing (`Tenants.undisturbed`). The names at and below a tenant's own are a territory. A step of the
other tenant leaves it as it was (`Tenants.Beside.other`), and a step of the tenant's own does the same in both runs
(`Tenants.Beside.own`). -/

namespace SegmentedFiles

open MemoryStore (answer)
open Volume (AtOrBelow)

/-- One of two tenants. -/
inductive Tenant where
  | first
  | second
  deriving DecidableEq, Repr

/-- What a tenant does: make a volume, or something on the volume made last. -/
inductive TenantCall where
  | create (options : VolumeOptions)
  | perform (call : VolumeCall)

namespace TenantCall

/-- Without a volume there is no reply of it. -/
abbrev Reply : TenantCall → Type
  | .create _ => Except VolumeError Volume
  | .perform call => Option call.Reply

/-- The reply, but for the time of the last change. -/
def timeless : (call : TenantCall) → call.Reply → call.Reply
  | .create _, reply => reply
  | .perform call, reply => reply.map call.timeless

end TenantCall

/-- Something that a tenant does, and the time on the store's clock. -/
structure TenantStep where
  tenant : Tenant
  call : TenantCall
  time : Timestamp

/-- A store with the volumes that its tenants have made. -/
structure SharedStore where
  store : MemoryStore
  volume : Tenant → Option Volume

namespace SharedStore

/-- A store before any volume has been made. -/
def unused (m : MemoryStore) : SharedStore := ⟨m, fun _ => none⟩

variable {s : SharedStore} {tenant : Tenant} {time : Timestamp}

/-- What comes of a call of a tenant: the reply, and what is shared after it. -/
def make (s : SharedStore) (tenant : Tenant) (time : Timestamp) : (call : TenantCall) → call.Reply × SharedStore
  | .create options =>
    match (Volume.create options).runOn answer (s.store.atTime time) with
    | (.ok v, m) => (.ok v, ⟨m, fun other => if other = tenant then some v else s.volume other⟩)
    | (.error e, m) => (.error e, ⟨m, s.volume⟩)
  | .perform call =>
    match s.volume tenant with
    | none => (none, s)
    | some v => (some (call.performAt v s.store time).1, ⟨(call.performAt v s.store time).2, s.volume⟩)

theorem make_perform_of_none {call : VolumeCall} (h : s.volume tenant = none) :
    s.make tenant time (.perform call) = (none, s) := by
  simp only [make, h]

theorem make_perform_of_some {call : VolumeCall} {v : Volume} (h : s.volume tenant = some v) :
    s.make tenant time (.perform call)
      = (some (call.performAt v s.store time).1, ⟨(call.performAt v s.store time).2, s.volume⟩) := by
  simp only [make, h]

/-- What is shared after these steps. -/
def after : List TenantStep → SharedStore → SharedStore
  | [], s => s
  | step :: rest, s => after rest (s.make step.tenant step.time step.call).2

/-- The replies that a tenant gets in these steps, but for times. -/
def replies (tenant : Tenant) : List TenantStep → SharedStore → List ((call : TenantCall) × call.Reply)
  | [], _ => []
  | step :: rest, s =>
    let (reply, t) := s.make step.tenant step.time step.call
    if step.tenant = tenant then ⟨step.call, step.call.timeless reply⟩ :: replies tenant rest t
    else replies tenant rest t

end SharedStore

/-- A container that two tenants have in common, and the names of their volumes in it. Neither name is above the other.
-/
structure Tenants where
  container : String
  root : Tenant → String
  root_ne_empty : ∀ tenant, root tenant ≠ ""
  root_ne : root .first ≠ root .second
  not_below : ¬Text.startsWith (root .first) (root .second ++ "/") = true
  not_above : ¬Text.startsWith (root .second) (root .first ++ "/") = true

namespace MemoryStore

variable {m : MemoryStore} {container : String}

theorem view?_withContainersOf (m : MemoryStore) (container c n : String) :
    (m.withContainersOf container).view? c n = m.view? c n := by
  rw [view?, withContainersOf, object?_withContainer, object?_withContainer, view?]

theorem mem_withContainersOf {c : String} (h : c = container ∨ c = Segment.containerOf container) :
    c ∈ (m.withContainersOf container).containers := by
  rw [withContainersOf, mem_containers_withContainer, mem_containers_withContainer]
  exact h.elim (fun hc => .inr (.inl hc)) .inl

theorem withContainersOf_of_mem (h : container ∈ m.containers)
    (h' : Segment.containerOf container ∈ m.containers) : m.withContainersOf container = m := by
  rw [withContainersOf, withContainer_of_mem h, withContainer_of_mem h']

theorem mem_of_withContainersOf {c : String} (h : m.withContainersOf container = m)
    (hc : c = container ∨ c = Segment.containerOf container) : c ∈ m.containers :=
  h ▸ mem_withContainersOf hc

theorem withContainersOf_self : (m.withContainersOf container).withContainersOf container
    = m.withContainersOf container :=
  withContainersOf_of_mem (mem_withContainersOf (.inl rfl)) (mem_withContainersOf (.inr rfl))

theorem withContainersOf_atTime (time : Timestamp) :
    (m.atTime time).withContainersOf container = (m.withContainersOf container).atTime time := by
  have hone : ∀ (m : MemoryStore) (c : String), (m.atTime time).withContainer c = (m.withContainer c).atTime time := by
    intro m c
    unfold withContainer
    change (if m.containers.contains c then _ else _) = _
    split <;> rfl
  rw [withContainersOf, hone, hone, withContainersOf]

theorem withContainersOf_withContainersOf_atTime (m : MemoryStore) (container : String) (time : Timestamp) :
    ((m.withContainersOf container).atTime time).withContainersOf container
      = (m.withContainersOf container).atTime time := by
  rw [withContainersOf_atTime, withContainersOf_self]

end MemoryStore

namespace Tenants

variable {d : Tenants} {tenant : Tenant} {s t : SharedStore}

/-- The names at and below a tenant's own. -/
def territory (d : Tenants) (tenant : Tenant) : Territory :=
  .below d.container (d.root tenant) (d.root_ne_empty tenant) [] nofun

theorem apart (d : Tenants) : (d.territory .first).Apart (d.territory .second) where
  container := rfl
  inside n hn hn' := by
    have hne : ∀ tenant, ¬(d.root tenant).isEmpty = true :=
      fun tenant hempty => d.root_ne_empty tenant (String.isEmpty_iff.1 hempty)
    rcases atOrBelow_total (d.root_ne_empty .first) (d.root_ne_empty .second) hn hn' with hbelow | hbelow
    · exact ((or_iff_right (hne .first)).1 hbelow).elim (fun h => d.root_ne h.symm) d.not_above
    · exact ((or_iff_right (hne .second)).1 hbelow).elim d.root_ne d.not_below
  above _ := nofun
  above' _ := nofun

/-- A volume of the tenant. -/
structure Owns (d : Tenants) (tenant : Tenant) (v : Volume) : Prop where
  container : v.container = d.container
  root : Text.trim '/' v.root = d.root tenant

theorem Owns.covers {v : Volume} (h : d.Owns tenant v) (path : String) : (d.territory tenant).Covers v path :=
  Territory.covers_below h.root path

/-- A tenant makes volumes in the common container, under the tenant's own name. -/
def Allows (d : Tenants) (tenant : Tenant) (call : TenantCall) : Prop :=
  ∀ options, call = .create options →
    options.container = d.container ∧ Text.trim '/' options.root = d.root tenant

theorem Allows.create {options : VolumeOptions} (hcontainer : options.container = d.container)
    (hroot : Text.trim '/' options.root = d.root tenant) : d.Allows tenant (.create options) := by
  intro _ hcall
  cases hcall
  exact ⟨hcontainer, hroot⟩

theorem Allows.perform (call : VolumeCall) : d.Allows tenant (.perform call) := by
  intro _ hcall
  cases hcall

/-- The containers are there after a volume has been made, and nothing else is new but the volume. -/
theorem make_create_cases {options : VolumeOptions} (h : d.Allows tenant (.create options)) :
    (∃ e, ∀ s time, SharedStore.make s tenant time (.create options)
      = (.error e, ⟨s.store.atTime time, s.volume⟩)) ∨
      ∃ volume : Bool → Volume, (∀ bulk, d.Owns tenant (volume bulk)) ∧
        ∀ s time, SharedStore.make s tenant time (.create options)
          = (.ok (volume s.store.bulkDelete), ⟨(s.store.withContainersOf d.container).atTime time,
            fun other => if other = tenant then some (volume s.store.bulkDelete) else s.volume other⟩) := by
  obtain ⟨hcontainer, hroot⟩ := h options rfl
  rcases Volume.create_runOn_cases options with ⟨e, he⟩ | ⟨hchunk, hmade⟩
  · exact .inl ⟨e, fun s time => by simp only [SharedStore.make, he]⟩
  · refine .inr ⟨fun bulk => ⟨options.container, options.root, options.chunkSize, hchunk, bulk⟩,
      fun bulk => ⟨hcontainer, hroot⟩, fun s time => ?_⟩
    simp only [SharedStore.make, hmade, MemoryStore.withContainersOf_atTime, hcontainer]
    rfl

/-- Of two runs, the steps of the first tenant are left out in the second. What matters to the other tenant is the
same; only the containers may have been made in the one run already and not in the other, as long as that tenant has no
volume. -/
structure Beside (d : Tenants) (s t : SharedStore) : Prop where
  volume : t.volume .second = s.volume .second
  owns : ∀ tenant v, s.volume tenant = some v → d.Owns tenant v
  agree : (d.territory .second).Agree (s.store.withContainersOf d.container) (t.store.withContainersOf d.container)
  self : (d.territory .first).Agree (s.store.withContainersOf d.container) (s.store.withContainersOf d.container)
  made : ∀ tenant v, s.volume tenant = some v → s.store.withContainersOf d.container = s.store
  made' : ∀ v, t.volume .second = some v → t.store.withContainersOf d.container = t.store

theorem withContainersOf_of_shift {T : Territory} {made : List String} {m m' : MemoryStore} {container : String}
    (h : T.Shift made m m') (hm : m.withContainersOf container = m) : m'.withContainersOf container = m' :=
  MemoryStore.withContainersOf_of_mem ((h.containers _).2 (MemoryStore.mem_of_withContainersOf hm (.inl rfl)))
    ((h.containers _).2 (MemoryStore.mem_of_withContainersOf hm (.inr rfl)))

namespace Beside

variable {time time' : Timestamp} {call : TenantCall}

/-- Only the clock has gone on. -/
theorem atTime (h : d.Beside s t) (time time' : Timestamp) :
    d.Beside ⟨s.store.atTime time, s.volume⟩ ⟨t.store.atTime time', t.volume⟩ := by
  refine ⟨h.volume, h.owns, ?_, ?_, fun tenant v hv => ?_, fun v hv => ?_⟩
  · rw [MemoryStore.withContainersOf_atTime, MemoryStore.withContainersOf_atTime]
    exact h.agree.atTime time time'
  · rw [MemoryStore.withContainersOf_atTime]
    exact h.self.atTime time time
  · rw [MemoryStore.withContainersOf_atTime, h.made tenant v hv]
  · rw [MemoryStore.withContainersOf_atTime, h.made' v hv]

/-- What was right of the volumes is so after another has been made. -/
theorem forall_volume {P : Tenant → Volume → Prop} {volume : Tenant → Option Volume} {v : Volume}
    (h : ∀ other v, volume other = some v → P other v) (hv : P tenant v) (other : Tenant) (u : Volume)
    (hu : (if other = tenant then some v else volume other) = some u) : P other u := by
  split at hu
  · next hother =>
    cases hu
    exact hother ▸ hv
  · exact h other u hu

/-- A step of the first tenant is left out. -/
theorem other (h : d.Beside s t) (hcall : d.Allows .first call) (time : Timestamp) :
    d.Beside (s.make .first time call).2 t := by
  cases call with
  | create options =>
    rcases make_create_cases hcall with ⟨e, he⟩ | ⟨volume, howns, hmake⟩
    · rw [he]
      exact h.atTime time t.store.now
    · rw [hmake]
      have hmade := MemoryStore.withContainersOf_withContainersOf_atTime s.store d.container time
      refine ⟨h.volume, forall_volume h.owns (howns _), ?_, ?_, fun _ _ _ => hmade, h.made'⟩
      · rw [hmade]
        exact h.agree.atTime time _
      · rw [hmade]
        exact h.self.atTime time time
  | perform call =>
    cases hv : s.volume .first with
    | none =>
      rw [SharedStore.make_perform_of_none hv]
      exact h
    | some v =>
      have howns := h.owns _ v hv
      have hmade := h.made _ v hv
      have hself := h.self
      have hagree := h.agree
      rw [hmade] at hself hagree
      obtain ⟨-, hmoves⟩ := VolumeCall.performAt_steady call howns.container
        (fun path _ => howns.covers path) hself time time
      obtain ⟨made, hnames, hshift, -⟩ := hmoves.shift
      have hmade' := withContainersOf_of_shift hshift hmade
      rw [SharedStore.make_perform_of_some hv]
      refine ⟨h.volume, h.owns, ?_, ?_, fun _ _ _ => hmade', h.made'⟩
      · rw [hmade']
        exact hagree.of_shift d.apart hnames hshift
      · rw [hmade']
        exact hmoves.agree

/-- A step of the second tenant comes to the same in both runs. -/
theorem own (h : d.Beside s t) (hcall : d.Allows .second call) (time time' : Timestamp) :
    call.timeless (s.make .second time call).1 = call.timeless (t.make .second time' call).1 ∧
      d.Beside (s.make .second time call).2 (t.make .second time' call).2 := by
  cases call with
  | create options =>
    rcases make_create_cases hcall with ⟨e, he⟩ | ⟨volume, howns, hmake⟩
    · rw [he, he]
      exact ⟨rfl, h.atTime time time'⟩
    · have hbulk : t.store.bulkDelete = s.store.bulkDelete := by
        simpa [MemoryStore.withContainersOf] using h.agree.bulkDelete
      rw [hmake, hmake, hbulk]
      have hmade := MemoryStore.withContainersOf_withContainersOf_atTime s.store d.container time
      have hmade' := MemoryStore.withContainersOf_withContainersOf_atTime t.store d.container time'
      refine ⟨rfl, rfl, forall_volume h.owns (howns _), ?_, ?_, fun _ _ _ => hmade, fun _ _ => hmade'⟩
      · rw [hmade, hmade']
        exact h.agree.atTime time time'
      · rw [hmade]
        exact h.self.atTime time time
  | perform call =>
    cases hv : s.volume .second with
    | none =>
      rw [SharedStore.make_perform_of_none hv, SharedStore.make_perform_of_none (h.volume.trans hv)]
      exact ⟨rfl, h⟩
    | some v =>
      have hv' := h.volume.trans hv
      have howns := h.owns _ v hv
      have hmade := h.made _ v hv
      have hself := h.self
      have hagree := h.agree
      rw [hmade] at hself hagree
      rw [h.made' v hv'] at hagree
      obtain ⟨hreply, hmoves⟩ := VolumeCall.performAt_steady call howns.container
        (fun path _ => howns.covers path) hagree time time'
      obtain ⟨made, hnames, hs, ht⟩ := hmoves.shift
      have hmade' := withContainersOf_of_shift hs hmade
      rw [SharedStore.make_perform_of_some hv, SharedStore.make_perform_of_some hv']
      refine ⟨congrArg some hreply, h.volume, h.owns, ?_, ?_, fun _ _ _ => hmade', fun _ _ =>
        withContainersOf_of_shift ht (h.made' v hv')⟩
      · rw [hmade', withContainersOf_of_shift ht (h.made' v hv')]
        exact hmoves.agree
      · rw [hmade']
        exact ((hself.of_shift d.apart.symm hnames hs).symm.of_shift d.apart.symm hnames hs).symm

end Beside

end Tenants

/-- What is done in a step, and by whom. -/
def TenantStep.deed (step : TenantStep) : Tenant × TenantCall := (step.tenant, step.call)

namespace Tenants

variable {d : Tenants} {s t : SharedStore} {steps alone : List TenantStep}

/-- All steps of the first tenant are left out. -/
theorem beside_after (hallows : ∀ step ∈ steps, d.Allows step.tenant step.call)
    (halone : alone.map TenantStep.deed = (steps.filter fun step => step.tenant == .second).map TenantStep.deed)
    (h : d.Beside s t) :
    s.replies .second steps = t.replies .second alone ∧ d.Beside (s.after steps) (t.after alone) := by
  induction steps generalizing alone s t with
  | nil =>
    obtain rfl := List.map_eq_nil_iff.1 halone
    exact ⟨rfl, h⟩
  | cons step rest ih =>
    obtain ⟨tenant, call, time⟩ := step
    have hcall : d.Allows tenant call := hallows _ List.mem_cons_self
    have hrest : ∀ step ∈ rest, d.Allows step.tenant step.call :=
      fun step hstep => hallows step (List.mem_cons_of_mem _ hstep)
    cases tenant with
    | first => exact ih hrest halone (h.other hcall time)
    | second =>
      obtain ⟨⟨tenant', call', time'⟩, alone, rfl, hdeed, hbehind⟩ := List.map_eq_cons_iff.1 halone
      obtain ⟨rfl, rfl⟩ : tenant' = .second ∧ call' = call := Prod.mk.inj hdeed
      obtain ⟨hreply, hnext⟩ := h.own hcall time time'
      obtain ⟨hreplies, hafter⟩ := ih hrest hbehind hnext
      refine ⟨?_, hafter⟩
      simp only [SharedStore.replies, if_true, hreply, hreplies]

/-- Nothing that one tenant does, at whatever time, makes a difference to the replies that the other gets or to what is
stored under the other's name. -/
theorem undisturbed (d : Tenants) {m : MemoryStore} (hown : m.VolumeMade) (hput : m.putBudget = none)
    (hbulk : m.bulkFault = none) (hallows : ∀ step ∈ steps, d.Allows step.tenant step.call)
    (halone : alone.map TenantStep.deed
      = (steps.filter fun step => step.tenant == .second).map TenantStep.deed) :
    (SharedStore.unused m).replies .second steps = (SharedStore.unused m).replies .second alone ∧
      ∀ c, ((SharedStore.unused m).after steps).store.viewUnder c (d.root .second ++ "/")
        = ((SharedStore.unused m).after alone).store.viewUnder c (d.root .second ++ "/") := by
  have hself : ∀ tenant, (d.territory tenant).Agree (m.withContainersOf d.container)
      (m.withContainersOf d.container) := by
    intro tenant
    refine Territory.agree_self (fun c n o ref ho => ?_) ?_ ?_
    · rw [MemoryStore.withContainersOf, MemoryStore.object?_withContainer,
        MemoryStore.object?_withContainer] at ho
      exact hown c n o ref ho
    · simpa [MemoryStore.withContainersOf] using hput
    · simpa [MemoryStore.withContainersOf] using hbulk
  have hnone : ∀ tenant v, (SharedStore.unused m).volume tenant ≠ some v :=
    fun tenant v hv => Option.some_ne_none v hv.symm
  have hbegin : d.Beside (SharedStore.unused m) (SharedStore.unused m) :=
    ⟨rfl, fun tenant v hv => absurd hv (hnone tenant v), hself .second, hself .first,
      fun tenant v hv => absurd hv (hnone tenant v), fun v hv => absurd hv (hnone .second v)⟩
  obtain ⟨hreplies, hafter⟩ := beside_after hallows halone hbegin
  refine ⟨hreplies, fun c => (MemoryStore.viewUnder_congr fun n hn => ?_).symm⟩
  have hview := hafter.agree.view c n (.inr (.inr hn))
  rwa [MemoryStore.view?_withContainersOf, MemoryStore.view?_withContainersOf] at hview

/-- Two tenants, of whom the one's name starts as the other's does. -/
def sample : Tenants where
  container := "files"
  root
    | .first => "a"
    | .second => "ab"
  root_ne_empty tenant := by cases tenant <;> decide
  root_ne := by decide
  not_below := by decide
  not_above := by decide

/-- A file is written and read. -/
def sampleAlone : List TenantStep :=
  [⟨.second, .create ⟨"files", "ab", 4⟩, .epoch⟩, ⟨.second, .perform (.writeAll "/x" ⟨#[1]⟩), .epoch⟩,
    ⟨.second, .perform (.readAll "/x"), .epoch⟩]

/-- Meanwhile the first tenant removes everything that there is. -/
def sampleSteps : List TenantStep :=
  [⟨.first, .create ⟨"files", "/a/", 4⟩, .epoch⟩, ⟨.second, .create ⟨"files", "ab", 4⟩, .epoch⟩,
    ⟨.second, .perform (.writeAll "/x" ⟨#[1]⟩), .epoch⟩, ⟨.first, .perform (.remove "/"), .epoch⟩,
    ⟨.second, .perform (.readAll "/x"), .epoch⟩]

theorem undisturbed_sample :
    (SharedStore.unused (.empty true .epoch)).replies .second sampleSteps
        = [⟨.create ⟨"files", "ab", 4⟩, .ok ⟨"files", "ab", 4, by decide, true⟩⟩,
          ⟨.perform (.writeAll "/x" ⟨#[1]⟩), some (.ok ())⟩, ⟨.perform (.readAll "/x"), some (.ok ⟨#[1]⟩)⟩] ∧
      ((SharedStore.unused (.empty true .epoch)).after sampleSteps).store.viewUnder "files" "ab/"
        = ((SharedStore.unused (.empty true .epoch)).after sampleAlone).store.viewUnder "files" "ab/" := by
  have hown : (MemoryStore.empty true .epoch).VolumeMade := by
    intro c n o ref ho
    simp [MemoryStore.object?, MemoryStore.objects, MemoryStore.empty] at ho
  have hallows : ∀ step ∈ sampleSteps, sample.Allows step.tenant step.call := by
    simp only [sampleSteps, List.forall_mem_cons]
    refine ⟨.create rfl (by decide), .create rfl (by decide), .perform _, .perform _, .perform _, ?_⟩
    intro step hstep
    cases hstep
  obtain ⟨hreplies, hview⟩ := undisturbed sample hown rfl rfl hallows (rfl : sampleAlone.map TenantStep.deed = _)
  exact ⟨hreplies.trans (by rfl), hview "files"⟩

end Tenants

end SegmentedFiles

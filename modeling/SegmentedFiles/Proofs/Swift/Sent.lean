import SegmentedFiles.Proofs.Swift.Exchange

/-! # What is sent for a call

Messages with a token are requests that were built for the storage URL of a session (`Sends`), and so they
go to the URL of the object that the call is about (`sent_to_object`). A copy names its source in a header
(`sent_with_source`), and a bulk delete has a line for each target (`sent_with_lines`). -/

namespace SegmentedFiles

open Interaction (Trace)
open SwiftAction (Goes)
open SwiftStore (tokenHeader)

variable {α β : Type} {config : SwiftConfig} {pages : Nat} {build : Url → Except StoreError HttpCall}
  {message : HttpCall}

/-- The call is built for the storage URL of a session and has the token of that. -/
def BuiltBy (build : Url → Except StoreError HttpCall) (call : HttpCall) : Prop :=
  ∃ (session : SwiftSession) (plain : HttpCall), build session.storageUrl = .ok plain ∧
    call = (plain.withHeader tokenHeader session.token).complete

/-- However the action goes, what it sends with a token is built like this. -/
def Sends (build : Url → Except StoreError HttpCall) (x : SwiftAction α) : Prop :=
  ∀ s log r t, Goes x s log r t → ∀ message ∈ log, message.1.headers.get? tokenHeader ≠ none →
    BuiltBy build message.1

namespace Sends

theorem of_silent {x : SwiftAction α} (hx : ∀ s log r t, Goes x s log r t → log = []) : Sends build x := by
  intro s log r t h message hmessage
  rw [hx s log r t h] at hmessage
  cases hmessage

theorem of_pure (a : α) : Sends build (pure a) :=
  of_silent fun _ _ _ _ h => (SwiftAction.goes_pure_iff.1 h).1

theorem of_except (x : Except StoreError α) : Sends build (liftM x : SwiftAction α) :=
  of_silent fun _ _ _ _ h => (SwiftAction.goes_except_iff.1 h).1

theorem bind {x : SwiftAction β} {f : β → SwiftAction α} (hx : Sends build x)
    (hf : ∀ b, Sends build (f b)) : Sends build (x >>= f) := by
  intro s log r t h message hmessage
  rcases SwiftAction.goes_bind_iff.1 h with ⟨e, hfails, -⟩ | ⟨b, u, first, rest, rfl, hfirst, hrest⟩
  · exact hx _ _ _ _ hfails message hmessage
  · rcases List.mem_append.1 hmessage with hmessage | hmessage
    · exact hx _ _ _ _ hfirst message hmessage
    · exact hf b _ _ _ _ hrest message hmessage

/-- After a step without messages, only what it results in counts. -/
theorem bind_except {x : Except StoreError β} {f : β → SwiftAction α}
    (hf : ∀ b, x = .ok b → Sends build (f b)) : Sends build (liftM x >>= f) := by
  intro s log r t h
  rcases SwiftAction.goes_bind_iff.1 h with ⟨e, hfails, -⟩ | ⟨b, u, first, rest, rfl, hfirst, hrest⟩
  · exact of_except x _ _ _ _ hfails
  · obtain ⟨rfl, hb, rfl⟩ := SwiftAction.goes_except_iff.1 hfirst
    exact hf b hb.symm _ _ _ _ hrest

theorem of_lift {x : HttpAction α}
    (hx : ∀ log r, Trace x.run log r → ∀ message ∈ log, message.1.headers.get? tokenHeader ≠ none →
      BuiltBy build message.1) : Sends build (SwiftStore.lift x) :=
  fun _ _ _ _ h => hx _ _ (SwiftAction.goes_lift_iff.1 h).1

theorem of_authenticate : Sends build (SwiftStore.lift (SwiftAuth.authenticate config)) :=
  of_lift fun _ _ h message hmessage htoken =>
    absurd ((SwiftAuth.anonymous_authenticate h).2 message hmessage) htoken

/-- A request that was built is sent with the token of its session. -/
theorem of_built {session : SwiftSession} {plain : HttpCall} (hplain : build session.storageUrl = .ok plain) :
    Sends build (SwiftStore.lift (plain.withHeader tokenHeader session.token).send) := by
  refine of_lift fun log r h message hmessage htoken => ?_
  rcases HttpAction.trace_send_iff.1 h with ⟨-, rfl, -⟩ | ⟨-, reply, rfl, -⟩
  · cases hmessage
  · rw [List.mem_singleton.1 hmessage]
    exact ⟨session, plain, hplain, rfl⟩

theorem of_send (build : Url → Except StoreError HttpCall) : Sends build (SwiftStore.send config build) := by
  refine bind (of_silent fun _ _ _ _ h => (SwiftAction.goes_get_iff.1 h).1) fun session => ?_
  refine bind_except fun plain hplain => ?_
  refine (of_built hplain).bind fun response => ?_
  split
  · exact of_except _
  · refine of_authenticate.bind fun next => ?_
    refine bind (of_silent fun _ _ _ _ h => (SwiftAction.goes_set_iff.1 h).1) fun _ => ?_
    refine bind_except fun plain hplain => ?_
    exact (of_built hplain).bind fun response => of_except _

end Sends

/-- The object that a call makes, reads or deletes, if it is about one. -/
def StoreCall.object? : StoreCall → Option ObjectTarget
  | .head container name => some ⟨container, name⟩
  | .get container name _ => some ⟨container, name⟩
  | .openFrom container name _ => some ⟨container, name⟩
  | .put container name _ _ => some ⟨container, name⟩
  | .copy _ target => some target
  | .delete container name => some ⟨container, name⟩
  | .createContainer _ | .bulkDelete _ | .list _ _ | .capabilities => none

namespace SwiftStore

/-- The message is sent for the call, with a token, in some session and for some answers of the cluster. -/
def Sent (config : SwiftConfig) (pages : Nat) (call : StoreCall) (message : HttpCall) : Prop :=
  ∃ s log r t, Goes (perform config pages call) s log r t ∧ (∃ reply, ⟨message, reply⟩ ∈ log) ∧
    message.headers.get? tokenHeader ≠ none

theorem Sent.builtBy {call : StoreCall} (hsent : Sent config pages call message)
    (hsends : Sends build (perform config pages call)) : BuiltBy build message := by
  obtain ⟨s, log, r, t, hgoes, ⟨reply, hmessage⟩, htoken⟩ := hsent
  exact hsends s log r t hgoes _ hmessage htoken

/-- What is built in a session is sent, if it can be; the cluster may then be out of reach. -/
theorem goes_send {s : SwiftSession} {plain : HttpCall} (hplain : build s.storageUrl = .ok plain)
    (hsendable : (plain.withHeader tokenHeader s.token).isSendable = true) :
    Goes (send config build) s [⟨(plain.withHeader tokenHeader s.token).complete, .error .unreachable⟩]
      (.error (.http .unreachable)) s := by
  refine SwiftAction.goes_bind_iff.2 (.inr ⟨s, s, [], _, rfl, SwiftAction.goes_get_iff.2 ⟨rfl, rfl, rfl⟩, ?_⟩)
  refine SwiftAction.goes_bind_iff.2 (.inr ⟨plain, s, [], _, rfl, SwiftAction.goes_except_iff.2
    ⟨rfl, hplain.symm, rfl⟩, ?_⟩)
  refine SwiftAction.goes_bind_iff.2 (.inl ⟨_, SwiftAction.goes_lift_iff.2 ⟨?_, rfl⟩, rfl⟩)
  exact HttpAction.trace_send_iff.2 (.inr ⟨hsendable, .error .unreachable, rfl, rfl⟩)

/-- A copy is sent in every session in which it can be built and sent. -/
theorem sent_copy {source target : ObjectTarget} {s : SwiftSession} {plain : HttpCall}
    (hplain : request "PUT" target.container (some target.name)
      [("x-copy-from", objectPath source), ("content-length", "0")] s.storageUrl = .ok plain)
    (hsendable : (plain.withHeader tokenHeader s.token).isSendable = true) :
    Sent config pages (.copy source target) (plain.withHeader tokenHeader s.token).complete := by
  refine ⟨s, _, _, s, SwiftAction.goes_bind_iff.2 (.inl ⟨_, goes_send hplain hsendable, rfl⟩),
    ⟨_, List.mem_singleton_self _⟩, ?_⟩
  rw [tokenHeader, AccountRequest.headers_complete_withHeader]
  simp [Http.Headers.get?, List.lookup_append]

/-- What is built for an object goes to its URL. -/
theorem objectUrl_of_built {method : String} {target : ObjectTarget} {headers : Http.Headers} {body : Payload}
    {call : HttpCall} (h : BuiltBy (fun storage => do
      return ⟨method, ← objectUrl storage target.container (some target.name), headers, body⟩) call) :
    ∃ session : SwiftSession,
      objectUrl session.storageUrl target.container (some target.name) = .ok call.url ∧
        call.headers = headers ++ [(tokenHeader, session.token)] ++ HttpCall.usualHeaders.filter fun header =>
          (headers.get? header.1).isNone := by
  obtain ⟨session, plain, hplain, rfl⟩ := h
  refine ⟨session, ?_⟩
  dsimp only at hplain
  rw [tokenHeader, AccountRequest.headers_complete_withHeader]
  cases hurl : objectUrl session.storageUrl target.container (some target.name) with
  | error e =>
    rw [hurl] at hplain
    cases hplain
  | ok url =>
    rw [hurl] at hplain
    cases hplain
    exact ⟨rfl, rfl⟩

theorem sends_object (config : SwiftConfig) (pages : Nat) {call : StoreCall} {target : ObjectTarget}
    (h : call.object? = some target) :
    ∃ (method : String) (headers : Http.Headers) (body : Payload), Sends (fun storage => do
      return ⟨method, ← objectUrl storage target.container (some target.name), headers, body⟩)
        (perform config pages call) := by
  cases call with
  | createContainer | bulkDelete | list | capabilities => cases h
  | head | get | openFrom | put | copy | delete =>
    cases h
    exact ⟨_, _, _, (Sends.of_send _).bind fun _ => Sends.of_pure _⟩

/-- Whatever the cluster answers, a call about an object goes to the URL of the object. -/
theorem sent_to_object {call : StoreCall} {target : ObjectTarget} (h : call.object? = some target)
    (hsent : Sent config pages call message) :
    ∃ session : SwiftSession,
      objectUrl session.storageUrl target.container (some target.name) = .ok message.url := by
  obtain ⟨method, headers, body, hsends⟩ := sends_object config pages h
  obtain ⟨session, hurl, -⟩ := objectUrl_of_built (hsent.builtBy hsends)
  exact ⟨session, hurl⟩

/-- Whatever the cluster answers, a copy names its source. -/
theorem sent_with_source {source target : ObjectTarget} (hsent : Sent config pages (.copy source target) message) :
    message.headers.get? "x-copy-from" = some (objectPath source) := by
  have hsends : Sends (request "PUT" target.container (some target.name)
      [("x-copy-from", objectPath source), ("content-length", "0")])
      (perform config pages (.copy source target)) :=
    (Sends.of_send _).bind fun _ => Sends.of_pure _
  obtain ⟨session, -, hheaders⟩ := objectUrl_of_built (hsent.builtBy hsends)
  rw [hheaders]
  rfl

/-- Whatever the cluster answers, a bulk delete names its targets, one in a line. -/
theorem sent_with_lines {targets : List ObjectTarget} (hsent : Sent config pages (.bulkDelete targets) message) :
    message.body = Payload.ofText (String.join (targets.map fun target => objectPath target ++ "\n")) := by
  have hsends : Sends (fun storage => .ok (bulkRequest targets storage))
      (perform config pages (.bulkDelete targets)) :=
    (Sends.of_send _).bind fun _ => Sends.of_except _
  obtain ⟨session, plain, hplain, rfl⟩ := hsent.builtBy hsends
  cases hplain
  rfl

end SwiftStore

end SegmentedFiles

import SegmentedFiles.Proofs.Swift.Action

/-! # Exchanges with a Swift cluster

A request on an account does not depend on where the account is: it has a place below the storage URL
(`AccountRequest`), and a session says where that is and adds its token. An exchange is one such request, or, where
the token is not taken, a request, an authentication and the request again (`Exchange`). Whatever the server answers,
`SwiftStore.send` is an exchange (`exchange_of_goes_send`). -/

namespace SegmentedFiles

open Interaction (Trace)
open SwiftAction (Goes)

/-! ## Requests -/

/-- Where on an account a request goes. -/
inductive AccountPlace where
  /-- To the account itself, with this query in the place of that of its URL. -/
  | account (query : String)
  /-- To a container or an object: names are added to the path of the account. -/
  | below (names : List String)
  /-- As `below`, with parameters added to the query. -/
  | listing (names : List String) (parameters : List (String × String))

namespace AccountPlace

def url (storage : Url) : AccountPlace → Url
  | .account query => { storage with query := some query }
  | .below names => storage.addNames names
  | .listing names parameters => SwiftStore.withParameters (storage.addNames names) parameters

/-- Whether there is such a place: to an opaque URL no names can be added. -/
def isOn (storage : Url) : AccountPlace → Bool
  | .account _ => true
  | .below _ => storage.hasNames
  | .listing _ _ => storage.hasNames

end AccountPlace

/-- A request on an account, wherever that is and whatever the token is. -/
structure AccountRequest where
  method : String
  place : AccountPlace
  headers : Http.Headers
  body : Payload
  tokenless : ∀ header ∈ headers, header.1 ≠ "x-auth-token"

namespace AccountRequest

variable {request : AccountRequest} {session : SwiftSession} {call : HttpCall}

/-- The request for an account at this URL. -/
def on (request : AccountRequest) (storage : Url) : Except StoreError HttpCall :=
  if request.place.isOn storage then
    .ok ⟨request.method, request.place.url storage, request.headers, request.body⟩
  else .error (.invalidResponse ("storage url " ++ storage.text ++ " has no path"))

/-- What is sent in a session, or why nothing is. -/
def sent (request : AccountRequest) (session : SwiftSession) : Except StoreError HttpCall := do
  let call ← request.on session.storageUrl
  let call := call.withHeader "x-auth-token" session.token
  if call.isSendable then return call.complete else throw (.http .badRequest)

/-- The headers with which it is sent, apart from the token. -/
def otherHeaders (request : AccountRequest) : Http.Headers :=
  request.headers ++ HttpCall.usualHeaders.filter fun header => (request.headers.get? header.1).isNone

/-- The call is this request in this session. -/
structure SentAs (request : AccountRequest) (session : SwiftSession) (call : HttpCall) : Prop where
  method : call.method = request.method
  url : call.url = request.place.url session.storageUrl
  token : call.headers.get? "x-auth-token" = some session.token
  others : call.headers.filter (fun header => header.1 != "x-auth-token") = request.otherHeaders
  body : call.body = request.body

theorem sent_eq_ok_iff :
    request.sent session = .ok call ↔
      ∃ plain, request.on session.storageUrl = .ok plain ∧
        (plain.withHeader "x-auth-token" session.token).isSendable = true ∧
        call = (plain.withHeader "x-auth-token" session.token).complete := by
  unfold sent
  cases request.on session.storageUrl with
  | error e => simp [bind, Except.bind]
  | ok plain =>
    simp only [bind, Except.bind, Except.ok.injEq, exists_eq_left']
    split
    · next h => simp [h, pure, Except.pure, eq_comm]
    · next h => simp [h, throw, throwThe, MonadExceptOf.throw]

theorem eq_of_on_eq_ok {storage : Url} (h : request.on storage = .ok call) :
    call = ⟨request.method, request.place.url storage, request.headers, request.body⟩ := by
  unfold on at h
  split at h
  · exact (Except.ok.inj h).symm
  · cases h

theorem ne_token_of_mem_usualHeaders {header : String × String}
    (h : header ∈ HttpCall.usualHeaders) : header.1 ≠ "x-auth-token" := by
  revert header
  decide

/-- The token goes between the headers of the request and the usual ones, of which none is lost for it. -/
theorem headers_complete_withHeader (call : HttpCall) (token : String) :
    (call.withHeader "x-auth-token" token).complete.headers = call.headers ++ [("x-auth-token", token)]
      ++ HttpCall.usualHeaders.filter fun header => (call.headers.get? header.1).isNone := by
  refine congrArg _ (List.filter_congr fun header hheader => ?_)
  have hne : header.1 ≠ "x-auth-token" := ne_token_of_mem_usualHeaders hheader
  have hlookup : [("x-auth-token", token)].lookup header.1 = none := by
    refine List.lookup_eq_none_iff.2 fun entry hentry => ?_
    rw [List.mem_singleton.1 hentry]
    exact bne_iff_ne.2 hne
  simp [HttpCall.withHeader, Http.Headers.get?, List.lookup_append, hlookup]

/-- What is sent is the request: at its place below the storage URL of the session, with the token of the session. -/
theorem sentAs_of_sent (h : request.sent session = .ok call) : request.SentAs session call := by
  obtain ⟨plain, hon, -, rfl⟩ := sent_eq_ok_iff.1 h
  cases eq_of_on_eq_ok hon
  have hnone : request.headers.lookup "x-auth-token" = none :=
    List.lookup_eq_none_iff.2 fun header hheader =>
      bne_iff_ne.2 (request.tokenless header hheader).symm
  refine ⟨rfl, rfl, ?_, ?_, rfl⟩
  · rw [headers_complete_withHeader]
    simp [Http.Headers.get?, List.lookup_append, hnone]
  · rw [headers_complete_withHeader, List.filter_append, List.filter_append]
    have hrequest : request.headers.filter (fun header => header.1 != "x-auth-token") = request.headers :=
      List.filter_eq_self.2 fun header hheader => bne_iff_ne.2 (request.tokenless header hheader)
    have husual (p : String × String → Bool) :
        (HttpCall.usualHeaders.filter p).filter (fun header => header.1 != "x-auth-token")
          = HttpCall.usualHeaders.filter p :=
      List.filter_eq_self.2 fun header hheader =>
        bne_iff_ne.2 (ne_token_of_mem_usualHeaders (List.mem_filter.1 hheader).1)
    rw [husual, hrequest]
    simp [otherHeaders]

end AccountRequest

/-! ## Authentication -/

/-- At most one message is sent, and that without a token. -/
def Anonymous (log : HttpLog) : Prop :=
  log.length ≤ 1 ∧ ∀ message ∈ log, message.1.headers.get? "x-auth-token" = none

namespace SwiftAuth

open HttpAction (Silent silent_except silent_throw)

theorem anonymous_nil : Anonymous [] := ⟨Nat.zero_le 1, nofun⟩

theorem anonymous_of_trace_send {call : HttpCall} (htoken : call.headers.get? "x-auth-token" = none)
    {log : HttpLog} {r : Except StoreError (Http.Response Payload)} (h : Trace call.send.run log r) :
    Anonymous log := by
  rcases HttpAction.trace_send_iff.1 h with ⟨-, rfl, -⟩ | ⟨-, reply, rfl, -⟩
  · exact anonymous_nil
  · refine ⟨Nat.le_refl 1, fun message hmessage => ?_⟩
    cases List.mem_singleton.1 hmessage
    have husual (p : String × String → Bool) :
        (HttpCall.usualHeaders.filter p).lookup "x-auth-token" = none :=
      List.lookup_eq_none_iff.2 fun header hheader =>
        bne_iff_ne.2 (AccountRequest.ne_token_of_mem_usualHeaders (List.mem_filter.1 hheader).1).symm
    have hcall : call.headers.lookup "x-auth-token" = none := htoken
    simp [HttpCall.complete, Http.Headers.get?, List.lookup_append, hcall, husual]

theorem anonymous_exchange {method url : String} {headers : Http.Headers} {body : Payload}
    (htoken : headers.get? "x-auth-token" = none) {log : HttpLog}
    {r : Except StoreError (Http.Response Payload)}
    (h : Trace (exchange method url headers body).run log r) : Anonymous log := by
  unfold exchange at h
  split at h
  · exact (silent_throw _ _ _ h) ▸ anonymous_nil
  · rcases HttpAction.trace_bind_iff.1 h with ⟨e, hsend, -⟩ | ⟨response, first, rest, rfl, hsend, hrest⟩
    · exact anonymous_of_trace_send htoken hsend
    · have hnil : rest = [] := by
        split at hrest
        · exact (Interaction.trace_done_iff.1 hrest).1
        · exact silent_throw _ _ _ hrest
      rw [hnil, List.append_nil]
      exact anonymous_of_trace_send htoken hsend

/-- Once a message is answered, the rest of an authentication is a matter of what the answer says. -/
theorem anonymous_bind {α β : Type} {x : HttpAction β} {f : β → HttpAction α}
    (hx : ∀ log r, Trace x.run log r → Anonymous log) (hf : ∀ b, Silent (f b)) {log : HttpLog}
    {r : Except StoreError α} (h : Trace (x >>= f).run log r) : Anonymous log := by
  rcases HttpAction.trace_bind_iff.1 h with ⟨e, hfail, -⟩ | ⟨b, first, rest, rfl, hfirst, hrest⟩
  · exact hx _ _ hfail
  · rw [hf b _ _ hrest, List.append_nil]
    exact hx _ _ hfirst

/-- An authentication asks once, and with no token. -/
theorem anonymous_authenticate {config : SwiftConfig} {log : HttpLog}
    {r : Except StoreError SwiftSession} (h : Trace (authenticate config).run log r) :
    Anonymous log := by
  unfold authenticate at h
  split at h
  · refine anonymous_bind (fun _ _ => anonymous_exchange rfl) (fun response => ?_) h
    refine (silent_except _).bind fun url => ?_
    exact (silent_except _).bind fun token => silent_except _
  · refine anonymous_bind (fun _ _ => anonymous_exchange rfl) (fun response => ?_) h
    refine (silent_except _).bind fun found => ?_
    dsimp only
    split
    · exact silent_except _
    · exact silent_throw _
  · refine anonymous_bind (fun _ _ => anonymous_exchange rfl) (fun response => ?_) h
    refine (silent_except _).bind fun token => ?_
    refine (silent_except _).bind fun catalog => ?_
    split
    · exact silent_except _
    · exact silent_throw _

end SwiftAuth

/-! ## Exchanges -/

/-- What happens in the course of a session. -/
inductive SwiftEvent where
  /-- A request on the account, and what came of it. -/
  | storage (request : AccountRequest) (call : HttpCall) (reply : HttpReply call)
  /-- An attempt to begin a new session, with its messages. -/
  | authentication (result : Except StoreError SwiftSession) (log : HttpLog)
  /-- A question about what the cluster can do, which has no token. -/
  | info (call : HttpCall) (reply : HttpReply call)

namespace SwiftEvent

def log : SwiftEvent → HttpLog
  | .storage _ call reply => [⟨call, reply⟩]
  | .authentication _ log => log
  | .info call reply => [⟨call, reply⟩]

/-- The session after an event of this one. -/
def next (s : SwiftSession) : SwiftEvent → SwiftSession
  | .authentication (.ok t) _ => t
  | .authentication (.error _) _ => s
  | .storage _ _ _ => s
  | .info _ _ => s

/-- In this session, the event has the token and the storage URL that it should have: a request on the account has
those of the session, and nothing else has a token. -/
def Due (s : SwiftSession) : SwiftEvent → Prop
  | .storage request call _ => request.SentAs s call
  | .authentication _ log => Anonymous log
  | .info call _ => call.headers.get? "x-auth-token" = none

/-- The session that was begun last. -/
def current (s : SwiftSession) (events : List SwiftEvent) : SwiftSession := events.foldl next s

/-- Each event is as it should be in the session that was begun last before it. -/
def AllDue : SwiftSession → List SwiftEvent → Prop
  | _, [] => True
  | s, event :: events => event.Due s ∧ AllDue (event.next s) events

theorem allDue_append_iff {s : SwiftSession} {events rest : List SwiftEvent} :
    AllDue s (events ++ rest) ↔ AllDue s events ∧ AllDue (current s events) rest := by
  induction events generalizing s with
  | nil => exact (true_and _).symm ▸ Iff.rfl
  | cons event events ih => exact (and_congr_right fun _ => ih).trans and_assoc.symm

/-- The events lead from session `s` to session `t`, and each is as it should be where it is. -/
structure Leads (s : SwiftSession) (events : List SwiftEvent) (t : SwiftSession) : Prop where
  allDue : AllDue s events
  current : current s events = t

namespace Leads

variable {s t u : SwiftSession} {events rest : List SwiftEvent}

theorem nil (s : SwiftSession) : Leads s [] s := ⟨trivial, rfl⟩

theorem append (h : Leads s events t) (hrest : Leads t rest u) : Leads s (events ++ rest) u := by
  obtain ⟨hdue, rfl⟩ := h
  exact ⟨allDue_append_iff.2 ⟨hdue, hrest.allDue⟩, List.foldl_append.trans hrest.current⟩

end Leads

end SwiftEvent

/-- The token was not taken. -/
def Unauthorized (reply : Except HttpFailure (Http.Response Payload)) : Prop :=
  ∃ response, reply = .ok response ∧ response.status = 401

/-- What is made of the last reply of an exchange. -/
def verdict (reply : Except HttpFailure (Http.Response Payload)) :
    Except StoreError (Http.Response Payload) :=
  reply.mapError StoreError.http >>= checkStatus

/-- A request is sent once, or, exactly if its token is not taken, a new session is begun and the request is sent once
more in that. A failed authentication is the failure of the exchange and leaves the session as it was. Where the
request cannot be sent at all, that is the failure, and nothing is sent. -/
inductive Exchange (config : SwiftConfig) (request : AccountRequest) (s : SwiftSession) :
    List SwiftEvent → Except StoreError (Http.Response Payload) → SwiftSession → Prop where
  | unsent {e : StoreError} : request.sent s = .error e → Exchange config request s [] (.error e) s
  | answered {call : HttpCall} (reply : HttpReply call) :
    request.sent s = .ok call → ¬Unauthorized reply →
    Exchange config request s [.storage request call reply] (verdict reply) s
  | refused {call : HttpCall} {reply : HttpReply call} {e : StoreError} {log : HttpLog} :
    request.sent s = .ok call → Unauthorized reply →
    Trace (SwiftAuth.authenticate config).run log (.error e) →
    Exchange config request s [.storage request call reply, .authentication (.error e) log] (.error e) s
  | repeated {call call' : HttpCall} {reply : HttpReply call} (reply' : HttpReply call')
    {t : SwiftSession} {log : HttpLog} :
    request.sent s = .ok call → Unauthorized reply →
    Trace (SwiftAuth.authenticate config).run log (.ok t) → request.sent t = .ok call' →
    Exchange config request s
      [.storage request call reply, .authentication (.ok t) log, .storage request call' reply']
      (verdict reply') t
  | unrepeated {call : HttpCall} {reply : HttpReply call} {e : StoreError} {t : SwiftSession}
    {log : HttpLog} :
    request.sent s = .ok call → Unauthorized reply →
    Trace (SwiftAuth.authenticate config).run log (.ok t) → request.sent t = .error e →
    Exchange config request s [.storage request call reply, .authentication (.ok t) log] (.error e) t

theorem Exchange.leads {config : SwiftConfig} {request : AccountRequest} {s t : SwiftSession}
    {events : List SwiftEvent} {r : Except StoreError (Http.Response Payload)}
    (h : Exchange config request s events r t) : SwiftEvent.Leads s events t := by
  cases h with
  | unsent _ => exact .nil s
  | answered reply hsent _ => exact ⟨⟨AccountRequest.sentAs_of_sent hsent, trivial⟩, rfl⟩
  | refused hsent _ hauth | unrepeated hsent _ hauth _ =>
    exact ⟨⟨AccountRequest.sentAs_of_sent hsent, SwiftAuth.anonymous_authenticate hauth, trivial⟩, rfl⟩
  | repeated reply' hsent _ hauth hsent' =>
    exact ⟨⟨AccountRequest.sentAs_of_sent hsent, SwiftAuth.anonymous_authenticate hauth,
      AccountRequest.sentAs_of_sent hsent', trivial⟩, rfl⟩

/-! ## Sending -/

/-- A request is either not sent, or sent and not answered, or what follows goes on with the response. -/
theorem goes_sent {α : Type} {request : AccountRequest} {next : Http.Response Payload → SwiftAction α}
    {s t : SwiftSession} {log : HttpLog} {r : Except StoreError α}
    (h : Goes (do
      let call ← request.on s.storageUrl
      let response ← SwiftStore.lift (call.withHeader "x-auth-token" s.token).send
      next response) s log r t) :
    (∃ e, request.sent s = .error e ∧ log = [] ∧ r = .error e ∧ t = s) ∨
      ∃ call, ∃ reply : HttpReply call, request.sent s = .ok call ∧
        ((∃ failure, reply = .error failure ∧ log = [⟨call, reply⟩] ∧ r = .error (.http failure) ∧ t = s) ∨
          ∃ response rest, reply = .ok response ∧ log = ⟨call, reply⟩ :: rest ∧
            Goes (next response) s rest r t) := by
  rcases SwiftAction.goes_bind_iff.1 h with ⟨e, hbuild, rfl⟩ | ⟨plain, u, _, log, rfl, hbuild, hbuilt⟩
  · obtain ⟨rfl, hon, rfl⟩ := SwiftAction.goes_except_iff.1 hbuild
    exact .inl ⟨e, by rw [AccountRequest.sent, ← hon]; rfl, rfl, rfl, rfl⟩
  obtain ⟨rfl, hon, rfl⟩ := SwiftAction.goes_except_iff.1 hbuild
  have hsent : request.sent u = if (plain.withHeader "x-auth-token" u.token).isSendable then
      .ok (plain.withHeader "x-auth-token" u.token).complete else .error (.http .badRequest) := by
    rw [AccountRequest.sent, ← hon]
    rfl
  rcases SwiftAction.goes_bind_iff.1 hbuilt with ⟨e, hsend, rfl⟩ | ⟨response, v, _, rest, rfl, hsend, hnext⟩
  · obtain ⟨htrace, rfl⟩ := SwiftAction.goes_lift_iff.1 hsend
    rcases HttpAction.trace_send_iff.1 htrace with ⟨hbad, rfl, hr⟩ | ⟨hgood, reply, rfl, hr⟩
    · cases hr
      exact .inl ⟨_, by simpa [hbad] using hsent, rfl, rfl, rfl⟩
    · cases reply with
      | ok response => cases hr
      | error failure =>
        cases hr
        exact .inr ⟨_, .error failure, by simpa [hgood] using hsent, .inl ⟨failure, rfl, rfl, rfl, rfl⟩⟩
  · obtain ⟨htrace, rfl⟩ := SwiftAction.goes_lift_iff.1 hsend
    rcases HttpAction.trace_send_iff.1 htrace with ⟨-, -, hr⟩ | ⟨hgood, reply, rfl, hr⟩
    · cases hr
    · cases reply with
      | error failure => cases hr
      | ok answer =>
        cases hr
        exact .inr ⟨_, .ok response, by simpa [hgood] using hsent, .inr ⟨response, rest, rfl, rfl, hnext⟩⟩

/-- Whatever is answered, sending a request is an exchange. -/
theorem exchange_of_goes_send {config : SwiftConfig} {request : AccountRequest} {s t : SwiftSession}
    {log : HttpLog} {r : Except StoreError (Http.Response Payload)}
    (h : Goes (SwiftStore.send config request.on) s log r t) :
    ∃ events, log = events.flatMap SwiftEvent.log ∧ Exchange config request s events r t := by
  obtain ⟨e, hget, -⟩ | ⟨session, u, _, log, rfl, hget, hbody⟩ := SwiftAction.goes_bind_iff.1 h
  · exact absurd (SwiftAction.goes_get_iff.1 hget).2.1 nofun
  obtain ⟨rfl, hsession, rfl⟩ := SwiftAction.goes_get_iff.1 hget
  cases hsession
  rw [List.nil_append]
  obtain ⟨e, hsent, rfl, rfl, rfl⟩ | ⟨call, reply, hsent, hreply⟩ := goes_sent hbody
  · exact ⟨[], rfl, .unsent hsent⟩
  obtain ⟨failure, rfl, rfl, rfl, rfl⟩ | ⟨response, rest, rfl, rfl, hnext⟩ := hreply
  · refine ⟨_, rfl, .answered (.error failure) hsent fun hunauthorized => ?_⟩
    obtain ⟨_, hresponse, -⟩ := hunauthorized
    cases hresponse
  split at hnext
  · next hstatus =>
    obtain ⟨rfl, rfl, rfl⟩ := SwiftAction.goes_except_iff.1 hnext
    refine ⟨_, rfl, .answered (.ok response) hsent fun hunauthorized => ?_⟩
    obtain ⟨_, hresponse, hunauthorized⟩ := hunauthorized
    cases hresponse
    exact absurd hunauthorized (bne_iff_ne.1 hstatus)
  next hstatus =>
  have hunauthorized : Unauthorized (.ok response) :=
    ⟨response, rfl, Decidable.byContradiction fun hne => hstatus (bne_iff_ne.2 hne)⟩
  obtain ⟨e, hfailed, rfl⟩ | ⟨session', v, first, rest, rfl, hbegun, hset⟩ :=
    SwiftAction.goes_bind_iff.1 hnext
  · obtain ⟨hauthentication, rfl⟩ := SwiftAction.goes_lift_iff.1 hfailed
    exact ⟨_, by simp [SwiftEvent.log], .refused hsent hunauthorized hauthentication⟩
  obtain ⟨hauthentication, rfl⟩ := SwiftAction.goes_lift_iff.1 hbegun
  obtain ⟨e, hset, -⟩ | ⟨_, w, _, rest, rfl, hset, hbody'⟩ := SwiftAction.goes_bind_iff.1 hset
  · exact absurd (SwiftAction.goes_set_iff.1 hset).2.1 nofun
  obtain ⟨rfl, -, rfl⟩ := SwiftAction.goes_set_iff.1 hset
  obtain ⟨e, hsent', rfl, rfl, rfl⟩ | ⟨call', reply', hsent', hreply'⟩ := goes_sent hbody'
  · exact ⟨_, by simp [SwiftEvent.log], .unrepeated hsent hunauthorized hauthentication hsent'⟩
  obtain ⟨failure, rfl, rfl, rfl, rfl⟩ | ⟨response', _, rfl, rfl, hcheck⟩ := hreply'
  · refine ⟨_, ?_, .repeated (.error failure) hsent hunauthorized hauthentication hsent'⟩
    simp [SwiftEvent.log]
  · obtain ⟨rfl, rfl, rfl⟩ := SwiftAction.goes_except_iff.1 hcheck
    refine ⟨_, ?_, .repeated (.ok response') hsent hunauthorized hauthentication hsent'⟩
    simp [SwiftEvent.log]

end SegmentedFiles

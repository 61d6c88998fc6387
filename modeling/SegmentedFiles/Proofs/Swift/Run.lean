import SegmentedFiles.Proofs.Swift.Exchange

/-! # Running actions of a session on a server

With a server that answers in a known way, an action of a session comes to a result, a session and a state of the
server (`SwiftAction.runOn`). A request whose token is taken comes to what its answer says
(`runOn_send_of_answered`), and one whose token is not, to what the answer to its repetition says
(`runOn_send_of_repeated`). -/

namespace SegmentedFiles

open SwiftAction (Goes)

variable {τ α β : Type} {server : HttpServer τ} {s t u : SwiftSession} {state state' state'' state''' : τ}

namespace SwiftAction

/-- What an action comes to with this server. -/
def runOn (server : HttpServer τ) (x : SwiftAction α) (s : SwiftSession) (state : τ) :
    Except StoreError α × SwiftSession × τ :=
  let ((result, s), state) := Interaction.run server (x.run.run s) state
  (result, s, state)

theorem runOn_pure (a : α) : runOn server (pure a) s state = (.ok a, s, state) := rfl

theorem runOn_except (x : Except StoreError α) : runOn server (liftM x) s state = (x, s, state) := rfl

theorem runOn_get : runOn server get s state = (.ok s, s, state) := rfl

theorem runOn_set : runOn server (set t) s state = (.ok ⟨⟩, t, state) := rfl

theorem runOn_bind {x : SwiftAction β} {f : β → SwiftAction α} {b : β}
    (h : runOn server x s state = (.ok b, t, state')) :
    runOn server (x >>= f) s state = runOn server (f b) t state' := by
  have hbind : runOn server (x >>= f) s state
      = match runOn server x s state with
        | (.ok b, t, state) => runOn server (f b) t state
        | (.error e, t, state) => (.error e, t, state) := by
    have hrun := Interaction.run_bind server (x.run.run s)
      (fun result => match result with
        | (.ok b, t) => (f b).run.run t
        | (.error e, t) => .done (.error e, t)) state
    have hprogram : (x >>= f).run.run s = (x.run.run s).bind fun result => match result with
        | (.ok b, t) => (f b).run.run t
        | (.error e, t) => .done (.error e, t) := by
      refine congrArg _ (funext fun result => ?_)
      obtain ⟨result, t⟩ := result
      cases result <;> rfl
    simp only [runOn, hprogram, hrun]
    generalize Interaction.run server (x.run.run s) state = reached
    obtain ⟨⟨result, t⟩, state⟩ := reached
    cases result <;> rfl
  rw [hbind, h]

theorem runOn_lift {x : HttpAction α} {result : Except StoreError α}
    (h : Interaction.run server x.run state = (result, state')) :
    runOn server (SwiftStore.lift x) s state = (result, s, state') := by
  have hrun : Interaction.run server ((SwiftStore.lift x).run.run s) state = ((result, s), state') := by
    refine (Interaction.run_bind server x.run (fun result => .done (result, s)) state).trans ?_
    rw [h]
    rfl
  rw [runOn, hrun]

/-- A log of the messages does not change what an action comes to. -/
theorem runOn_logged {x : SwiftAction α} {result : Except StoreError α}
    (h : runOn server x s state = (result, t, state')) (log : HttpLog) :
    ∃ added, runOn (Interaction.logged server) x s (log, state) = (result, t, (log ++ added, state')) ∧
      Goes x s added result t := by
  obtain ⟨added, hrun, htrace⟩ := Interaction.run_logged server (x.run.run s) log state
  rw [runOn] at h
  generalize Interaction.run server (x.run.run s) state = reached at h hrun htrace
  obtain ⟨⟨result', t'⟩, state''⟩ := reached
  obtain ⟨rfl, hrest⟩ := Prod.mk.inj h
  obtain ⟨rfl, rfl⟩ := Prod.mk.inj hrest
  exact ⟨added, by rw [runOn, hrun], htrace⟩

end SwiftAction

open SwiftAction (runOn runOn_bind runOn_lift)

variable {config : SwiftConfig} {request : AccountRequest} {call call' : HttpCall}
  {response response' : Http.Response Payload}

/-- A request that can be sent and is answered: what follows goes on with the answer. -/
theorem runOn_sent {next : Http.Response Payload → SwiftAction α} (hsent : request.sent s = .ok call)
    (hreply : server call state = (.ok response, state')) :
    runOn server (do
      let call ← request.on s.storageUrl
      let response ← SwiftStore.lift (call.withHeader "x-auth-token" s.token).send
      next response) s state = runOn server (next response) s state' := by
  obtain ⟨plain, hon, hsendable, rfl⟩ := AccountRequest.sent_eq_ok_iff.1 hsent
  rw [hon]
  refine (runOn_bind (SwiftAction.runOn_except _)).trans (runOn_bind (runOn_lift ?_))
  rw [HttpCall.send, if_pos hsendable]
  refine (Interaction.run_bind server (Interaction.request _) _ state).trans ?_
  rw [Interaction.request, Interaction.run_ask, Interaction.run_done, hreply]
  rfl

/-- Sending a request whose token is taken. -/
theorem runOn_send_of_answered (hsent : request.sent s = .ok call)
    (hreply : server call state = (.ok response, state')) (hstatus : response.status ≠ 401) :
    runOn server (SwiftStore.send config request.on) s state = (checkStatus response, s, state') := by
  refine (runOn_bind SwiftAction.runOn_get).trans ((runOn_sent hsent hreply).trans ?_)
  have hne : (response.status != SwiftStore.unauthorized) = true := bne_iff_ne.2 hstatus
  rw [if_pos hne]
  rfl

/-- Sending a request whose token is not taken, but is in the session that is begun then. -/
theorem runOn_send_of_repeated (hsent : request.sent s = .ok call)
    (hreply : server call state = (.ok response, state')) (hstatus : response.status = 401)
    (hauth : Interaction.run server (SwiftAuth.authenticate config).run state' = (.ok t, state''))
    (hsent' : request.sent t = .ok call') (hreply' : server call' state'' = (.ok response', state''')) :
    runOn server (SwiftStore.send config request.on) s state = (checkStatus response', t, state''') := by
  refine (runOn_bind SwiftAction.runOn_get).trans ((runOn_sent hsent hreply).trans ?_)
  have hne : ¬(response.status != SwiftStore.unauthorized) = true := fun hne => bne_iff_ne.1 hne hstatus
  rw [if_neg hne]
  refine (runOn_bind (runOn_lift hauth)).trans ((runOn_bind SwiftAction.runOn_set).trans ?_)
  exact runOn_sent hsent' hreply'

namespace SwiftStore

theorem answer_eq_runOn (server : HttpServer τ) (config : SwiftConfig) (pages : Nat) (call : StoreCall)
    (s : SwiftSession) (state : τ) :
    answer server config pages call (s, state) = runOn server (perform config pages call) s state := rfl

/-! ## A cluster that begins sessions anew -/

def sampleStorage : Url := ⟨"https", some "swift.example", "/v1/AUTH_t", none, none⟩

def sampleConfig : SwiftConfig :=
  ⟨"user", "secret", "https://swift.example/auth/v1.0", "", "", "", "", "", false, 10, 60⟩

def sampleSession : SwiftSession := ⟨sampleStorage, "token"⟩

/-- A cluster that begins sessions with a fresh token, and takes no other. -/
def freshServer (answer : HttpCall → Http.Response Payload) : HttpServer Unit := fun call state =>
  match call.headers.get? "x-auth-token" with
  | none =>
    (.ok ⟨200, [("x-storage-url", "https://swift.example/v1/AUTH_t"), ("x-auth-token", "fresh")],
      ByteArray.empty⟩, state)
  | some token => (.ok (if token = "fresh" then answer call else ⟨401, [], ByteArray.empty⟩), state)

theorem freshServer_of_fresh {answer : HttpCall → Http.Response Payload} {call : HttpCall}
    (h : call.headers.get? "x-auth-token" = some "fresh") (state : Unit) :
    freshServer answer call state = (.ok (answer call), state) := by
  simp [freshServer, h]

theorem freshServer_of_ne {answer : HttpCall → Http.Response Payload} {call : HttpCall} {token : String}
    (h : call.headers.get? "x-auth-token" = some token) (hne : token ≠ "fresh") (state : Unit) :
    freshServer answer call state = (.ok ⟨401, [], ByteArray.empty⟩, state) := by
  simp [freshServer, h, hne]

/-- What such a cluster answers to others has no part in how a session is begun. -/
theorem run_authenticate_freshServer (answer : HttpCall → Http.Response Payload) :
    Interaction.run (freshServer answer) (SwiftAuth.authenticate sampleConfig).run ()
      = (.ok ⟨sampleStorage, "fresh"⟩, ()) := by
  with_unfolding_all rfl

end SwiftStore

end SegmentedFiles

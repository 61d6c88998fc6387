import SegmentedFiles.Proofs.Swift.Listing
import SegmentedFiles.Proofs.Swift.References

/-! # Listings that come in pages

A cluster reads from the query of a request behind which name a page is to begin (`markerOf`), and what is
sent for a page has the marker there, with the other parameters of the listing
(`parameters_of_sent`). So on a cluster that lists entries in the order of their names, page after page is
what no page before it has had. The listing ends with the first page that is not full, which is the page of
the number of full ones, and has all entries then (`listing_complete`). Between any two pages the token may
stop being taken. -/

namespace SegmentedFiles

open SwiftAction (runOn runOn_bind Goes)
open SwiftStore (listingRequest pageOf marker? firstAfter)

/-- The parameters in the query of a URL. -/
def Url.parameters (u : Url) : List (String × String) := Query.parameters (u.query.getD "")

/-- In the session, requests for pages can be sent, and its storage URL does not have a marker already. -/
structure SwiftSession.Lists (s : SwiftSession) : Prop where
  hasNames : s.storageUrl.hasNames = true
  isHttp : s.storageUrl.isHttp = true
  token : Http.isHeaderValue s.token = true
  unmarked : ∀ parameter ∈ s.storageUrl.parameters, parameter.1 ≠ "marker"

/-- The name behind which a call asks for entries, if it names one. Of several the last counts. -/
def HttpCall.markerOf (call : HttpCall) : Option String :=
  ((call.url.parameters.filter fun parameter => parameter.1 == "marker").map Prod.snd).getLast?

/-- The requests are made one after the other, each with success. -/
inductive Made (config : SwiftConfig) :
    SwiftSession → List AccountRequest → List SwiftEvent → SwiftSession → Prop where
  | nil (s : SwiftSession) : Made config s [] [] s
  | cons {request : AccountRequest} {requests : List AccountRequest} {s t u : SwiftSession}
    {events rest : List SwiftEvent} {response : Http.Response Payload} :
    Exchange config request s events (.ok response) t → Made config t requests rest u →
    Made config s (request :: requests) (events ++ rest) u

namespace SwiftStore

variable {τ : Type} {server : HttpServer τ} {config : SwiftConfig} {container : String} {options : ListOptions}
  {entries : List ListedEntry} {taken : SwiftSession → τ → Prop} {s : SwiftSession} {marker : Option String}
  {call : HttpCall}

/-! ## What is sent for a page -/

/-- An empty query is left out. -/
theorem getD_unless_empty (query : String) :
    (if query.isEmpty then none else some query : Option String).getD "" = query := by
  split
  · next hempty => rw [Option.getD_none, String.isEmpty_iff.1 hempty]
  · rfl

theorem parameters_withParameters (url : Url) (parameters : List (String × String)) :
    (withParameters url parameters).parameters = url.parameters ++ parameters := by
  have hadded := Query.parameters_encode parameters
  rw [Url.parameters, withParameters]
  dsimp only
  rw [getD_unless_empty, Url.parameters]
  cases url.query with
  | none => exact hadded
  | some query =>
    dsimp only
    split
    · next hempty =>
      rw [hadded, Option.getD_some, String.isEmpty_iff.1 hempty, Query.parameters_empty, List.nil_append]
    · rw [Query.parameters_append, hadded, Option.getD_some]

/-- The parameters that a request for a page has on its way: those of the storage URL, and those of the page. -/
theorem parameters_of_sent (hsent : (listingRequest container options marker).sent s = .ok call) :
    call.url.parameters = s.storageUrl.parameters ++
      ([("format", "json"), ("limit", "10000"), ("prefix", options.start)]
        ++ (options.delimiter.map fun d => ("delimiter", String.singleton d)).toList
        ++ (marker.map fun m => ("marker", m)).toList) := by
  obtain ⟨-, hurl, -⟩ := AccountRequest.sentAs_of_sent hsent
  rw [hurl]
  exact parameters_withParameters (s.storageUrl.addNames [container]) _

/-- The marker is read back from the query. -/
theorem markerOf_of_sent (hs : s.Lists) (hsent : (listingRequest container options marker).sent s = .ok call) :
    call.markerOf = marker := by
  have hown : s.storageUrl.parameters.filter (fun parameter => parameter.1 == "marker") = [] :=
    List.filter_eq_nil_iff.2 fun parameter hparameter => by simpa using hs.unmarked parameter hparameter
  rw [HttpCall.markerOf, parameters_of_sent hsent, List.filter_append, hown, List.nil_append]
  cases options.delimiter <;> cases marker <;> rfl

theorem exists_sent (hs : s.Lists) (container : String) (options : ListOptions) (marker : Option String) :
    ∃ call, (listingRequest container options marker).sent s = .ok call := by
  refine ⟨_, AccountRequest.sent_eq_ok_iff.2 ⟨_, if_pos hs.hasNames, ?_, rfl⟩⟩
  rw [HttpCall.isSendable, Bool.and_eq_true]
  exact ⟨hs.isHttp, by simpa [HttpCall.withHeader, listingRequest] using hs.token⟩

/-! ## Clusters -/

/-- The server lists the entries for requests with these options, in pages. In a session whose token is
taken it answers with the first entries behind the marker that it reads from the request; else it refuses the
request and lets a new session be begun. -/
structure ListsPages (server : HttpServer τ) (config : SwiftConfig) (container : String) (options : ListOptions)
    (entries : List ListedEntry) (taken : SwiftSession → τ → Prop) : Prop where
  page : ∀ {s marker call} (state : τ), s.Lists → (listingRequest container options marker).sent s = .ok call →
    taken s state → ∃ response state' values, server call state = (.ok response, state') ∧
      Http.isSuccess response.status = true ∧ Json.parse response.body = .ok (.array values) ∧
      List.Forall₂ ListedEntry.Writes (firstAfter entries call.markerOf) values
  refusal : ∀ {s marker call} (state : τ), s.Lists → (listingRequest container options marker).sent s = .ok call →
    ¬taken s state → ∃ response state' t state'', server call state = (.ok response, state') ∧
      response.status = 401 ∧
      Interaction.run server (SwiftAuth.authenticate config).run state' = (.ok t, state'') ∧
      t.Lists ∧ taken t state''

theorem runOn_send (hserver : ListsPages server config container options entries taken) (hs : s.Lists)
    (marker : Option String) (state : τ) :
    ∃ response t state', runOn server (send config (listingRequest container options marker).on) s state
        = (.ok response, t, state') ∧ t.Lists ∧
      SwiftAuth.bodyOf SwiftAnswer.page? response = .ok ((firstAfter entries marker).map ListedEntry.info) := by
  have hpage : ∀ {t : SwiftSession} {call : HttpCall} {response : Http.Response Payload} {values : List Json},
      t.Lists → (listingRequest container options marker).sent t = .ok call →
      Json.parse response.body = .ok (.array values) →
      List.Forall₂ ListedEntry.Writes (firstAfter entries call.markerOf) values →
      SwiftAuth.bodyOf SwiftAnswer.page? response = .ok ((firstAfter entries marker).map ListedEntry.info) := by
    intro t call response values ht hsent hbody hwrites
    rw [markerOf_of_sent ht hsent] at hwrites
    rw [SwiftAuth.bodyOf, hbody]
    dsimp only [Except.toOption, Option.bind_some]
    rw [ListedEntry.page?_of_writes hwrites]
  obtain ⟨call, hsent⟩ := exists_sent hs container options marker
  by_cases htaken : taken s state
  · obtain ⟨response, state', values, hreply, hstatus, hbody, hwrites⟩ := hserver.page state hs hsent htaken
    refine ⟨response, s, state', ?_, hs, hpage hs hsent hbody hwrites⟩
    rw [runOn_send_of_answered hsent hreply (ne_unauthorized_of_isSuccess hstatus), checkStatus_of_isSuccess hstatus]
  · obtain ⟨refused, state', t, state'', hreply, hrefused, hauth, ht, htaken'⟩ :=
      hserver.refusal state hs hsent htaken
    obtain ⟨call', hsent'⟩ := exists_sent ht container options marker
    obtain ⟨response, state''', values, hreply', hstatus, hbody, hwrites⟩ :=
      hserver.page state'' ht hsent' htaken'
    refine ⟨response, t, state''', ?_, ht, hpage ht hsent' hbody hwrites⟩
    rw [runOn_send_of_repeated hsent hreply hrefused hauth hsent' hreply', checkStatus_of_isSuccess hstatus]

/-! ## Pages -/

/-- Asking for a page is one exchange, whether or not the token is taken at first. -/
theorem runOn_listPage (hserver : ListsPages server config container options entries taken) (hs : s.Lists)
    (marker : Option String) (log : HttpLog) (state : τ) :
    ∃ response t state' events,
      runOn (Interaction.logged server) (listPage config container options marker) s (log, state)
        = (.ok ((firstAfter entries marker).map ListedEntry.info), t,
          (log ++ events.flatMap SwiftEvent.log, state')) ∧ t.Lists ∧
      Exchange config (listingRequest container options marker) s events (.ok response) t := by
  obtain ⟨response, t, state', hrun, ht, hbody⟩ := runOn_send hserver hs marker state
  obtain ⟨added, hlogged, hgoes⟩ := SwiftAction.runOn_logged hrun log
  obtain ⟨events, rfl, hexchange⟩ := exchange_of_goes_send hgoes
  refine ⟨response, t, state', events, ?_, ht, hexchange⟩
  rw [listPage, pageRequest_eq_on]
  refine (runOn_bind hlogged).trans ?_
  rw [hbody]
  exact SwiftAction.runOn_except _

/-- The last name of a page is where the next one begins. -/
theorem getLast?_map_info (entries : List ListedEntry) (i : Nat) :
    ((pageOf entries i).map ListedEntry.info).getLast?.map ObjectInfo.name = marker? entries (i + 1) := by
  rw [marker?, List.getLast?_map, Option.map_map]
  exact congrArg (Option.map · _) (funext ListedEntry.name_info)

/-- From page `i` on, the listing goes up to the page of the number of full ones. -/
theorem runOn_listFrom (hserver : ListsPages server config container options entries taken)
    (hsorted : entries.Pairwise fun a b => a.name < b.name) {i n pages : Nat}
    (hn : i + n = entries.length / 10000) (hpages : n < pages) (hs : s.Lists) (log : HttpLog) (state : τ) :
    ∃ t state' events,
      runOn (Interaction.logged server) (listFrom config container options pages (marker? entries i)) s
          (log, state)
        = (.ok ((entries.drop (i * 10000)).map ListedEntry.info), t,
          (log ++ events.flatMap SwiftEvent.log, state')) ∧
      Made config s
        ((List.range' i (n + 1)).map fun i => listingRequest container options (marker? entries i)) events t := by
  -- The induction is on the number of full pages that are still ahead.
  induction n generalizing i pages s log state with
  | zero =>
    obtain ⟨pages, rfl⟩ := Nat.exists_eq_add_one_of_ne_zero (Nat.ne_zero_of_lt hpages)
    rw [Nat.add_zero] at hn
    have hlast : entries.length < i * 10000 + 10000 := hn ▸ Nat.lt_div_mul_add (by decide)
    obtain ⟨response, t, state', events, hpage, -, hexchange⟩ :=
      runOn_listPage hserver hs (marker? entries i) log state
    rw [firstAfter_marker? hsorted (hn ▸ Nat.div_mul_le_self _ _)] at hpage
    have hrest : pageOf entries i = entries.drop (i * pageSize) := by
      refine List.take_of_length_le ?_
      rw [List.length_drop]
      omega
    have hshort : ((pageOf entries i).map ListedEntry.info).length < pageSize := by
      rw [List.length_map, length_pageOf, pageSize]
      omega
    refine ⟨t, state', events, ?_, List.append_nil events ▸ .cons hexchange (.nil t)⟩
    refine (runOn_bind hpage).trans ?_
    rw [if_pos hshort, hrest]
    exact SwiftAction.runOn_pure _
  | succ n ih =>
    obtain ⟨pages, rfl⟩ := Nat.exists_eq_add_one_of_ne_zero (Nat.ne_zero_of_lt hpages)
    have hfull : i * 10000 + 10000 ≤ entries.length := by
      rw [← Nat.succ_mul, ← Nat.le_div_iff_mul_le (by decide)]
      omega
    obtain ⟨response, t, state', events, hpage, ht, hexchange⟩ :=
      runOn_listPage hserver hs (marker? entries i) log state
    rw [firstAfter_marker? hsorted (Nat.le_of_add_right_le hfull)] at hpage
    have hlong : ¬((pageOf entries i).map ListedEntry.info).length < pageSize := by
      rw [List.length_map, length_pageOf, pageSize]
      omega
    obtain ⟨u, state'', rest, hrest, hmade⟩ :=
      ih (i := i + 1) (by omega) (Nat.lt_of_succ_lt_succ hpages) ht (log ++ events.flatMap SwiftEvent.log) state'
    refine ⟨u, state'', events ++ rest, ?_, .cons hexchange hmade⟩
    refine (runOn_bind hpage).trans ?_
    rw [if_neg hlong, getLast?_map_info]
    refine (runOn_bind hrest).trans ?_
    rw [SwiftAction.runOn_pure, drop_eq_pageOf_append entries i, List.map_append, List.flatMap_append,
      List.append_assoc]

/-! ## Listings -/

/-- A listing comes to an end and has all entries of the server, each once and in order, also if the last
page that has any is full and also if the token of the session, or of one begun later, is not taken any more.
The exchanges are as many as there are full pages, and one: each asks for the same entries of the container,
behind the last name of the page before it, and that is what goes out in the query. -/
theorem listing_complete (hserver : ListsPages server config container options entries taken)
    (hsorted : entries.Pairwise fun a b => a.name < b.name) (hs : s.Lists) {pages : Nat}
    (hpages : entries.length / 10000 < pages) (state : τ) :
    (∃ t state' events,
      answer (Interaction.logged server) config pages (.list container options) (s, ([], state))
        = (.ok (entries.map ListedEntry.info), (t, (events.flatMap SwiftEvent.log, state'))) ∧
      Made config s ((List.range (entries.length / 10000 + 1)).map fun i =>
        listingRequest container options (marker? entries i)) events t) ∧
    (∀ i ≤ entries.length / 10000,
      marker? entries (i + 1) = (firstAfter entries (marker? entries i)).getLast?.map ListedEntry.name) ∧
    ∀ t marker call, (listingRequest container options marker).sent t = .ok call →
      call.method = "GET" ∧ call.url.path = (t.storageUrl.addNames [container]).path ∧
      call.url.parameters = t.storageUrl.parameters ++
        ([("format", "json"), ("limit", "10000"), ("prefix", options.start)]
          ++ (options.delimiter.map fun d => ("delimiter", String.singleton d)).toList
          ++ (marker.map fun m => ("marker", m)).toList) := by
  refine ⟨?_, fun i hi => ?_, fun t marker call hsent => ?_⟩
  · obtain ⟨t, state', events, hrun, hmade⟩ :=
      runOn_listFrom hserver hsorted (Nat.zero_add _) hpages hs [] state
    rw [Nat.zero_mul, List.drop_zero, List.nil_append] at hrun
    rw [← List.range_eq_range'] at hmade
    exact ⟨t, state', events, (answer_eq_runOn ..).trans hrun, hmade⟩
  · rw [firstAfter_marker? hsorted ((Nat.le_div_iff_mul_le (by decide)).1 hi), marker?]
  · obtain ⟨hmethod, hurl, -⟩ := AccountRequest.sentAs_of_sent hsent
    have hpath := congrArg Url.path hurl
    exact ⟨hmethod, hpath, parameters_of_sent hsent⟩

/-- A directory, and an object. -/
def sampleEntries : List ListedEntry := [.subdir "a/", .object "b" 3 none none none]

/-- A value that tells an entry, with no more of an object than is needed. -/
def toldAs : ListedEntry → Json
  | .subdir name => .object [("subdir", .string name)]
  | .object name bytes _ _ _ => .object [("name", .string name), ("bytes", .integer bytes)]

/-- The answer to who asks for a page of these entries, up to the next slash. -/
def sampleAnswer (call : HttpCall) : Http.Response Payload :=
  if [("limit", "10000"), ("prefix", ""), ("delimiter", "/")] ⊆ call.url.parameters then
    ⟨200, [], Payload.ofText (Json.array ((firstAfter sampleEntries call.markerOf).map toldAs)).text⟩
  else ⟨400, [], ByteArray.empty⟩

theorem writes_toldAs {e : ListedEntry} (h : e ∈ sampleEntries) : e.Writes (toldAs e) := by
  have hmissing : ∀ name ∈ ["subdir", "content_type", "last_modified", "hash"],
      ListedEntry.Column [("name", .string "b"), ("bytes", .integer 3)] name none := by
    simp [ListedEntry.Column]
  rcases List.mem_pair.1 h with rfl | rfl
  · exact .subdir rfl
  · exact .object (hmissing _ (by decide)) (by decide) rfl rfl (hmissing _ (by decide)) (hmissing _ (by decide))
      (hmissing _ (by decide))

/-- What is told of them behind any marker is read as the values it was written from. -/
theorem parse_toldAs (marker : Option String) :
    Json.parse (Payload.ofText (Json.array ((firstAfter sampleEntries marker).map toldAs)).text)
      = .ok (.array ((firstAfter sampleEntries marker).map toldAs)) := by
  rw [firstAfter, sampleEntries, List.filter_cons, List.filter_cons, List.filter_nil]
  split <;> split <;> rfl

/-- The requests for pages ask for what there is an answer to. -/
theorem sampleAnswer_of_sent (hsent : (listingRequest "files" ⟨"", some '/'⟩ marker).sent s = .ok call) :
    sampleAnswer call
      = ⟨200, [], Payload.ofText (Json.array ((firstAfter sampleEntries call.markerOf).map toldAs)).text⟩ := by
  refine if_pos ?_
  rw [parameters_of_sent hsent]
  simp

theorem listsPages_freshServer :
    ListsPages (freshServer sampleAnswer) sampleConfig "files" ⟨"", some '/'⟩ sampleEntries
      fun s _ => s.token = "fresh" where
  page := by
    intro s marker call state hs hsent htoken
    have hheader := (AccountRequest.sentAs_of_sent hsent).token
    rw [htoken] at hheader
    refine ⟨_, state, (firstAfter sampleEntries call.markerOf).map toldAs, freshServer_of_fresh hheader state, ?_⟩
    rw [sampleAnswer_of_sent hsent]
    refine ⟨rfl, parse_toldAs call.markerOf, ?_⟩
    refine List.forall₂_map_right_iff.2 (List.forall₂_same.2 fun e he => writes_toldAs ?_)
    exact (List.mem_filter.1 (List.mem_of_mem_take he)).1
  refusal := by
    intro s marker call state hs hsent htoken
    have hheader := (AccountRequest.sentAs_of_sent hsent).token
    refine ⟨_, state, _, (), freshServer_of_ne hheader htoken state, rfl, run_authenticate_freshServer _, ?_, rfl⟩
    exact ⟨rfl, rfl, by decide, nofun⟩

/-- A listing of a directory and an object takes one page. The token is refused for it, and a new session
begun. -/
theorem listing_complete_of_subdir :
    ListsPages (freshServer sampleAnswer) sampleConfig "files" ⟨"", some '/'⟩ sampleEntries
        (fun s _ => s.token = "fresh") ∧
      sampleSession.Lists ∧ ∃ t state events,
        answer (Interaction.logged (freshServer sampleAnswer)) sampleConfig 1 (.list "files" ⟨"", some '/'⟩)
            (sampleSession, ([], ()))
          = (.ok [ObjectInfo.group "a/", ⟨"b", 3, "", .epoch, none, none, false⟩],
            (t, (events.flatMap SwiftEvent.log, state))) ∧
        Made sampleConfig sampleSession [listingRequest "files" ⟨"", some '/'⟩ none] events t := by
  have hsession : sampleSession.Lists := ⟨rfl, rfl, by decide, nofun⟩
  obtain ⟨⟨t, state, events, hanswer, hmade⟩, -⟩ :=
    listing_complete listsPages_freshServer (by decide) hsession (by decide : 0 < 1) ()
  exact ⟨listsPages_freshServer, hsession, t, state, events, hanswer, hmade⟩

end SwiftStore

end SegmentedFiles

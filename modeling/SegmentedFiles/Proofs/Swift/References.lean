import SegmentedFiles.Proofs.Local.InStep
import SegmentedFiles.Proofs.Swift.Names
import SegmentedFiles.Proofs.Swift.Session

/-! # Manifest references that are written and read back

On disk a reference is a text in a column, and is read back as it was. On a cluster it is the value of a header,
which may have any characters when it is sent, but is read only if they are all ASCII. So the reference of an object
is found again exactly if the object's name is ASCII (`manifest_recovered_iff_ascii`); of other objects it is lost,
and they look like plain ones (`manifest_lost_of_accent`). -/

namespace SegmentedFiles

/-- The call with which the object called `name` is made a manifest. -/
def Volume.manifestPut (v : Volume) (name : String) : StoreCall :=
  .put v.container name ByteArray.empty ⟨fileType, some (v.manifestRef name)⟩

theorem Volume.putManifest_eq (v : Volume) (path name : String) :
    v.putManifest path name = (v.manifestPut name).at path := rfl

def Text.isAscii (text : String) : Bool := text.toList.all fun c => c.toNat < 128

/-- What can be sent as the value of a header is read if it is ASCII. -/
theorem Http.isPlainValue_eq {value : String} (h : isHeaderValue value = true) :
    isPlainValue value = Text.isAscii value := by
  rw [isHeaderValue, List.all_eq_true] at h
  rw [isPlainValue, Text.isAscii, Bool.eq_iff_iff, List.all_eq_true, List.all_eq_true]
  refine forall₂_congr fun c hc => ?_
  have hvalue := h c hc
  simp only [Bool.or_eq_true, Bool.and_eq_true, decide_eq_true_eq, bne_iff_ne, beq_iff_eq] at hvalue ⊢
  constructor
  · rintro (hplain | rfl)
    · omega
    · decide
  · intro hascii
    exact hvalue.imp_left fun hvisible => ⟨hvisible.1, by omega⟩

namespace LocalStore

variable {s t : LocalStore} {c n : String}

theorem row?_of_insert {content : Payload} {options : PutOptions}
    (h : s.insert c n content options = (.ok (), t)) :
    ∃ r, t.row? c n = some r ∧ r.manifest = options.manifest.map ManifestRef.header := by
  rw [insert] at h
  split at h
  · cases h
  · split at h
    · cases h
    · split at h
      · cases h
      · next s' hwrite =>
        obtain rfl := (Prod.mk.inj h).2
        exact ⟨_, row?_enter.trans (if_pos ⟨rfl, rfl⟩), rfl⟩

/-- A reference is read back from the table. -/
theorem manifest_of_put {body : Payload} {type : String} {ref : ManifestRef}
    (hcontainer : ref.container ≠ "") (hslash : '/' ∉ ref.container.toList)
    (h : answer (.put c n body ⟨type, some ref⟩) s = (.ok (), t)) :
    ∃ info, answer (.head c n) t = (.ok info, t) ∧ info.manifest = some ref := by
  obtain ⟨r, hr, hmanifest⟩ := row?_of_insert h
  refine ⟨{ r.info with bytes := t.size r }, ?_, ?_⟩
  · rw [answer, record_of_some hr]
    rfl
  · have href : r.manifestRef? = some ref := by
      rw [ObjectRecord.manifestRef?, hmanifest]
      exact ManifestRef.ofHeader?_header hcontainer hslash
    exact href

end LocalStore

namespace SwiftStore

variable {τ : Type} {server : HttpServer τ} {s : SwiftSession} {c n : String}

/-- The server answers that an object is there, and gives this header with it as it was sent. -/
def GivesBack (server : HttpServer τ) (sent : HttpCall) (header : String) : Prop :=
  ∀ call state, call.method = "HEAD" → ∃ response state', server call state = (.ok response, state') ∧
    Http.isSuccess response.status = true ∧ response.headers.get? header = sent.headers.get? header

theorem ne_unauthorized_of_isSuccess {status : Nat} (h : Http.isSuccess status = true) : status ≠ 401 := by
  rintro rfl
  exact absurd h (by decide)

theorem checkStatus_of_isSuccess {response : Http.Response Payload}
    (h : Http.isSuccess response.status = true) : checkStatus response = .ok response :=
  if_pos h

/-- What is told of an object is what the headers of the answer say. -/
theorem answer_head (config : SwiftConfig) (pages : Nat) {state state' : τ} {call : HttpCall}
    {response : Http.Response Payload}
    (hsent : (placedRequest "HEAD" c (some n) [] nofun).sent s = .ok call)
    (hreply : server call state = (.ok response, state'))
    (hstatus : Http.isSuccess response.status = true) :
    answer server config pages (.head c n) (s, state)
      = (.ok (SwiftAnswer.infoOf n response.headers), s, state') := by
  have hbuild : request "HEAD" c (some n) [] = (placedRequest "HEAD" c (some n) [] nofun).on := request_eq_on _
  rw [answer_eq_runOn, perform, hbuild]
  refine (SwiftAction.runOn_bind ?_).trans (SwiftAction.runOn_pure _)
  rw [runOn_send_of_answered hsent hreply (ne_unauthorized_of_isSuccess hstatus),
    checkStatus_of_isSuccess hstatus]

/-- An object that can be written can be asked for. -/
theorem exists_sent_head {body : Payload} {options : PutOptions} {sent : HttpCall}
    (hput : putRequest c n body options s.storageUrl = .ok sent)
    (hsendable : (sent.withHeader tokenHeader s.token).isSendable = true) :
    ∃ call, (placedRequest "HEAD" c (some n) [] nofun).sent s = .ok call ∧ call.method = "HEAD" := by
  have hnames : s.storageUrl.hasNames = true := by
    cases hnames : s.storageUrl.hasNames with
    | true => rfl
    | false =>
      rw [putRequest, objectUrl, hnames] at hput
      cases hput
  rw [putRequest, objectUrl, hnames] at hput
  obtain rfl := Except.ok.inj hput
  rw [HttpCall.isSendable, Bool.and_eq_true, HttpCall.withHeader, List.all_append, Bool.and_eq_true] at hsendable
  obtain ⟨hhttp, -, htoken⟩ := hsendable
  let plain : HttpCall := ⟨"HEAD", s.storageUrl.addNames (c :: Text.splitAt '/' n), [], ByteArray.empty⟩
  refine ⟨(plain.withHeader tokenHeader s.token).complete, AccountRequest.sent_eq_ok_iff.2 ⟨plain, ?_, ?_, rfl⟩, rfl⟩
  · exact if_pos hnames
  · rw [HttpCall.isSendable, Bool.and_eq_true]
    exact ⟨hhttp, htoken⟩

theorem headers_of_putRequest {body : Payload} {type : String} {ref : ManifestRef} {storage : Url}
    {sent : HttpCall} (hput : putRequest c n body ⟨type, some ref⟩ storage = .ok sent) :
    sent.headers = [("content-type", type), (SwiftAnswer.manifestHeader, ref.header)] := by
  rw [putRequest] at hput
  cases hurl : objectUrl storage c (some n) with
  | error e =>
    rw [hurl] at hput
    cases hput
  | ok url =>
    rw [hurl] at hput
    obtain rfl := Except.ok.inj hput
    rfl

/-- The reference that is sent with an object is read back from its header if that can be read. -/
theorem manifest_of_head (config : SwiftConfig) (pages : Nat) {body : Payload} {type : String}
    {ref : ManifestRef} {sent : HttpCall} (state : τ)
    (hput : putRequest c n body ⟨type, some ref⟩ s.storageUrl = .ok sent)
    (hsendable : (sent.withHeader tokenHeader s.token).isSendable = true)
    (hserver : GivesBack server sent SwiftAnswer.manifestHeader) :
    ∃ info state', answer server config pages (.head c n) (s, state) = (.ok info, s, state') ∧
      info.manifest = if Http.isPlainValue ref.header then ManifestRef.ofHeader? ref.header else none := by
  obtain ⟨call, hcall, hmethod⟩ := exists_sent_head hput hsendable
  obtain ⟨response, state', hreply, hstatus, hheader⟩ := hserver call state hmethod
  refine ⟨_, state', answer_head config pages hcall hreply hstatus, ?_⟩
  have hmanifest : (SwiftAnswer.infoOf n response.headers).manifest
      = ((sent.headers.get? SwiftAnswer.manifestHeader).filter Http.isPlainValue).bind ManifestRef.ofHeader? := by
    rw [← hheader]
    rfl
  have hvalue : sent.headers.get? SwiftAnswer.manifestHeader = some ref.header := by
    rw [headers_of_putRequest hput]
    rfl
  rw [hmanifest, hvalue, Option.filter_some]
  split <;> rfl

/-- The reference of an object in a container with an ASCII name. -/
theorem isAscii_header_manifestRef {v : Volume} (hcontainer : Text.isAscii v.container = true) (n : String) :
    Text.isAscii (v.manifestRef n).header = Text.isAscii n := by
  have hheader : (v.manifestRef n).header.toList
      = v.container.toList ++ "_segments".toList ++ ['/'] ++ n.toList ++ ['/'] := by
    simp [ManifestRef.header, Volume.manifestRef, Volume.segmentsContainer, Segment.containerOf, Segment.start]
  have hsegments : "_segments".toList.all (fun c => c.toNat < 128) = true := by decide
  have hslash : ['/'].all (fun c => c.toNat < 128) = true := by decide
  rw [Text.isAscii] at hcontainer
  rw [Text.isAscii, hheader]
  simp only [List.all_append, hcontainer, hsegments, hslash, Bool.true_and, Bool.and_true]
  rfl

/-- Whatever the volume's name and the path: the reference with which a file is made a manifest can be sent and is
given back, and then an object of a cluster is told to have it exactly if the object's name is ASCII, and else
to have none. A store on disk tells it of every object. And a text that is read as a reference is how that
reference is written. -/
theorem manifest_recovered_iff_ascii {v : Volume}
    (hvisible : ∀ c ∈ v.container.toList, 0x20 < c.toNat ∧ c.toNat < 0x7f ∧ c ≠ '/') (path : String) :
    let name := v.storeName path
    let ref := v.manifestRef name
    (∀ (s : SwiftSession) (sent : HttpCall),
      putRequest v.container name ByteArray.empty ⟨Volume.fileType, some ref⟩ s.storageUrl = .ok sent →
      (sent.withHeader tokenHeader s.token).isSendable = true →
      sent.headers.get? SwiftAnswer.manifestHeader = some ref.header ∧
      ∀ {τ : Type} (server : HttpServer τ) (config : SwiftConfig) (pages : Nat) (state : τ),
        GivesBack server sent SwiftAnswer.manifestHeader →
        ∃ info state', answer server config pages (.head v.container name) (s, state) = (.ok info, s, state') ∧
          info.manifest = if Text.isAscii name then some ref else none) ∧
    (∀ l l' : LocalStore, LocalStore.answer (v.manifestPut name) l = (.ok (), l') →
      ∃ info, LocalStore.answer (.head v.container name) l' = (.ok info, l') ∧ info.manifest = some ref) ∧
    ∀ text other, ManifestRef.ofHeader? text = some other → other.header = text := by
  intro name ref
  have hempty : ref.container ≠ "" := by
    intro hempty
    have hchars := congrArg String.toList hempty
    simp [ref, Volume.manifestRef, Volume.segmentsContainer, Segment.containerOf] at hchars
  have hslash : '/' ∉ ref.container.toList := by
    intro hmem
    simp only [ref, Volume.manifestRef, Volume.segmentsContainer, Segment.containerOf, String.toList_append,
      List.mem_append] at hmem
    rcases hmem with hmem | hmem
    · exact (hvisible _ hmem).2.2 rfl
    · exact absurd hmem (by decide)
  refine ⟨fun s sent hput hsendable => ⟨?_, ?_⟩, fun l l' hanswer => LocalStore.manifest_of_put hempty hslash hanswer,
    fun text other => ManifestRef.header_of_ofHeader?⟩
  · rw [headers_of_putRequest hput]
    rfl
  · intro τ server config pages state hserver
    obtain ⟨info, state', hanswer, hmanifest⟩ := manifest_of_head config pages state hput hsendable hserver
    have hvalue : Http.isHeaderValue ref.header = true := by
      rw [HttpCall.isSendable, Bool.and_eq_true, HttpCall.withHeader, headers_of_putRequest hput,
        List.all_eq_true] at hsendable
      exact hsendable.2 (SwiftAnswer.manifestHeader, ref.header) (by simp)
    refine ⟨info, state', hanswer, ?_⟩
    have hcontainer : Text.isAscii v.container = true :=
      List.all_eq_true.2 fun c hc => decide_eq_true (Nat.lt_trans (hvisible c hc).2.1 (by decide))
    rw [hmanifest, ManifestRef.ofHeader?_header hempty hslash, Http.isPlainValue_eq hvalue,
      isAscii_header_manifestRef hcontainer]

/-- A server that gives all objects this reference. -/
def referringServer (value : String) : HttpServer Unit := fun _ state =>
  (.ok ⟨200, [(SwiftAnswer.manifestHeader, value)], ByteArray.empty⟩, state)

theorem givesBack_referringServer {sent : HttpCall} {value : String}
    (h : sent.headers.get? SwiftAnswer.manifestHeader = some value) :
    GivesBack (referringServer value) sent SwiftAnswer.manifestHeader :=
  fun _ _ _ => ⟨_, _, rfl, rfl, h.symm⟩

/-- The request with which a file of the sample volume is made a manifest. -/
def samplePut (name : String) : HttpCall :=
  ⟨"PUT", sampleStorage.addNames ("files" :: Text.splitAt '/' name),
    [("content-type", Volume.fileType), (SwiftAnswer.manifestHeader, (Volume.sampleVolume.manifestRef name).header)],
    ByteArray.empty⟩

theorem putRequest_sampleStorage (name : String) :
    putRequest "files" name ByteArray.empty ⟨Volume.fileType, some (Volume.sampleVolume.manifestRef name)⟩
      sampleStorage = .ok (samplePut name) := rfl

theorem visible_sampleVolume :
    ∀ c ∈ Volume.sampleVolume.container.toList, 0x20 < c.toNat ∧ c.toNat < 0x7f ∧ c ≠ '/' := by
  simp [Volume.sampleVolume]

/-- On a cluster the reference of a file with an ASCII name is found again, on disk that of any file. -/
theorem manifest_recovered_iff_ascii_of_file :
    (∃ info state, answer (referringServer "files_segments/d/x/") sampleConfig 1 (.head "files" "d/x")
        (sampleSession, ()) = (.ok info, sampleSession, state) ∧
      info.manifest = some ⟨"files_segments", "d/x/"⟩) ∧
    ∃ s t info, LocalStore.answer (Volume.sampleVolume.manifestPut "é") s = (.ok (), t) ∧
      LocalStore.answer (.head "files" "é") t = (.ok info, t) ∧
      info.manifest = some ⟨"files_segments", "é/"⟩ := by
  refine ⟨?_, ?_⟩
  · have hname : Volume.sampleVolume.storeName "/d/x" = "d/x" := by decide
    obtain ⟨hswift, -⟩ := manifest_recovered_iff_ascii visible_sampleVolume "/d/x"
    rw [hname] at hswift
    obtain ⟨hvalue, hanswer⟩ := hswift sampleSession (samplePut "d/x") (putRequest_sampleStorage "d/x") (by decide)
    obtain ⟨info, state, hinfo, hmanifest⟩ := hanswer (referringServer "files_segments/d/x/") sampleConfig 1 ()
      (givesBack_referringServer (hvalue.trans (by decide)))
    exact ⟨info, state, hinfo, hmanifest.trans (by decide)⟩
  · have hname : Volume.sampleVolume.storeName "/é" = "é" := by decide
    obtain ⟨-, hlocal, -⟩ := manifest_recovered_iff_ascii visible_sampleVolume "/é"
    rw [hname] at hlocal
    obtain ⟨s, -, hstep, hcontainers, hrow, -⟩ := (LocalStore.InStep.empty Timestamp.epoch).createContainer
      (c := "files") (by decide) (by decide)
    have hfree : ∀ c' n', s.Holds c' n' → Local.payloadPath c' n' = Local.payloadPath "files" "é" →
        c' = "files" ∧ n' = "é" := by
      intro c' n' hholds _
      obtain ⟨r, hr⟩ := hholds
      exact nomatch ((hrow c' n').trans (LocalStore.row?_empty _ c' n')).symm.trans hr
    obtain ⟨t, hput, -⟩ : ∃ t, LocalStore.answer (Volume.sampleVolume.manifestPut "é") s = (.ok (), t) ∧ _ :=
      hstep.insert ⟨Volume.fileType, some (Volume.sampleVolume.manifestRef "é")⟩ (by decide) (by decide)
        ((hcontainers "files").2 (.inl rfl)) hfree
    obtain ⟨info, hinfo, hmanifest⟩ := hlocal s t hput
    exact ⟨s, t, info, hput, hinfo, hmanifest.trans (by decide)⟩

/-- The reference of a file with an accent in its name is sent and given back, and is not found. -/
theorem manifest_lost_of_accent :
    (∀ c ∈ Volume.sampleVolume.container.toList, 0x20 < c.toNat ∧ c.toNat < 0x7f ∧ c ≠ '/') ∧
      Path.isBelowRoot "/é" = true ∧ Volume.sampleVolume.storeName "/é" = "é" ∧
      putRequest "files" "é" ByteArray.empty ⟨Volume.fileType, some (Volume.sampleVolume.manifestRef "é")⟩
        sampleStorage = .ok (samplePut "é") ∧
      ((samplePut "é").withHeader tokenHeader "token").isSendable = true ∧
      GivesBack (referringServer "files_segments/é/") (samplePut "é") SwiftAnswer.manifestHeader ∧
      ∃ info state, answer (referringServer "files_segments/é/") sampleConfig 1 (.head "files" "é")
          (sampleSession, ()) = (.ok info, sampleSession, state) ∧ info.manifest = none := by
  have hgives : GivesBack (referringServer "files_segments/é/") (samplePut "é") SwiftAnswer.manifestHeader :=
    givesBack_referringServer (by decide)
  have hsendable : ((samplePut "é").withHeader tokenHeader "token").isSendable = true := by decide
  obtain ⟨info, state, hinfo, hmanifest⟩ :=
    manifest_of_head (s := sampleSession) sampleConfig 1 () (putRequest_sampleStorage "é") hsendable hgives
  exact ⟨visible_sampleVolume, by decide, by decide, putRequest_sampleStorage "é", hsendable, hgives, info, state,
    hinfo, hmanifest.trans (by decide)⟩

end SwiftStore

end SegmentedFiles

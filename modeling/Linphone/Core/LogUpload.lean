import Linphone.Chat.FileInfo
import Linphone.Lib.Conformance

/-!
# Upload of the log files

`linphone_core_upload_log_collection` sends an empty request, a response with status 204 makes the
callback send the archive, and one with status 200 gives its address. Three callbacks of the HTTP
requests tell the application how the upload ended and free its context; a response with another
status, or without an address, is passed over.

An event is one of a request that has no answer yet. A response and an error answer it, a question
for credentials does not.

`log_uploads_ended_iff`: which outcomes end an upload once, and leave a context that no later
response misses.
-/

namespace Linphone

open Conformance (Conforms Allowed)

/-! ## State and events -/

/-- What `log_collection_upload_information` says of the archive. -/
structure LogArchive where
  name : String
  size : Nat := 0

inductive LogUploadState
  | inProgress | delivered | notDelivered
deriving DecidableEq

/-- A call of the callback `log_collection_upload_state_changed`. -/
structure LogUploadNotice where
  state : LogUploadState
  info : Option (List Char)
deriving DecidableEq

def LogUploadNotice.final (n : LogUploadNotice) : Bool := n.state ≠ .inProgress

/-- What the files are like when an upload starts: whether the archive can be made, what is written
of each log file that is there, and the size of the archive when it can be opened again. -/
structure LogFiles where
  outputOpens : Bool
  log1 : Option (List Int)
  log2 : Option (List Int)
  archiveSize : Option Nat

structure LogUploadEnv where
  serverUrl : Option String
  enabled : Bool
  logPrefix : String
  files : LogFiles

/-- The status and the body of a response. -/
abbrev LogResponse : Type := Nat × Option (List UInt8)

/-- A call of the application, or what is told of the request at a place among those without an
answer. -/
inductive LogUploadEvent where
  | upload (env : LogUploadEnv)
  | response (place : Nat) (response : Option LogResponse)
  | ioError (place : Nat)
  | authRequested (place : Nat)

/-- The members of the core for uploads; with the number of uploads started, the number of the
upload for which each request without an answer was sent, and the responses received. -/
structure LogUploads where
  information : Option LogArchive := none
  notices : List LogUploadNotice := []
  started : Nat := 0
  requests : List Nat := []
  responses : List LogResponse := []

/-! ## Preparing -/

/-- `compress_file`: the result of a write that fails, or zero. -/
def compressFile (written : List Int) : Int := (written.find? (· < 0)).getD 0

/-- `prepare_log_collection_file_to_upload`; a file that is missing is no error. -/
def prepareLogCollectionFile (files : LogFiles) : Int :=
  if files.outputOpens then
    match files.log1 with
    | none => 0
    | some written =>
      if compressFile written < 0 then compressFile written
      else
        match files.log2 with
        | none => compressFile written
        | some written => compressFile written
  else 0

namespace LogUploads

variable {Node : Type} (lib : LibXml Node) (s : LogUploads)

def Starts (env : LogUploadEnv) : Prop :=
  s.information.isNone ∧ env.serverUrl.isSome ∧ env.enabled

instance (env : LogUploadEnv) : Decidable (s.Starts env) :=
  inferInstanceAs (Decidable (_ ∧ _))

/-- `linphone_core_upload_log_collection` -/
def uploadLogCollection (env : LogUploadEnv) : Option LogUploads :=
  if s.Starts env then
    let archive : LogArchive := { name := env.logPrefix ++ "_log.gz" }
    let s := { s with information := some archive, started := s.started + 1 }
    if prepareLogCollectionFile env.files < 0 then some s
    else
      -- `fstat` is called for a file that may not be open
      env.files.archiveSize.map fun size =>
        { s with
          information := some { archive with size := size }
          requests := s.requests ++ [s.started] }
  else some s

/-! ## Callbacks -/

def notify (state : LogUploadState) (info : Option (List Char)) : LogUploads :=
  { s with notices := s.notices ++ [⟨state, info⟩] }

/-- `clean_log_collection_upload_context` -/
def clean : LogUploads := { s with information := none }

/-- The address in the body of a response. -/
def fileUrl (body : Option (List UInt8)) : Option (List Char) :=
  (lib.fileInfo body).foldl
    (fun url cur => if lib.name cur = "data" then lib.prop cur "url" else url) none

/-- The branch for the status 204 of `process_response_from_post_file_log_collection`, where the
context is read. -/
def sendFile : Option LogUploads :=
  let s := s.notify .inProgress none
  s.information.map fun _ => { s with requests := s.requests ++ [s.started] }

/-- The branch for the status 200. -/
def takeUrl (body : Option (List UInt8)) : LogUploads :=
  match fileUrl lib body with
  | some url => (s.notify .delivered (some url)).clean
  | none => s.clean

/-- `process_response_from_post_file_log_collection` -/
def processResponse (response : Option LogResponse) : Option LogUploads :=
  match response with
  | none => some s
  | some (code, body) =>
    let s := { s with responses := s.responses ++ [(code, body)] }
    if code = 204 then s.sendFile
    else if code = 200 then some (s.takeUrl lib body)
    else some s

/-- `process_io_error_upload_log_collection` -/
def processIoError : LogUploads := (s.notify .notDelivered (some "I/O Error".toList)).clean

/-- `process_auth_requested_upload_log_collection` -/
def processAuthRequested : LogUploads :=
  (s.notify .notDelivered (some "Auth requested".toList)).clean

/-- The request at a place has its answer. -/
def answered (place : Nat) : LogUploads := { s with requests := s.requests.eraseIdx place }

/-- An event; it does not occur for a request that there is not. -/
def step : LogUploadEvent → Option LogUploads
  | .upload env => s.uploadLogCollection env
  | .response place response =>
    if place < s.requests.length then (s.answered place).processResponse lib response else some s
  | .ioError place =>
    some (if place < s.requests.length then (s.answered place).processIoError else s)
  | .authRequested place =>
    some (if place < s.requests.length then s.processAuthRequested else s)

/-! ## What uploads are for -/

/-- The final notifications. -/
def finals : List LogUploadNotice := s.notices.filter LogUploadNotice.final

/-- Each upload that was started has had its final notification, apart from the one the context is
of, which still has a request without an answer; and what was delivered has the address of a
response with status 200. -/
structure Ended : Prop where
  once : s.finals.length + (if s.information.isSome then 1 else 0) = s.started
  open_ : s.information.isSome → s.started ∈ s.requests
  numbers : ∀ u ∈ s.requests, u ≤ s.started
  delivered : ∀ n ∈ s.notices, n.state = .delivered →
    ∃ body, (200, body) ∈ s.responses ∧ n.info = fileUrl lib body ∧ n.info.isSome

/-- A response with status 200 and an address. -/
def GivesUrl (response : Option LogResponse) : Prop :=
  ∃ body, response = some (200, body) ∧ (fileUrl lib body).isSome

/-- An upload that starts gets its archive made and opened. A response, for the context there is,
has status 204, or status 200 with an address, or is passed over while another request of the upload
has no answer; without a context it has none of them. An error and a question for credentials find a
context. -/
def Handled : LogUploadEvent → Prop
  | .upload env =>
    s.Starts env → 0 ≤ prepareLogCollectionFile env.files ∧ env.files.archiveSize.isSome
  | .response place response =>
    place < s.requests.length →
      if s.information.isSome then
        (∃ body, response = some (204, body)) ∨ GivesUrl lib response ∨
          (∀ body, response ≠ some (200, body)) ∧ s.started ∈ s.requests.eraseIdx place
      else (∀ body, response ≠ some (204, body)) ∧ ¬ GivesUrl lib response
  | .ioError place | .authRequested place =>
    place < s.requests.length → s.information.isSome

/-! ## Steps -/

variable {lib s} {s' : LogUploads} {place : Nat}

/-- A context that goes with a final notification goes with it once. -/
theorem ended_iff_of_final (h : s.Ended lib) (hfinals : s'.finals.length = s.finals.length + 1)
    (hinfo : s'.information = none) (hstarted : s'.started = s.started)
    (hrequests : ∀ u ∈ s'.requests, u ∈ s.requests)
    (hdelivered : ∀ n ∈ s'.notices, n.state = .delivered →
      ∃ body, (200, body) ∈ s'.responses ∧ n.info = fileUrl lib body ∧ n.info.isSome) :
    s'.Ended lib ↔ s.information.isSome := by
  have honce := h.once
  constructor
  · intro h'
    have honce' := h'.once
    rw [hfinals, hinfo, hstarted] at honce'
    by_contra hnone
    rw [if_neg hnone] at honce
    simp only [Option.isSome_none, Bool.false_eq_true, if_false] at honce'
    omega
  · intro hsome
    rw [if_pos hsome] at honce
    refine ⟨?_, ?_, ?_, hdelivered⟩
    · rw [hfinals, hinfo, hstarted, ← honce]
      rfl
    · rw [hinfo]
      intro hnone
      cases hnone
    · intro u hu
      rw [hstarted]
      exact h.numbers u (hrequests u hu)

/-- An answer that is passed over leaves the upload to another request. -/
theorem ended_iff_of_passed (h : s.Ended lib) (hnotices : s'.notices = s.notices)
    (hinfo : s'.information = s.information) (hstarted : s'.started = s.started)
    (hrequests : ∀ u ∈ s'.requests, u ∈ s.requests)
    (hresponses : ∀ r ∈ s.responses, r ∈ s'.responses) :
    s'.Ended lib ↔ (s.information.isSome → s.started ∈ s'.requests) := by
  constructor
  · intro h' hsome
    rw [← hstarted]
    exact h'.open_ (by rwa [hinfo])
  · intro hopen
    refine ⟨?_, ?_, ?_, ?_⟩
    · rw [finals, hnotices, hinfo, hstarted]
      exact h.once
    · rw [hinfo, hstarted]
      exact hopen
    · intro u hu
      rw [hstarted]
      exact h.numbers u (hrequests u hu)
    · intro n hn hstate
      rw [hnotices] at hn
      obtain ⟨body, hbody, hurl⟩ := h.delivered n hn hstate
      exact ⟨body, hresponses _ hbody, hurl⟩

theorem finals_notify (s : LogUploads) (state : LogUploadState) (info : Option (List Char)) :
    (s.notify state info).finals.length =
      s.finals.length + if state = .inProgress then 0 else 1 := by
  rw [finals, notify, List.filter_append, List.length_append, finals]
  cases state <;> rfl

/-- What was delivered before stays so when another notification follows. -/
theorem delivered_notify (h : s.Ended lib) {state : LogUploadState} {info : Option (List Char)}
    {responses : List LogResponse} (hresponses : ∀ r ∈ s.responses, r ∈ responses)
    (hnew : state = .delivered →
      ∃ body, (200, body) ∈ responses ∧ info = fileUrl lib body ∧ info.isSome) :
    ∀ n ∈ s.notices ++ [⟨state, info⟩], n.state = .delivered →
      ∃ body, (200, body) ∈ responses ∧ n.info = fileUrl lib body ∧ n.info.isSome := by
  intro n hn hstate
  rcases List.mem_append.mp hn with hold | hlast
  · obtain ⟨body, hbody, hurl⟩ := h.delivered n hold hstate
    exact ⟨body, hresponses _ hbody, hurl⟩
  · rw [List.mem_singleton.mp hlast] at hstate ⊢
    exact hnew hstate

/-- An upload ends or begins as it should when its archive is made. -/
theorem upload_iff (h : s.Ended lib) (env : LogUploadEnv) :
    (∃ s', s.uploadLogCollection env = some s' ∧ s'.Ended lib) ↔
      (s.Starts env → 0 ≤ prepareLogCollectionFile env.files ∧ env.files.archiveSize.isSome) := by
  unfold uploadLogCollection
  by_cases hstarts : s.Starts env
  · have hnone : s.information = none := Option.isNone_iff_eq_none.mp hstarts.1
    have honce := h.once
    rw [hnone] at honce
    simp only [Option.isSome_none, Bool.false_eq_true, if_false, Nat.add_zero] at honce
    simp only [if_pos hstarts, forall_prop_of_true hstarts]
    by_cases hprepare : prepareLogCollectionFile env.files < 0
    · rw [if_pos hprepare]
      refine iff_of_false ?_ fun hok => absurd hok.1 (Int.not_le.mpr hprepare)
      rintro ⟨s', hs', hended⟩
      cases hs'
      have hlate := h.numbers _ (hended.open_ rfl)
      exact absurd hlate (Nat.not_succ_le_self _)
    · rw [if_neg hprepare]
      cases hsize : env.files.archiveSize with
      | none =>
        refine iff_of_false ?_ fun hok => by cases hok.2
        rintro ⟨s', hs', -⟩
        cases hs'
      | some size =>
        refine iff_of_true ⟨_, rfl, ?_, ?_, ?_, h.delivered⟩ ⟨Int.not_lt.mp hprepare, rfl⟩
        · show s.finals.length + 1 = s.started + 1
          rw [honce]
        · exact fun _ => List.mem_append_right _ (List.mem_singleton_self _)
        · intro u hu
          rcases List.mem_append.mp hu with hold | hnew
          · exact (h.numbers u hold).trans (Nat.le_succ _)
          · exact (List.mem_singleton.mp hnew).le
  · rw [if_neg hstarts]
    exact iff_of_true ⟨s, rfl, h⟩ fun hyes => absurd hyes hstarts

/-- A response that is passed over. -/
theorem passed_iff (h : s.Ended lib) {response : Option LogResponse} (hpassed :
    (s.answered place).processResponse lib response = some s') (hnotices : s'.notices = s.notices)
    (hinfo : s'.information = s.information) (hstarted : s'.started = s.started)
    (hrequests : s'.requests = s.requests.eraseIdx place)
    (hresponses : ∀ r ∈ s.responses, r ∈ s'.responses)
    (h204 : ∀ body, response ≠ some (204, body)) (h200 : ∀ body, response ≠ some (200, body)) :
    (∃ s', (s.answered place).processResponse lib response = some s' ∧ s'.Ended lib) ↔
      if s.information.isSome then
        (∃ body, response = some (204, body)) ∨ GivesUrl lib response ∨
          (∀ body, response ≠ some (200, body)) ∧ s.started ∈ s.requests.eraseIdx place
      else (∀ body, response ≠ some (204, body)) ∧ ¬ GivesUrl lib response := by
  have hmem : ∀ u ∈ s'.requests, u ∈ s.requests := fun u hu => by
    rw [hrequests] at hu
    exact List.mem_of_mem_eraseIdx hu
  have hurl : ¬ GivesUrl lib response := by
    rintro ⟨body, heq, -⟩
    exact h200 body heq
  have hiff := ended_iff_of_passed h hnotices hinfo hstarted hmem hresponses
  rw [hrequests] at hiff
  rw [hpassed]
  simp only [Option.some.injEq, exists_eq_left', hiff]
  by_cases hsome : s.information.isSome
  · simp only [if_pos hsome, forall_prop_of_true hsome]
    constructor
    · exact fun hopen => .inr (.inr ⟨h200, hopen⟩)
    · rintro (⟨body, heq⟩ | hgives | ⟨-, hopen⟩)
      · exact absurd heq (h204 body)
      · exact absurd hgives hurl
      · exact hopen
  · simp only [if_neg hsome]
    exact iff_of_true (fun hyes => absurd hyes hsome) ⟨h204, hurl⟩

/-- The file is sent for the context there is. -/
theorem sendFile_iff (h : s.Ended lib) (body : Option (List UInt8)) :
    (∃ s', (s.answered place).processResponse lib (some (204, body)) = some s' ∧ s'.Ended lib) ↔
      s.information.isSome := by
  cases hinfo : s.information with
  | none =>
    refine iff_of_false ?_ (by simp)
    rintro ⟨s', hs', -⟩
    simp [processResponse, sendFile, answered, notify, hinfo] at hs'
  | some archive =>
    have hsend : (s.answered place).processResponse lib (some (204, body)) =
        some { s with
          notices := s.notices ++ [⟨.inProgress, none⟩]
          requests := s.requests.eraseIdx place ++ [s.started]
          responses := s.responses ++ [(204, body)] } := by
      simp [processResponse, sendFile, answered, notify, hinfo]
    refine iff_of_true ⟨_, hsend, ?_, ?_, ?_, ?_⟩ rfl
    · rw [← h.once]
      congr 1
      exact (finals_notify s .inProgress none).trans (Nat.add_zero _)
    · exact fun _ => List.mem_append_right _ (List.mem_singleton_self _)
    · intro u hu
      rcases List.mem_append.mp hu with hold | hnew
      · exact h.numbers u (List.mem_of_mem_eraseIdx hold)
      · exact (List.mem_singleton.mp hnew).le
    · exact delivered_notify h (fun r hr => List.mem_append_left _ hr) (fun heq => nomatch heq)

/-- An address ends the upload of the context there is, and a missing one leaves no context. -/
theorem takeUrl_iff (h : s.Ended lib) (body : Option (List UInt8)) :
    (∃ s', (s.answered place).processResponse lib (some (200, body)) = some s' ∧ s'.Ended lib) ↔
      (s.information.isSome ↔ (fileUrl lib body).isSome) := by
  have htake : (s.answered place).processResponse lib (some (200, body)) =
      some (takeUrl lib { s.answered place with responses := s.responses ++ [(200, body)] }
        body) := rfl
  rw [htake]
  simp only [Option.some.injEq, exists_eq_left']
  have hold : ∀ r ∈ s.responses, r ∈ s.responses ++ [(200, body)] :=
    fun r hr => List.mem_append_left _ hr
  unfold takeUrl
  cases hurl : fileUrl lib body with
  | some url =>
    have hnew : LogUploadState.delivered = .delivered → ∃ body',
        (200, body') ∈ s.responses ++ [(200, body)] ∧ some url = fileUrl lib body' ∧
          (some url).isSome :=
      fun _ => ⟨body, List.mem_append_right _ (List.mem_singleton_self _), hurl.symm, rfl⟩
    have hfinal : ({ s.answered place with
          notices := s.notices ++ [⟨.delivered, some url⟩]
          information := none
          responses := s.responses ++ [(200, body)] } : LogUploads).Ended lib ↔
        s.information.isSome :=
      ended_iff_of_final h (finals_notify s .delivered (some url)) rfl rfl
        (fun u hu => List.mem_of_mem_eraseIdx hu) (delivered_notify h hold hnew)
    exact hfinal.trans (iff_true_right rfl).symm
  | none =>
    have honce := h.once
    simp only [Option.isSome_none, Bool.false_eq_true, iff_false]
    constructor
    · intro h' hsome
      have honce' : s.finals.length + 0 = s.started := h'.once
      rw [if_pos hsome] at honce
      omega
    · intro hnone
      rw [if_neg hnone] at honce
      refine ⟨honce, fun habsurd => (by cases habsurd),
        fun u hu => h.numbers u (List.mem_of_mem_eraseIdx hu), fun n hn hstate => ?_⟩
      obtain ⟨body', hbody, hgiven⟩ := h.delivered n hn hstate
      exact ⟨body', hold _ hbody, hgiven⟩

theorem response_iff (h : s.Ended lib) (response : Option LogResponse) :
    (∃ s', (s.answered place).processResponse lib response = some s' ∧ s'.Ended lib) ↔
      if s.information.isSome then
        (∃ body, response = some (204, body)) ∨ GivesUrl lib response ∨
          (∀ body, response ≠ some (200, body)) ∧ s.started ∈ s.requests.eraseIdx place
      else (∀ body, response ≠ some (204, body)) ∧ ¬ GivesUrl lib response := by
  cases response with
  | none =>
    exact passed_iff h rfl rfl rfl rfl rfl (fun r hr => hr) (fun body heq => by cases heq)
      fun body heq => by cases heq
  | some r =>
    obtain ⟨code, body⟩ := r
    by_cases h204 : code = 204
    · subst h204
      rw [sendFile_iff h body]
      by_cases hsome : s.information.isSome
      · rw [if_pos hsome]
        exact iff_of_true hsome (.inl ⟨body, rfl⟩)
      · rw [if_neg hsome]
        exact iff_of_false hsome fun hok => hok.1 body rfl
    · by_cases h200 : code = 200
      · subst h200
        have hgives : GivesUrl lib (some (200, body)) ↔ (fileUrl lib body).isSome := by
          constructor
          · rintro ⟨body', heq, hurl⟩
            cases heq
            exact hurl
          · exact fun hurl => ⟨body, rfl, hurl⟩
        rw [takeUrl_iff h body, hgives]
        by_cases hsome : s.information.isSome
        · simp [hsome]
        · simp [hsome]
      · have hpassed : (s.answered place).processResponse lib (some (code, body)) =
            some { s.answered place with responses := s.responses ++ [(code, body)] } := by
          simp [processResponse, h204, h200, answered]
        refine passed_iff h hpassed rfl rfl rfl rfl (fun r hr => List.mem_append_left _ hr)
          (fun body' heq => h204 ?_) fun body' heq => h200 ?_
        · exact (Prod.mk.inj (Option.some.inj heq)).1
        · exact (Prod.mk.inj (Option.some.inj heq)).1

/-- **An event is followed by an orderly state exactly when it is handled.** -/
theorem ended_step_iff (h : s.Ended lib) (e : LogUploadEvent) :
    (∃ s', s.step lib e = some s' ∧ s'.Ended lib) ↔ s.Handled lib e := by
  cases e with
  | upload env => exact upload_iff h env
  | response place response =>
    unfold step Handled
    by_cases hplace : place < s.requests.length
    · simp only [if_pos hplace, forall_prop_of_true hplace]
      exact response_iff h response
    · simp only [if_neg hplace]
      exact iff_of_true ⟨s, rfl, h⟩ fun hyes => absurd hyes hplace
  | ioError place =>
    unfold step Handled
    by_cases hplace : place < s.requests.length
    · simp only [if_pos hplace, forall_prop_of_true hplace]
      have hfinal : (s.answered place).processIoError.Ended lib ↔ s.information.isSome :=
        ended_iff_of_final h (finals_notify s _ _) rfl rfl
          (fun u hu => List.mem_of_mem_eraseIdx hu)
          (delivered_notify h (fun r hr => hr) (fun heq => nomatch heq))
      simp [← hfinal]
    · simp only [if_neg hplace]
      exact iff_of_true ⟨s, rfl, h⟩ fun hyes => absurd hyes hplace
  | authRequested place =>
    unfold step Handled
    by_cases hplace : place < s.requests.length
    · simp only [if_pos hplace, forall_prop_of_true hplace]
      have hfinal : s.processAuthRequested.Ended lib ↔ s.information.isSome :=
        ended_iff_of_final h (finals_notify s _ _) rfl rfl (fun u hu => hu)
          (delivered_notify h (fun r hr => hr) (fun heq => nomatch heq))
      simp [← hfinal]
    · simp only [if_neg hplace]
      exact iff_of_true ⟨s, rfl, h⟩ fun hyes => absurd hyes hplace

end LogUploads

/-! ## Runs -/

/-- **Uploads end once, with a context for the next one, exactly as long as each event is
handled.** -/
theorem log_uploads_ended_iff {Node : Type} (lib : LibXml Node) (events : List LogUploadEvent) :
    Conforms (LogUploads.step lib) (fun _ _ => ()) (fun s _ => s.Ended lib) {} () events ↔
      Allowed (LogUploads.step lib) (LogUploads.Handled lib) {} events :=
  Conformance.conforms_iff (fun _ _ e h => LogUploads.ended_step_iff h e)
    ⟨rfl, (fun hnone => nomatch hnone), (fun _ hu => nomatch hu), (fun _ hn => nomatch hn)⟩

/-- A reader that finds no document. -/
def noXml : LibXml Unit where
  parseDoc _ := none
  name _ := ""
  children _ := []
  prop _ _ := none
  nodeListGetString _ := none

def uploadEnv : LogUploadEnv where
  serverUrl := some "https://logs"
  enabled := true
  logPrefix := "linphone"
  files := { outputOpens := true, log1 := some [10], log2 := none, archiveSize := some 30 }

/-- After a response with status 404 the application is told nothing, and the context stays for
good. -/
theorem notFound_not_ended :
    (Conformance.run (LogUploads.step noXml) {}
        [.upload uploadEnv, .response 0 (some (404, none)), .upload uploadEnv]).map
          (fun s => (s.notices, s.information.isSome, s.requests)) = some ([], true, []) ∧
      ¬ Conforms (LogUploads.step noXml) (fun _ _ => ()) (fun s _ => s.Ended noXml) {} ()
        [.upload uploadEnv, .response 0 (some (404, none)), .upload uploadEnv] := by
  refine ⟨by decide, fun h => ?_⟩
  obtain ⟨s', hrun, hended⟩ := h _ List.prefix_rfl
  obtain rfl := Option.some.inj hrun
  exact absurd (hended.open_ rfl) (by decide)

end Linphone

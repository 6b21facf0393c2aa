import Linphone.Presence.Pidf
import Mathlib.Algebra.Group.Nat.Defs
import Mathlib.Algebra.Group.Int.Defs

/-!
# Answers to the account creator

XML-RPC requests (`coreapi/xmlrpc.c`) and the callbacks of the account creator
(`coreapi/account_creator.c`). What libxml2 reads of a body is a parameter; comments and
instructions in a document are nodes without a text.

`requestsAnswered_iff`: a request is Ok exactly when it was answered with a value of its type,
unless the server answered with an error, which is Ok as well, with a text that is no number, or
with an empty string. So the account creator reports an error of the server as the answer 0, which
is what it waits for when it tests the existence of an account or creates it: `http_error_is_ok`.
-/

namespace Linphone

open Xml (Node)

/-! ## Requests -/

inductive LinphoneXmlRpcArgType
  | none | int | string
deriving DecidableEq

inductive LinphoneXmlRpcStatus
  | pending | ok | failed
deriving DecidableEq

/-- A request; `i` and `s` are the members of a union, of which the one of the type is used. -/
structure LinphoneXmlRpcRequest where
  responseType : LinphoneXmlRpcArgType
  status : LinphoneXmlRpcStatus := .pending
  i : Int := 0
  s : Option String := none
  /-- There is a callback for the response. -/
  response : Bool := true
deriving DecidableEq

structure HttpResponse where
  code : Int
  body : Option String

/-- What becomes of a request that was sent. -/
inductive HttpOutcome
  | response (response : HttpResponse)
  | ioError
  | authRequested

/-- A request with the calls of its callback, and the references that were released. -/
structure XmlRpcRun where
  request : LinphoneXmlRpcRequest
  invoked : List LinphoneXmlRpcRequest := []
  unrefs : Nat := 0
deriving DecidableEq

/-! ## Documents -/

/-- `xmlNodeListGetString`: the texts among some nodes, in a row. -/
def nodeListGetString (nodes : List Node) : Option String :=
  nodes.foldl
    (fun ret node =>
      match node with
      | .text content => some (ret.getD "" ++ content)
      | _ => ret)
    none

/-- `linphone_get_xml_text_content`: the last node that has children decides, also when they have no
text. -/
def xmlTextContent (nodes : List Node) : Option String :=
  nodes.foldl
    (fun text node =>
      if (nodeChildren node).isEmpty then text else nodeListGetString (nodeChildren node))
    none

/-- The path `/methodResponse/params/param/value` and an element. -/
def responseValues (name : String) (doc : Node) : List Node :=
  (((([doc].filter (isNamed "methodResponse")).flatMap (named "params")).flatMap
    (named "param")).flatMap (named "value")).flatMap (named name)

/-- `atoi`, with a result of 32 bits. -/
def atoiInt32 (text : String) : Int :=
  (((Scan.number text.toList).map Prod.fst).getD 0).bmod (2 ^ 32)

/-! ## Callbacks of the HTTP request -/

namespace XmlRpcRun

variable (run : XmlRpcRun)

def setStatus (status : LinphoneXmlRpcStatus) : XmlRpcRun :=
  { run with request := { run.request with status := status } }

/-- `request->callbacks->response(request)`, when it is set -/
def callResponse : XmlRpcRun :=
  if run.request.response then { run with invoked := run.invoked ++ [run.request] } else run

/-- `linphone_xml_rpc_request_unref` -/
def unref : XmlRpcRun := { run with unrefs := run.unrefs + 1 }

def processIoError : XmlRpcRun := (run.setStatus .failed).callResponse.unref

def processAuthRequested : XmlRpcRun := (run.setStatus .failed).callResponse.unref

/-- `parse_valid_xml_rpc_response` -/
def parseValidXmlRpcResponse (xmlReadDoc : String → Option Node) (responseBody : Option String) :
    XmlRpcRun :=
  let run := run.setStatus .failed
  let request := run.request
  let request :=
    match responseBody.bind xmlReadDoc with
    | some doc =>
        match request.responseType with
        | .int =>
            match xmlTextContent (responseValues "int" doc) with
            | some responseStr => { request with i := atoiInt32 responseStr, status := .ok }
            | none => request
        | .string =>
            match xmlTextContent (responseValues "string" doc) with
            | some responseStr => { request with s := some responseStr, status := .ok }
            | none => request
        | .none => request
    | none => request
  { run with request := request }.callResponse

/-- `notify_xml_rpc_error` -/
def notifyXmlRpcError : XmlRpcRun := (run.setStatus .ok).callResponse

/-- `process_response_from_post_xml_rpc_request`; an event may have no response. -/
def processResponse (xmlReadDoc : String → Option Node) (response : Option HttpResponse) :
    XmlRpcRun :=
  let run :=
    match response with
    | some response =>
        if response.code = 200 then run.parseValidXmlRpcResponse xmlReadDoc response.body
        else run.notifyXmlRpcError
    | none => run
  run.unref

end XmlRpcRun

/-- A request after its outcome. -/
def LinphoneXmlRpcRequest.after (xmlReadDoc : String → Option Node)
    (request : LinphoneXmlRpcRequest) : HttpOutcome → XmlRpcRun
  | .response response => XmlRpcRun.processResponse { request := request } xmlReadDoc response
  | .ioError => XmlRpcRun.processIoError { request := request }
  | .authRequested => XmlRpcRun.processAuthRequested { request := request }

/-! ## The account creator -/

inductive LinphoneAccountCreatorStatus
  | ok | failed
deriving DecidableEq

/-- The account creator, and which callbacks it has. -/
structure LinphoneAccountCreator where
  username : Option String
  domain : Option String
  existenceTested : Bool := true
  validationTested : Bool := true
  validated : Bool := true

/-- What a callback of the account creator tells when the answer it waits for is `value`. -/
def creatorCb (cb : Bool) (value : Int) (request : LinphoneXmlRpcRequest) :
    List LinphoneAccountCreatorStatus :=
  if cb then [if request.status = .ok ∧ request.i = value then .ok else .failed] else []

inductive CreatorRequest
  | testExistence | testValidation | validate
deriving DecidableEq

/-- The answer that is waited for. -/
def CreatorRequest.value : CreatorRequest → Int
  | testExistence => 0
  | testValidation => 1
  | validate => 0

namespace LinphoneAccountCreator

variable (creator : LinphoneAccountCreator)

/-- `_test_existence_cb` -/
def testExistenceCb : LinphoneXmlRpcRequest → List LinphoneAccountCreatorStatus :=
  creatorCb creator.existenceTested 0

/-- `_test_validation_cb` -/
def testValidationCb : LinphoneXmlRpcRequest → List LinphoneAccountCreatorStatus :=
  creatorCb creator.validationTested 1

/-- `_validate_cb` -/
def validateCb : LinphoneXmlRpcRequest → List LinphoneAccountCreatorStatus :=
  creatorCb creator.validated 0

/-- The callback that is set on a request. -/
def responseCb : CreatorRequest → LinphoneXmlRpcRequest → List LinphoneAccountCreatorStatus
  | .testExistence => creator.testExistenceCb
  | .testValidation => creator.testValidationCb
  | .validate => creator.validateCb

/-- The account creator tells what becomes of a request. -/
def Tells : CreatorRequest → Prop
  | .testExistence => creator.existenceTested = true
  | .testValidation => creator.validationTested = true
  | .validate => creator.validated = true

/-- What is reported after `linphone_account_creator_test_existence` and its siblings; without a
user name or a domain nothing is sent. -/
def reports (xmlReadDoc : String → Option Node) (kind : CreatorRequest) (outcome : HttpOutcome) :
    List LinphoneAccountCreatorStatus :=
  if creator.username = none ∨ creator.domain = none then []
  else
    (LinphoneXmlRpcRequest.after xmlReadDoc { responseType := .int } outcome).invoked.flatMap
      (creator.responseCb kind)

end LinphoneAccountCreator

/-! ## What is claimed -/

/-- A text is a number of 32 bits, with blanks around it. -/
def IsInt32Text (text : String) (n : Int) : Prop :=
  ∃ rest, Scan.number text.toList = some (n, rest) ∧ (∀ c ∈ rest, Scan.isSpace c = true) ∧
    -2 ^ 31 ≤ n ∧ n < 2 ^ 31

/-- A document has a value of a type. -/
def LinphoneXmlRpcArgType.CarriedBy (doc : Node) : LinphoneXmlRpcArgType → Prop
  | int => ∃ text ∈ xmlTextContent (responseValues "int" doc), ∃ n, IsInt32Text text n
  | string => xmlTextContent (responseValues "string" doc) ≠ .none ∨
      ∃ node ∈ responseValues "string" doc, nodeChildren node = []
  | none => False

namespace HttpOutcome

variable (xmlReadDoc : String → Option Node) (outcome : HttpOutcome)

/-- The document in a response 200. -/
def document : Option Node :=
  match outcome with
  | .response r => if r.code = 200 then r.body.bind xmlReadDoc else none
  | .ioError | .authRequested => none

/-- The server answered with a number. -/
def AnswersInt (n : Int) : Prop :=
  ∃ doc ∈ outcome.document xmlReadDoc,
    ∃ text ∈ xmlTextContent (responseValues "int" doc), IsInt32Text text n

/-- The callback was called once, and the request is Ok exactly when it has a value. -/
structure Handles (request : LinphoneXmlRpcRequest) (run : XmlRpcRun) : Prop where
  once : request.response = true → run.invoked = [run.request]
  status : run.request.status = .ok ↔
    ∃ doc ∈ outcome.document xmlReadDoc, request.responseType.CarriedBy doc

/-- What is reported as Ok is what the server answered. -/
def Reports (kind : CreatorRequest) (reports : List LinphoneAccountCreatorStatus) : Prop :=
  .ok ∈ reports → outcome.AnswersInt xmlReadDoc kind.value

end HttpOutcome

/-! ## When it holds -/

/-- The server answered with an error. -/
def HttpOutcome.IsHttpError : HttpOutcome → Prop
  | .response r => r.code ≠ 200
  | .ioError | .authRequested => False

instance : (outcome : HttpOutcome) → Decidable outcome.IsHttpError
  | .response r => inferInstanceAs (Decidable (r.code ≠ 200))
  | .ioError | .authRequested => inferInstanceAs (Decidable False)

/-- The values of a type in a document are read as such: a text is a number, and no string is
empty. -/
def LinphoneXmlRpcArgType.Clear (doc : Node) : LinphoneXmlRpcArgType → Prop
  | int => ∀ text ∈ xmlTextContent (responseValues "int" doc), ∃ n, IsInt32Text text n
  | string => xmlTextContent (responseValues "string" doc) = .none →
      ∀ node ∈ responseValues "string" doc, nodeChildren node ≠ []
  | none => True

/-- The account creator sends a request, and tells what becomes of it. -/
structure LinphoneAccountCreator.Sends (creator : LinphoneAccountCreator)
    (kind : CreatorRequest) : Prop where
  username : creator.username ≠ none
  domain : creator.domain ≠ none
  tells : creator.Tells kind

/-- What is taken for the answer that is waited for is that answer. -/
structure HttpOutcome.Honest (outcome : HttpOutcome) (xmlReadDoc : String → Option Node)
    (kind : CreatorRequest) : Prop where
  error : outcome.IsHttpError → kind = .testValidation
  text : ∀ doc ∈ outcome.document xmlReadDoc,
    ∀ text ∈ xmlTextContent (responseValues "int" doc), atoiInt32 text = kind.value →
      ∃ n, IsInt32Text text n

/-! ## What becomes of a request -/

section outcome

variable {xmlReadDoc : String → Option Node} {request : LinphoneXmlRpcRequest}
  {outcome : HttpOutcome} {creator : LinphoneAccountCreator} {kind : CreatorRequest}

theorem atoiInt32_eq {text : String} {n : Int} (h : IsInt32Text text n) : atoiInt32 text = n := by
  obtain ⟨rest, hnumber, -, hle, hlt⟩ := h
  unfold atoiInt32
  rw [hnumber]
  change n.bmod (2 ^ 32) = n
  rw [Int.bmod_def]
  split <;> omega

/-- The request after a document was read. -/
def LinphoneXmlRpcRequest.readResponse (request : LinphoneXmlRpcRequest) :
    Option Node → LinphoneXmlRpcRequest
  | some doc =>
      match request.responseType with
      | .int =>
          match xmlTextContent (responseValues "int" doc) with
          | some text => { request with i := atoiInt32 text, status := .ok }
          | none => { request with status := .failed }
      | .string =>
          match xmlTextContent (responseValues "string" doc) with
          | some text => { request with s := some text, status := .ok }
          | none => { request with status := .failed }
      | .none => { request with status := .failed }
  | none => { request with status := .failed }

theorem parseValidXmlRpcResponse_eq (run : XmlRpcRun) (body : Option String) :
    run.parseValidXmlRpcResponse xmlReadDoc body =
      { run with request := run.request.readResponse (body.bind xmlReadDoc) }.callResponse := by
  unfold XmlRpcRun.parseValidXmlRpcResponse LinphoneXmlRpcRequest.readResponse XmlRpcRun.setStatus
  cases body.bind xmlReadDoc with
  | none => rfl
  | some doc => rfl

theorem readResponse_response (doc : Option Node) :
    (request.readResponse doc).response = request.response := by
  unfold LinphoneXmlRpcRequest.readResponse
  split
  · split
    · split <;> rfl
    · split <;> rfl
    · rfl
  · rfl

theorem callResponse_eq (request : LinphoneXmlRpcRequest) :
    XmlRpcRun.callResponse { request := request } =
      { request := request, invoked := if request.response then [request] else [] } := by
  unfold XmlRpcRun.callResponse
  cases request.response with
  | true => rfl
  | false => rfl

/-- The request after its outcome: an error of the server is Ok, and everything else is what was
read. -/
def LinphoneXmlRpcRequest.final (request : LinphoneXmlRpcRequest)
    (xmlReadDoc : String → Option Node) (outcome : HttpOutcome) : LinphoneXmlRpcRequest :=
  if outcome.IsHttpError then { request with status := .ok }
  else request.readResponse (outcome.document xmlReadDoc)

/-- **The callback is called once**, with the request as it stays, which is released once. -/
theorem after_eq (xmlReadDoc : String → Option Node) (request : LinphoneXmlRpcRequest)
    (outcome : HttpOutcome) :
    request.after xmlReadDoc outcome =
      { request := request.final xmlReadDoc outcome
        invoked := if request.response then [request.final xmlReadDoc outcome] else []
        unrefs := 1 } := by
  cases outcome with
  | response r =>
      unfold LinphoneXmlRpcRequest.after XmlRpcRun.processResponse LinphoneXmlRpcRequest.final
        HttpOutcome.IsHttpError HttpOutcome.document
      by_cases hcode : r.code = 200
      · simp only [hcode, ↓reduceIte, ne_eq, not_true_eq_false, parseValidXmlRpcResponse_eq,
          callResponse_eq, readResponse_response]
        rfl
      · simp only [hcode, ↓reduceIte, ne_eq, not_false_eq_true]
        change (XmlRpcRun.callResponse { request := { request with status := .ok } }).unref = _
        rw [callResponse_eq]
        rfl
  | ioError =>
      change (XmlRpcRun.callResponse { request := { request with status := .failed } }).unref = _
      rw [callResponse_eq]
      rfl
  | authRequested =>
      change (XmlRpcRun.callResponse { request := { request with status := .failed } }).unref = _
      rw [callResponse_eq]
      rfl

/-- A document makes a request Ok exactly when it has a text at the path of its type. -/
theorem readResponse_ok_iff (doc : Node) :
    (request.readResponse (some doc)).status = .ok ↔
      match request.responseType with
      | .int => xmlTextContent (responseValues "int" doc) ≠ none
      | .string => xmlTextContent (responseValues "string" doc) ≠ none
      | .none => False := by
  unfold LinphoneXmlRpcRequest.readResponse
  cases htype : request.responseType with
  | none => simp
  | int =>
      cases htext : xmlTextContent (responseValues "int" doc) with
      | none => simp [htext]
      | some text => simp [htext]
  | string =>
      cases htext : xmlTextContent (responseValues "string" doc) with
      | none => simp [htext]
      | some text => simp [htext]

/-- A document is read as what it carries exactly when its values are clear. -/
theorem readResponse_iff (doc : Node) :
    ((request.readResponse (some doc)).status = .ok ↔ request.responseType.CarriedBy doc) ↔
      request.responseType.Clear doc := by
  rw [readResponse_ok_iff]
  unfold LinphoneXmlRpcArgType.CarriedBy LinphoneXmlRpcArgType.Clear
  cases request.responseType with
  | none => simp
  | int =>
      cases xmlTextContent (responseValues "int" doc) with
      | none => simp
      | some text => simp
  | string =>
      cases xmlTextContent (responseValues "string" doc) with
      | none => simp
      | some text => simp

theorem document_of_isHttpError (h : outcome.IsHttpError) : outcome.document xmlReadDoc = none := by
  cases outcome with
  | response r => exact if_neg h
  | ioError => rfl
  | authRequested => rfl

/-- **A request is handled as it was answered exactly when the answer is no error and clear.** -/
theorem requestHandles_iff :
    outcome.Handles xmlReadDoc request (request.after xmlReadDoc outcome) ↔
      ¬outcome.IsHttpError ∧
        ∀ doc ∈ outcome.document xmlReadDoc, request.responseType.Clear doc := by
  rw [after_eq]
  have hstatus : outcome.Handles xmlReadDoc request
      { request := request.final xmlReadDoc outcome
        invoked := if request.response then [request.final xmlReadDoc outcome] else []
        unrefs := 1 } ↔
      ((request.final xmlReadDoc outcome).status = .ok ↔
        ∃ doc ∈ outcome.document xmlReadDoc, request.responseType.CarriedBy doc) :=
    ⟨fun h => h.status, fun h => ⟨fun hcb => by simp [hcb], h⟩⟩
  rw [hstatus]
  unfold LinphoneXmlRpcRequest.final
  by_cases herror : outcome.IsHttpError
  · rw [if_pos herror]
    simp [document_of_isHttpError herror, herror]
  · rw [if_neg herror]
    cases hdoc : outcome.document xmlReadDoc with
    | none => simp [LinphoneXmlRpcRequest.readResponse, herror]
    | some doc =>
        simp only [Option.mem_some_iff, exists_eq_left', forall_eq', herror, not_false_eq_true,
          true_and]
        exact readResponse_iff doc

theorem ok_mem_creatorCb {cb : Bool} {value : Int} :
    .ok ∈ creatorCb cb value request ↔
      cb = true ∧ request.status = .ok ∧ request.i = value := by
  unfold creatorCb
  cases cb with
  | true => by_cases h : request.status = .ok ∧ request.i = value <;> simp [h]
  | false => simp

theorem ok_mem_responseCb :
    .ok ∈ creator.responseCb kind request ↔
      creator.Tells kind ∧ request.status = .ok ∧ request.i = kind.value := by
  cases kind <;> exact ok_mem_creatorCb

/-- What is reported as Ok. -/
theorem ok_mem_reports :
    .ok ∈ creator.reports xmlReadDoc kind outcome ↔
      creator.Sends kind ∧
        (LinphoneXmlRpcRequest.final { responseType := .int } xmlReadDoc outcome).status = .ok ∧
        (LinphoneXmlRpcRequest.final { responseType := .int } xmlReadDoc outcome).i =
          kind.value := by
  unfold LinphoneAccountCreator.reports
  rw [after_eq]
  by_cases hmissing : creator.username = none ∨ creator.domain = none
  · rw [if_pos hmissing]
    refine iff_of_false List.not_mem_nil fun h => ?_
    exact hmissing.elim h.1.username h.1.domain
  · rw [if_neg hmissing]
    obtain ⟨husername, hdomain⟩ := not_or.mp hmissing
    simp only [↓reduceIte, List.flatMap_singleton]
    rw [ok_mem_responseCb]
    exact and_congr_left fun _ => ⟨fun h => ⟨husername, hdomain, h⟩, fun h => h.tells⟩

/-- **What the account creator reports is what was answered exactly when nothing else passes for
it**, or nothing is reported. -/
theorem creatorReports_iff :
    outcome.Reports xmlReadDoc kind (creator.reports xmlReadDoc kind outcome) ↔
      (creator.Sends kind → outcome.Honest xmlReadDoc kind) := by
  unfold HttpOutcome.Reports
  rw [ok_mem_reports]
  unfold LinphoneXmlRpcRequest.final HttpOutcome.AnswersInt
  constructor
  · intro h hsends
    constructor
    · intro herror
      rw [if_pos herror, document_of_isHttpError herror] at h
      cases kind with
      | testValidation => rfl
      | testExistence => exact absurd (h ⟨hsends, rfl, rfl⟩) (by simp)
      | validate => exact absurd (h ⟨hsends, rfl, rfl⟩) (by simp)
    · intro doc hdoc text htext hvalue
      rw [Option.mem_def.mp hdoc] at h
      have herror : ¬outcome.IsHttpError := fun herror => by
        rw [document_of_isHttpError herror] at hdoc
        exact absurd hdoc (by simp)
      rw [if_neg herror] at h
      have hread : LinphoneXmlRpcRequest.readResponse { responseType := .int } (some doc) =
          { responseType := .int, i := atoiInt32 text, status := .ok } := by
        simp [LinphoneXmlRpcRequest.readResponse, Option.mem_def.mp htext]
      rw [hread] at h
      obtain ⟨_, hdoc', text', htext', hint⟩ := h ⟨hsends, rfl, hvalue⟩
      rw [← Option.some.inj hdoc', Option.mem_def.mp htext] at htext'
      exact ⟨_, Option.some.inj htext' ▸ hint⟩
  · rintro h ⟨hsends, hstatus, hi⟩
    have honest := h hsends
    by_cases herror : outcome.IsHttpError
    · rw [if_pos herror, honest.error herror] at hi
      exact absurd hi (by decide)
    · rw [if_neg herror] at hstatus hi
      cases hdoc : outcome.document xmlReadDoc with
      | none =>
          rw [hdoc] at hstatus
          exact absurd hstatus (by simp [LinphoneXmlRpcRequest.readResponse])
      | some doc =>
          cases htext : xmlTextContent (responseValues "int" doc) with
          | none =>
              rw [hdoc] at hstatus
              exact absurd hstatus (by simp [LinphoneXmlRpcRequest.readResponse, htext])
          | some text =>
              rw [hdoc] at hi
              simp only [LinphoneXmlRpcRequest.readResponse, htext] at hi
              obtain ⟨n, hn⟩ := honest.text doc hdoc text htext hi
              rw [atoiInt32_eq hn] at hi
              exact ⟨doc, rfl, text, htext, hi ▸ hn⟩

end outcome

/-! ## The claim -/

/-- **A request is handled as it was answered exactly when the answer is no error and its value is
clear; the account creator reports what was answered exactly when nothing else passes for it.** -/
theorem requestsAnswered_iff (xmlReadDoc : String → Option Node) (outcome : HttpOutcome)
    (request : LinphoneXmlRpcRequest) (creator : LinphoneAccountCreator) (kind : CreatorRequest) :
    (outcome.Handles xmlReadDoc request (request.after xmlReadDoc outcome) ↔
      ¬outcome.IsHttpError ∧
        ∀ doc ∈ outcome.document xmlReadDoc, request.responseType.Clear doc) ∧
    (outcome.Reports xmlReadDoc kind (creator.reports xmlReadDoc kind outcome) ↔
      (creator.Sends kind → outcome.Honest xmlReadDoc kind)) :=
  ⟨requestHandles_iff, creatorReports_iff⟩

/-- An error of the server is reported as an account that is not there. -/
theorem http_error_is_ok :
    ¬∀ (xmlReadDoc : String → Option Node) (outcome : HttpOutcome)
      (request : LinphoneXmlRpcRequest) (creator : LinphoneAccountCreator) (kind : CreatorRequest),
      outcome.Handles xmlReadDoc request (request.after xmlReadDoc outcome) ∧
        outcome.Reports xmlReadDoc kind (creator.reports xmlReadDoc kind outcome) := by
  intro h
  obtain ⟨_, hdoc, -⟩ := (h (fun _ => none) (.response { code := 500, body := none })
    { responseType := .int } { username := some "marie", domain := some "sip.example.org" }
    .testExistence).2 (by decide)
  exact absurd hdoc (by simp [HttpOutcome.document])

end Linphone

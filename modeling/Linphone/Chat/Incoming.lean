import Linphone.Call.Core
import Linphone.Lib.Scan
import Linphone.Lime.SendingKeys

/-!
# Incoming messages

`sal_process_incoming_message` (`bellesip_sal/sal_op_message.c`) with `text_received` and
`is_duplicate_msg` (`coreapi/callbacks.c`). A header that is not there is followed nevertheless: the
run is then undefined.

`message_answered_iff`: a MESSAGE has one final response, and is given to the application at most
once, when its Content-Type is there with what the branch it selects reads, the URL of an external
body has its two quotes, the cache of the keys can be written back, and a message that was delivered
is still among the last ones. `untyped_undefined` is a MESSAGE without Content-Type.
-/

namespace Linphone

/-! ## Requests -/

structure ContentType where
  type : String
  subtype : String
  /-- The parameter `URL`, with its quotes. -/
  url : Option (List Char) := none
deriving DecidableEq

namespace ContentType

variable (contentType : ContentType)

def isRcsFiletransfer : Bool :=
  contentType.type = "application" &&
    (contentType.subtype = "vnd.gsma.rcs-ft-http+xml" ||
      contentType.subtype = "cipher.vnd.gsma.rcs-ft-http+xml")

def isPlainText : Bool := contentType.type = "text" && contentType.subtype = "plain"

def isCipherXml : Bool :=
  contentType.type = "xml" && contentType.subtype = "cipher" ||
    contentType.type = "application" && contentType.subtype = "cipher.vnd.gsma.rcs-ft-http+xml"

def isExternalBody : Bool :=
  contentType.type = "message" && contentType.subtype = "external-body"

def isImIscomposing : Bool :=
  contentType.type = "application" && contentType.subtype = "im-iscomposing+xml"

end ContentType

/-- A MESSAGE, with any of its headers. -/
structure MessageRequest where
  fromHeader : Option String := none
  callId : Option (List Char) := none
  cseq : Option UInt32 := none
  date : Option Int := none
  contentType : Option ContentType := none
  body : Option (List UInt8) := none

structure SalMessage where
  sender : String
  text : Option (List UInt8)
  url : Option (List Char)
  messageId : List Char
  time : Int
  contentType : Option String
deriving DecidableEq

structure SalIsComposing where
  sender : String
  text : Option (List UInt8)
deriving DecidableEq

/-- The file of the ZRTP cache, as the system gives it during a reception. -/
structure ZrtpCacheFile where
  opens : Bool := true
  loads : Bool := true
  xml : Option XmlDoc := none
  /-- It opens once more to be written. -/
  reopens : Bool := true

/-! ## Reasons -/

inductive LinphoneReason
  | none | noResponse | forbidden | declined | notFound | notAnswered | busy | unsupportedContent
  | ioError | doNotDisturb | unauthorized | notAcceptable | noMatch | movedPermanently | gone
  | temporarilyUnavailable | addressIncomplete | notImplemented | badGateway | serverTimeout
  | unknown
deriving DecidableEq

/-- `linphone_reason_to_sal` -/
def LinphoneReason.toSal : LinphoneReason → SalReason
  | none => .none
  | noResponse => .requestTimeout
  | forbidden => .forbidden
  | declined => .declined
  | notFound => .notFound
  | temporarilyUnavailable => .temporarilyUnavailable
  | busy => .busy
  | notAcceptable => .notAcceptable
  | ioError => .serviceUnavailable
  | doNotDisturb => .doNotDisturb
  | unauthorized => .unauthorized
  | unsupportedContent => .unsupportedContent
  | noMatch => .noMatch
  | movedPermanently => .movedPermanently
  | gone => .gone
  | addressIncomplete => .addressIncomplete
  | notImplemented => .notImplemented
  | badGateway => .badGateway
  | serverTimeout => .serverTimeout
  | notAnswered => .requestTimeout
  | unknown => .unknown

/-- `sal_reason_to_sip_code` -/
def SalReason.toSipCode : SalReason → Nat
  | none => 200
  | ioError => 503
  | unknown => 400
  | busy => 486
  | declined => 603
  | doNotDisturb => 600
  | forbidden => 403
  | unsupportedContent => 415
  | notFound => 404
  | redirect => 302
  | temporarilyUnavailable => 480
  | serviceUnavailable => 503
  | requestPending => 491
  | unauthorized => 401
  | notAcceptable => 488
  | noMatch => 481
  | requestTimeout => 408
  | movedPermanently => 301
  | gone => 410
  | addressIncomplete => 484
  | notImplemented => 501
  | serverTimeout => 504
  | badGateway => 502

theorem two_hundred_le_toSipCode (reason : SalReason) : 200 ≤ reason.toSipCode := by
  cases reason <;> decide

/-! ## Handing a message over -/

structure MessageCore where
  chatDenyCode : LinphoneReason := .none
  lastRecvMsgIds : List (List Char) := []
  /-- The Call-ID and the number of the messages given to the application so far. -/
  delivered : List (List Char × UInt32) := []
deriving DecidableEq

/-- What a reception has done. -/
structure Reception where
  core : MessageCore
  /-- The codes of the responses that were sent. -/
  responses : List Nat
  /-- The messages given to the application. -/
  received : List SalMessage := []
  composing : List SalIsComposing := []
deriving DecidableEq

/-- `is_duplicate_msg`: the answer, and the identifiers that are kept. -/
def isDuplicateMsg (lastRecvMsgIds : List (List Char)) (msgId : List Char) :
    Bool × List (List Char) :=
  let isDuplicate := lastRecvMsgIds.contains msgId
  let ids := if isDuplicate then lastRecvMsgIds else msgId :: lastRecvMsgIds
  (isDuplicate, if 10 ≤ lastRecvMsgIds.length then ids.dropLast else ids)

/-- `text_received`, for the message with a Call-ID and a number. -/
def textReceived (core : MessageCore) (id : List Char × UInt32) (msg : SalMessage) : Reception :=
  let responses := [core.chatDenyCode.toSal.toSipCode]
  if core.chatDenyCode = .none then
    match isDuplicateMsg core.lastRecvMsgIds msg.messageId with
    | (true, ids) => { core := { core with lastRecvMsgIds := ids }, responses := responses }
    | (false, ids) =>
        { core := { core with lastRecvMsgIds := ids, delivered := id :: core.delivered }
          responses := responses
          received := [msg] }
  else { core := core, responses := responses }

/-! ## The handler -/

/-- `snprintf` of the Call-ID and the number, into 255 bytes. -/
def messageId (callId : List Char) (cseq : UInt32) : List Char :=
  (callId ++ Scan.decimal cseq.toInt32.toInt).take 254

/-- The URL without its quotes: it is copied from its second character on, and cut two characters
before the end of the original. -/
def unquoteUrl (url : List Char) : Outcome Nat (List Char) :=
  if url.length < 2 then .undefined else .ok ((url.drop 1).take (url.length - 2))

/-- The URL of an external body. -/
def ContentType.externalUrl (contentType : ContentType) : Outcome Nat (Option (List Char)) :=
  if contentType.isExternalBody then
    match contentType.url with
    | some url => some <$> unquoteUrl url
    | none => .ok none
  else .ok none

section handler

variable (lib : LimeLib) (asText : List UInt8 → lib.Text)

/-- `lime_decryptMultipartMessage` of the body, which is compared with the XML declaration once the
own ZID has been found. -/
def decryptBody (cacheXml : Option XmlDoc) : Option (List UInt8) → Lime (XmlDoc × List UInt8)
  | some body => decryptMultipartMessage lib cacheXml (asText body)
  | none =>
      match cacheXml with
      | none => .error .invalidCache
      | some cache =>
          match getSelfZid cache with
          | .error _ => .error .unableToDecryptMessage
          | _ => .undefined

/-- The message deciphered, or the code of the error response. -/
def decipher (file : ZrtpCacheFile) (body : Option (List UInt8)) : Outcome Nat (List UInt8) :=
  if file.opens = false then .error 500
  else if file.loads = false then .error 500
  else
    match decryptBody lib asText file.xml body with
    | .ok (_, decryptedMessage) => if file.reopens then .ok decryptedMessage else .undefined
    | .error _ => .error 488
    | .undefined => .undefined

/-- The message for the application, from a request whose Content-Type is one of a text. -/
def salMessage (now : Int) (req : MessageRequest) (contentType : ContentType)
    (decryptedMessage : Option (List UInt8)) :
    Outcome Nat ((List Char × UInt32) × SalMessage) := do
  let sender ← .ofOption req.fromHeader
  let callId ← .ofOption req.callId
  let cseq ← .ofOption req.cseq
  let text :=
    if contentType.isCipherXml then decryptedMessage
    else if contentType.isPlainText || contentType.isRcsFiletransfer then req.body
    else none
  let url ← contentType.externalUrl
  .ok ((callId, cseq),
    { sender := sender
      text := text
      url := url
      messageId := messageId callId cseq
      time := req.date.getD now
      contentType :=
        if contentType.isRcsFiletransfer then some "application/vnd.gsma.rcs-ft-http+xml"
        else none })

/-- The branches on the Content-Type. -/
def processContent (now : Int) (core : MessageCore) (req : MessageRequest)
    (contentType : ContentType) (decryptedMessage : Option (List UInt8)) : Outcome Nat Reception :=
  if contentType.isPlainText || contentType.isExternalBody || decryptedMessage.isSome ||
      contentType.isRcsFiletransfer then do
    let (id, msg) ← salMessage now req contentType decryptedMessage
    .ok (textReceived core id msg)
  else if contentType.isImIscomposing then do
    let sender ← .ofOption req.fromHeader
    .ok { core := core, responses := [200], composing := [{ sender := sender, text := req.body }] }
  else .ok { core := core, responses := [415] }

/-- The responses of the error path, and nothing where a run is undefined. -/
def conclude (core : MessageCore) : Outcome Nat Reception → Option Reception
  | .ok reception => some reception
  | .error errcode => some { core := core, responses := [errcode] }
  | .undefined => none

/-- `sal_process_incoming_message`. Whether the message is a file transfer is asked of any
Content-Type, there or not. -/
def processIncomingMessage (file : ZrtpCacheFile) (now : Int) (core : MessageCore)
    (req : MessageRequest) : Option Reception :=
  conclude core do
    let contentType ← .ofOption req.contentType
    let decryptedMessage ←
      if contentType.isCipherXml then some <$> decipher lib asText file req.body else .ok none
    processContent now core req contentType decryptedMessage

end handler

/-! ## What is claimed -/

/-- One final response, one delivery at most, and none of a message that was delivered before. -/
structure Reception.Sound (core : MessageCore) (req : MessageRequest) (reception : Reception) :
    Prop where
  response : ∃ code, reception.responses = [code] ∧ 200 ≤ code
  once : reception.received.length ≤ 1
  known : ∀ callId cseq, req.callId = some callId → req.cseq = some cseq →
    (callId, cseq) ∈ core.delivered → reception.received = []

/-- A reception is defined, and sound. -/
def MessageAnswered (core : MessageCore) (req : MessageRequest) (reception : Option Reception) :
    Prop :=
  ∃ r, reception = some r ∧ r.Sound core req

/-! ## When it holds -/

section condition

variable (lib : LimeLib) (asText : List UInt8 → lib.Text) (file : ZrtpCacheFile)
  (core : MessageCore) (req : MessageRequest) (contentType : ContentType)

/-- What the branch of a text reads. -/
structure MessageRequest.Readable : Prop where
  fromHeader : req.fromHeader ≠ none
  callId : req.callId ≠ none
  cseq : req.cseq ≠ none
  url : contentType.isExternalBody = true → ∀ url ∈ contentType.url, 2 ≤ url.length

/-- A message that was delivered is among the last ones, or messages are denied. -/
def MessageRequest.Remembered : Prop :=
  ∀ callId cseq, req.callId = some callId → req.cseq = some cseq →
    (callId, cseq) ∈ core.delivered →
      core.chatDenyCode ≠ .none ∨ messageId callId cseq ∈ core.lastRecvMsgIds

/-- What `sal_process_incoming_message` relies on, for the kind of message that a Content-Type
tells. -/
structure MessageRequest.WellFormed : Prop where
  text : contentType.isCipherXml = false → contentType.isPlainText = true ∨
    contentType.isExternalBody = true ∨ contentType.isRcsFiletransfer = true →
      req.Readable contentType ∧ req.Remembered core
  composing : contentType.isImIscomposing = true → req.fromHeader ≠ none
  cipher : contentType.isCipherXml = true → file.opens = true → file.loads = true →
    decryptBody lib asText file.xml req.body ≠ .undefined ∧
      ∀ plain, decryptBody lib asText file.xml req.body = .ok plain →
        file.reopens = true ∧ req.Readable contentType ∧ req.Remembered core

end condition

section receptions

variable {lib : LimeLib} {asText : List UInt8 → lib.Text} {file : ZrtpCacheFile} {now : Int}
  {core : MessageCore} {req : MessageRequest} {contentType : ContentType}
  {callId : List Char} {cseq : UInt32} {msg : SalMessage}

theorem answered_ok_iff {r : Reception} :
    MessageAnswered core req (conclude core (.ok r)) ↔ r.Sound core req := by
  constructor
  · rintro ⟨r', heq, hsound⟩
    rw [Option.some.inj heq]
    exact hsound
  · intro hsound
    exact ⟨r, rfl, hsound⟩

theorem sound_of_response {r : Reception} {code : Nat} (hresponses : r.responses = [code])
    (hcode : 200 ≤ code) (hreceived : r.received = []) : r.Sound core req where
  response := ⟨code, hresponses, hcode⟩
  once := by simp [hreceived]
  known := fun _ _ _ _ _ => hreceived

theorem answered_error {code : Nat} (hcode : 200 ≤ code) :
    MessageAnswered core req (conclude core (.error code)) :=
  ⟨_, rfl, sound_of_response rfl hcode rfl⟩

theorem not_answered_undefined : ¬MessageAnswered core req (conclude core .undefined) := by
  rintro ⟨r, heq, -⟩
  exact absurd heq (by simp [conclude])

/-! ## One text -/

theorem textReceived_responses :
    (textReceived core (callId, cseq) msg).responses = [core.chatDenyCode.toSal.toSipCode] := by
  unfold textReceived
  split
  · split <;> rfl
  · rfl

theorem textReceived_received :
    (textReceived core (callId, cseq) msg).received =
      if core.chatDenyCode = .none ∧ msg.messageId ∉ core.lastRecvMsgIds then [msg] else [] := by
  unfold textReceived
  by_cases hdeny : core.chatDenyCode = .none
  · by_cases hmem : msg.messageId ∈ core.lastRecvMsgIds
    · simp [hdeny, hmem, isDuplicateMsg]
    · simp [hdeny, hmem, isDuplicateMsg]
  · simp [hdeny]

theorem textReceived_sound_iff (hcallId : req.callId = some callId) (hcseq : req.cseq = some cseq)
    (hmsg : msg.messageId = messageId callId cseq) :
    (textReceived core (callId, cseq) msg).Sound core req ↔ req.Remembered core := by
  constructor
  · intro h callId' cseq' hcallId' hcseq' hmem
    have hnone := h.known callId' cseq' hcallId' hcseq' hmem
    obtain rfl := Option.some.inj (hcallId.symm.trans hcallId')
    obtain rfl := Option.some.inj (hcseq.symm.trans hcseq')
    rw [textReceived_received, hmsg] at hnone
    by_cases hdeny : core.chatDenyCode = .none
    · by_cases hid : messageId callId cseq ∈ core.lastRecvMsgIds
      · exact .inr hid
      · exact absurd hnone (by simp [hdeny, hid])
    · exact .inl hdeny
  · intro h
    refine ⟨⟨_, textReceived_responses, two_hundred_le_toSipCode _⟩, ?_, ?_⟩
    · rw [textReceived_received]
      split
      · exact Nat.le_refl 1
      · exact Nat.zero_le 1
    · intro callId' cseq' hcallId' hcseq' hmem
      have hremembered := h callId' cseq' hcallId' hcseq' hmem
      obtain rfl := Option.some.inj (hcallId.symm.trans hcallId')
      obtain rfl := Option.some.inj (hcseq.symm.trans hcseq')
      rw [textReceived_received, hmsg, if_neg]
      rintro ⟨hdeny, hid⟩
      exact hremembered.elim (absurd hdeny) (absurd · hid)

variable (contentType) in
theorem externalUrl_cases :
    ((contentType.isExternalBody = true → ∀ url ∈ contentType.url, 2 ≤ url.length) ∧
      ∃ url, contentType.externalUrl = .ok url) ∨
    (¬(contentType.isExternalBody = true → ∀ url ∈ contentType.url, 2 ≤ url.length) ∧
      contentType.externalUrl = .undefined) := by
  unfold ContentType.externalUrl
  by_cases hexternal : contentType.isExternalBody = true
  · rw [if_pos hexternal]
    cases hurl : contentType.url with
    | none => exact .inl ⟨by simp, none, rfl⟩
    | some url =>
        unfold unquoteUrl
        by_cases hlt : url.length < 2
        · exact .inr ⟨fun h => absurd (h hexternal url rfl) (by omega), by simp [hlt]; rfl⟩
        · refine .inl ⟨fun _ u hu => ?_, _, by simp [hlt]; rfl⟩
          rw [← Option.some.inj hu]
          omega
  · rw [if_neg hexternal]
    exact .inl ⟨fun h => absurd h hexternal, none, rfl⟩

variable (now req contentType) in
/-- The message for the application is built when what it is built of is there. -/
theorem salMessage_cases (decryptedMessage : Option (List UInt8)) :
    (req.Readable contentType ∧ ∃ callId cseq msg, req.callId = some callId ∧
      req.cseq = some cseq ∧ msg.messageId = messageId callId cseq ∧
        salMessage now req contentType decryptedMessage = .ok ((callId, cseq), msg)) ∨
      (¬req.Readable contentType ∧
        salMessage now req contentType decryptedMessage = .undefined) := by
  unfold salMessage
  cases hfrom : req.fromHeader with
  | none => exact .inr ⟨fun h => h.fromHeader hfrom, rfl⟩
  | some sender =>
  cases hcallId : req.callId with
  | none => exact .inr ⟨fun h => h.callId hcallId, rfl⟩
  | some callId =>
  cases hcseq : req.cseq with
  | none => exact .inr ⟨fun h => h.cseq hcseq, rfl⟩
  | some cseq =>
  rcases externalUrl_cases contentType with ⟨hurl, url, heq⟩ | ⟨hurl, heq⟩
  · rw [heq]
    exact .inl ⟨⟨by simp [hfrom], by simp [hcallId], by simp [hcseq], hurl⟩, callId, cseq, _, rfl,
      rfl, rfl, rfl⟩
  · rw [heq]
    exact .inr ⟨fun h => hurl h.url, rfl⟩

/-- A text: the message is built and handed over. -/
theorem answered_text_iff (decryptedMessage : Option (List UInt8)) :
    MessageAnswered core req (conclude core do
      let (id, msg) ← salMessage now req contentType decryptedMessage
      .ok (textReceived core id msg)) ↔
    req.Readable contentType ∧ req.Remembered core := by
  rcases salMessage_cases now req contentType decryptedMessage with
    ⟨hreadable, callId, cseq, msg, hcallId, hcseq, hmsg, heq⟩ | ⟨hnot, heq⟩
  · rw [heq, Outcome.ok_bind, answered_ok_iff, textReceived_sound_iff hcallId hcseq hmsg]
    exact ⟨fun h => ⟨hreadable, h⟩, fun h => h.2⟩
  · rw [heq, Outcome.undefined_bind]
    exact ⟨fun h => absurd h not_answered_undefined, fun h => absurd h.1 hnot⟩

/-! ## The branches -/

theorem not_text_of_isImIscomposing (h : contentType.isImIscomposing = true) :
    contentType.isPlainText = false ∧ contentType.isExternalBody = false ∧
      contentType.isRcsFiletransfer = false ∧ contentType.isCipherXml = false := by
  obtain ⟨htype, hsubtype⟩ : contentType.type = "application" ∧
      contentType.subtype = "im-iscomposing+xml" := by
    simpa [ContentType.isImIscomposing] using h
  simp [ContentType.isPlainText, ContentType.isExternalBody, ContentType.isRcsFiletransfer,
    ContentType.isCipherXml, htype, hsubtype]

/-- The branches for a message that is not deciphered. -/
theorem answered_plain_iff :
    MessageAnswered core req (conclude core (processContent now core req contentType none)) ↔
      (contentType.isPlainText = true ∨ contentType.isExternalBody = true ∨
          contentType.isRcsFiletransfer = true →
        req.Readable contentType ∧ req.Remembered core) ∧
      (contentType.isImIscomposing = true → req.fromHeader ≠ none) := by
  unfold processContent
  by_cases htext : contentType.isPlainText = true ∨ contentType.isExternalBody = true ∨
      contentType.isRcsFiletransfer = true
  · have hnot : contentType.isImIscomposing ≠ true := fun himdn => by
      have hkind := not_text_of_isImIscomposing himdn
      simp [hkind.1, hkind.2.1, hkind.2.2.1] at htext
    rw [if_pos (by simpa [or_assoc] using htext), answered_text_iff]
    exact ⟨fun h => ⟨fun _ => h, fun himdn => absurd himdn hnot⟩, fun h => h.1 htext⟩
  · rw [if_neg (by simpa [or_assoc] using htext)]
    by_cases himdn : contentType.isImIscomposing = true
    · rw [if_pos himdn]
      cases hfrom : req.fromHeader with
      | none => exact ⟨fun h => absurd h not_answered_undefined, fun h => absurd rfl (h.2 himdn)⟩
      | some sender =>
          exact ⟨fun _ => ⟨fun h => absurd h htext, fun _ => Option.some_ne_none sender⟩,
            fun _ => answered_ok_iff.mpr (sound_of_response rfl (Nat.le_refl 200) rfl)⟩
    · rw [if_neg himdn]
      exact ⟨fun _ => ⟨fun h => absurd h htext, fun h => absurd h himdn⟩,
        fun _ => answered_ok_iff.mpr (sound_of_response rfl (by decide) rfl)⟩

/-- A message that is deciphered is a text. -/
theorem answered_cipher_iff :
    MessageAnswered core req (conclude core do
      let decryptedMessage ← some <$> decipher lib asText file req.body
      processContent now core req contentType decryptedMessage) ↔
    (file.opens = true → file.loads = true →
      decryptBody lib asText file.xml req.body ≠ .undefined ∧
        ∀ plain, decryptBody lib asText file.xml req.body = .ok plain →
          file.reopens = true ∧ req.Readable contentType ∧ req.Remembered core) := by
  unfold decipher
  by_cases hopens : file.opens = false
  · rw [if_pos hopens]
    exact ⟨fun _ h => absurd (h.symm.trans hopens) (by decide),
      fun _ => answered_error (by decide)⟩
  by_cases hloads : file.loads = false
  · rw [if_neg hopens, if_pos hloads]
    exact ⟨fun _ _ h => absurd (h.symm.trans hloads) (by decide),
      fun _ => answered_error (by decide)⟩
  rw [if_neg hopens, if_neg hloads]
  have hthere : file.opens = true ∧ file.loads = true := by simpa using And.intro hopens hloads
  cases hdecrypt : decryptBody lib asText file.xml req.body with
  | undefined =>
      exact ⟨fun h => absurd h not_answered_undefined,
        fun h => absurd rfl (h hthere.1 hthere.2).1⟩
  | error code => exact ⟨fun _ _ _ => ⟨by simp, by simp⟩, fun _ => answered_error (by decide)⟩
  | ok plain =>
      by_cases hreopens : file.reopens = true
      · have hcontent : processContent now core req contentType (some plain.2) = (do
            let (id, msg) ← salMessage now req contentType (some plain.2)
            .ok (textReceived core id msg)) := by
          unfold processContent
          rw [if_pos (by simp)]
        simp only [hreopens, if_true]
        change MessageAnswered core req
          (conclude core (processContent now core req contentType (some plain.2))) ↔ _
        rw [hcontent, answered_text_iff]
        exact ⟨fun h _ _ => ⟨by simp, fun _ _ => ⟨trivial, h⟩⟩,
          fun h => ((h hthere.1 hthere.2).2 plain rfl).2⟩
      · simp only [if_neg hreopens]
        exact ⟨fun h => absurd h not_answered_undefined,
          fun h => absurd ((h hthere.1 hthere.2).2 plain rfl).1 hreopens⟩

variable (lib asText file now core req) in
/-- **A MESSAGE is answered once and delivered once at most, exactly when it has a Content-Type, and
what this one makes the handler rely on.** -/
theorem message_answered_iff :
    MessageAnswered core req (processIncomingMessage lib asText file now core req) ↔
      ∃ contentType, req.contentType = some contentType ∧
        req.WellFormed lib asText file core contentType := by
  unfold processIncomingMessage
  cases htype : req.contentType with
  | none =>
      exact ⟨fun h => absurd h not_answered_undefined,
        fun ⟨_, hsome, _⟩ => absurd hsome (by simp)⟩
  | some contentType =>
      rw [Outcome.ofOption_some, Outcome.ok_bind]
      have hone (P : ContentType → Prop) : (∃ t, some contentType = some t ∧ P t) ↔ P contentType :=
        ⟨fun ⟨_, heq, ht⟩ => Option.some.inj heq ▸ ht, fun ht => ⟨contentType, rfl, ht⟩⟩
      rw [hone]
      by_cases hcipher : contentType.isCipherXml = true
      · simp only [if_pos hcipher]
        rw [answered_cipher_iff]
        constructor
        · intro h
          refine ⟨fun hno => absurd (hcipher.symm.trans hno) (by decide), fun himdn => ?_,
            fun _ => h⟩
          have hkind := (not_text_of_isImIscomposing himdn).2.2.2
          exact absurd (hcipher.symm.trans hkind) (by decide)
        · intro h
          exact h.cipher hcipher
      · simp only [if_neg hcipher, Outcome.ok_bind]
        rw [answered_plain_iff]
        constructor
        · intro h
          exact ⟨fun _ => h.1, h.2, fun hyes => absurd hyes hcipher⟩
        · intro h
          exact ⟨h.text (by simpa using hcipher), h.composing⟩

end receptions

/-- A MESSAGE without Content-Type is not answered. -/
theorem untyped_undefined :
    ¬∀ (lib : LimeLib) (asText : List UInt8 → lib.Text) (file : ZrtpCacheFile) (now : Int)
      (core : MessageCore) (req : MessageRequest),
      MessageAnswered core req (processIncomingMessage lib asText file now core req) := by
  intro h
  have hanswered := h toyLib (fun _ => ⟨none⟩) {} 0 {} {
    fromHeader := some "sip:marie@sip.example.org"
    callId := some "bd3f".toList
    cseq := some 20
    body := some "Hello".toUTF8.toList }
  exact not_answered_undefined hanswered

end Linphone

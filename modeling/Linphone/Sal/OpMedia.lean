import Linphone.Sal.Process

/-!
# The descriptions of a call operation

What a call operation of `bellesip_sal/sal_op_call.c` keeps of the negotiation of its session: the
local description, the remote one, the result, and the answer that was prepared. The result and
the answer are caches, filled by `sdp_process` and invalidated by different functions.

Descriptions that were set or received are numbered, so that it can be said which ones a cached
value was computed from. The numbers are not in the source.
-/

namespace Linphone

/-- `SalOpSDPHandling` -/
inductive SalOpSDPHandling
  | normal | simulateError | simulateRemove
deriving DecidableEq, Inhabited

/-- The body of a message, as far as `extract_sdp` looks at it. -/
inductive MessageBody
  | empty
  | sdp (md : SalMediaDescription)
  /-- `application/sdp` that cannot be parsed. -/
  | invalidSdp
  /-- A body without a content type. -/
  | untyped
  /-- A body of another type. -/
  | other
deriving Inhabited

/-- `*error` of `extract_sdp` -/
inductive SdpError
  | notAcceptable | unsupportedContent
deriving DecidableEq

/-- `extract_sdp` -/
def extractSdp (handling : SalOpSDPHandling) (body : MessageBody) :
    Except SdpError (Option SalMediaDescription) :=
  match handling, body with
  | .simulateError, _ => .error .notAcceptable
  | .simulateRemove, _ => .ok none
  | .normal, .empty | .normal, .untyped => .ok none
  | .normal, .sdp md => .ok (some md)
  | .normal, .invalidSdp => .error .notAcceptable
  | .normal, .other => .error .unsupportedContent

/-- The descriptions of an operation, with `localVer` local descriptions set and `remoteVer` remote
ones received so far, the number `remoteOf` of the remote one that is kept, and the numbers of the
two that the result and the answer come from. -/
structure OpMedia where
  /-- `base.local_media` -/
  localMedia : Option SalMediaDescription := none
  /-- `base.remote_media` -/
  remoteMedia : Option SalMediaDescription := none
  result : Option SalMediaDescription := none
  sdpAnswer : Option SalMediaDescription := none
  sdpOffering : Bool := false
  sdpHandling : SalOpSDPHandling := .normal
  cnxIpTo0000IfSendonlyEnabled : Bool := false
  oneMatchingCodec : Bool := false
  localVer : Nat := 0
  remoteVer : Nat := 0
  remoteOf : Nat := 0
  resultOf : Nat × Nat := (0, 0)
  answerOf : Nat × Nat := (0, 0)

/-- The SDP a message is sent with. -/
inductive SentSdp
  | offer (md : SalMediaDescription)
  | answer (md : SalMediaDescription)

namespace OpMedia

variable (lib : MediaLib) (m : OpMedia)

/-- The numbers of the last descriptions. -/
def versions : Nat × Nat := (m.localVer, m.remoteVer)

/-- The numbers of the descriptions that are negotiated. -/
def kept : Nat × Nat := (m.localVer, m.remoteOf)

/-- The operation of `sdp_process`, with its local description. -/
def salOp (locals : SalMediaDescription) : SalOp where
  localMedia := locals
  remoteMedia := m.remoteMedia
  sdpOffering := m.sdpOffering
  cnxIpTo0000IfSendonlyEnabled := m.cnxIpTo0000IfSendonlyEnabled
  oneMatchingCodec := m.oneMatchingCodec
  result := m.result
  sdpAnswer := m.sdpAnswer

/-- `sdp_process`, for an operation with that local description. -/
def sdpProcessWith (locals : SalMediaDescription) : OpMedia :=
  let h := Linphone.sdpProcess lib (m.salOp locals)
  { m with
    localMedia := some h.localMedia, result := h.result, sdpAnswer := h.sdpAnswer
    resultOf := m.kept
    answerOf := if m.remoteMedia.isSome && !m.sdpOffering then m.kept else m.answerOf }

/-- `sdp_process`; the local description is dereferenced when there is a remote one. -/
def sdpProcess : Option OpMedia :=
  match m.localMedia, m.remoteMedia with
  | some locals, _ => some (m.sdpProcessWith lib locals)
  | none, none => some { m with result := none }
  | none, some _ => none

/-- A remote description has come in. -/
def hear (body : MessageBody) : OpMedia :=
  match body with
  | .sdp _ => { m with remoteVer := m.remoteVer + 1 }
  | _ => m

/-- `sal_call_set_local_media_description` -/
def setLocal (desc : Option SalMediaDescription) : OpMedia :=
  { m with
    localMedia := desc
    localVer := m.localVer + 1
    -- the answer is computed again
    sdpAnswer := if m.remoteMedia.isSome then none else m.sdpAnswer }

/-- `sal_call_get_final_media_description` -/
def getFinal : OpMedia :=
  match m.localMedia with
  | some locals =>
      if m.remoteMedia.isSome && m.result.isNone then m.sdpProcessWith lib locals else m
  | none => m

/-- `sal_op_reset_descriptions` -/
def resetDescriptions : OpMedia := { m with remoteMedia := none, result := none }

/-- The part of `process_sdp_for_invite` before the request is declined, with the reason. -/
def processSdpForInvite (body : MessageBody) : OpMedia × Option SdpError :=
  match extractSdp m.sdpHandling body with
  | .ok (some md) =>
      ({ m with sdpOffering := false, remoteMedia := some md, remoteOf := m.remoteVer },
        if md.nbStreams = 0 then some .notAcceptable else none)
  | .ok none => ({ m with sdpOffering := true }, none) -- without SDP
  | .error reason => (m, some reason)

/-- `handle_sdp_from_response` -/
def handleSdpFromResponse (body : MessageBody) : OpMedia :=
  let m :=
    { m with
      remoteMedia :=
        match extractSdp m.sdpHandling body with
        | .ok md => md
        | .error _ => none
      remoteOf := m.remoteVer }
  -- SDP is processed in any case, to reset the result
  match m.localMedia with
  | some locals => m.sdpProcessWith lib locals
  | none => m

/-- The SDP of an ACK, when the local side has offered. -/
def handleSdpFromAck (body : MessageBody) : Option OpMedia :=
  if m.sdpOffering then
    match extractSdp m.sdpHandling body with
    | .ok (some md) => { m with remoteMedia := some md, remoteOf := m.remoteVer }.sdpProcess lib
    | _ => some m -- a warning
  else some m

/-- `handle_offer_answer_response` -/
def handleOfferAnswerResponse : OpMedia × Option SentSdp :=
  match m.localMedia with
  | none => (m, none) -- an error: no media capabilities
  | some locals =>
      -- an INVITE without SDP was received
      if m.sdpOffering then (m, some (.offer locals))
      else
        let m :=
          if m.sdpAnswer.isNone && m.sdpHandling ≠ .simulateRemove then
            m.sdpProcessWith lib locals
          else m
        match m.sdpAnswer with
        | some answer => ({ m with sdpAnswer := none }, some (.answer answer))
        | none => (m, none)

/-- The SDP part of `sal_op_fill_invite`. -/
def fillInvite : OpMedia × Option SentSdp :=
  match m.localMedia with
  | some locals => ({ m with sdpOffering := true }, some (.offer locals))
  | none => ({ m with sdpOffering := false }, none)

/-- The SDP that is put into the ACK of an answer. -/
def ackSdp : OpMedia × Option SentSdp :=
  match m.sdpAnswer with
  | some answer => ({ m with sdpAnswer := none }, some (.answer answer))
  | none => (m, none)

end OpMedia

end Linphone

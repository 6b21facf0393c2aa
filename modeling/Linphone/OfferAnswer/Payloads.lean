import Linphone.Sal.Description

/-!
# Matching payload types

The codec half of `coreapi/offeranswer.c`: the per-codec matchers, `match_payloads` and
`only_telephone_event`.

One matcher has a side effect. `opus_match`, asked about a mono `opus`, sets the channel count
of the local entries it walks over, and the local list is shared: a later m-line matched to the
same local stream sees the change. So every function here returns the local list as it leaves
it. `eraseOpus` forgets what the side effect can touch, and the lemmas about it say that
matching never depends on it.
-/

namespace Linphone

/-! ## The matchers -/

/-- `only_telephone_event` -/
def onlyTelephoneEvent (l : List PayloadType) : Bool :=
  l.all fun p => strcasecmp p.mimeType "telephone-event"

/-- The loop of `opus_match`; `candidate` is the variable of that name. -/
def opusMatch (refpt : PayloadType) :
    List PayloadType → Option PayloadType → List PayloadType × Option PayloadType
  | [], candidate => ([], candidate)
  | pt :: l, candidate =>
      if strcasecmp pt.mimeType "opus" then
        if refpt.channels = 1 then
          -- so that we respond with the same number of channels
          let pt' := { pt with channels := 1 }
          let r := opusMatch refpt l (some pt')
          (pt' :: r.1, r.2)
        else if refpt.channels = 2 then (pt :: l, some pt)
        else
          let r := opusMatch refpt l candidate
          (pt :: r.1, r.2)
      else
        let r := opusMatch refpt l candidate
        (pt :: r.1, r.2)

/-- `g729A_match`: the last `G729` entry, as the loop does not stop at the first. -/
def g729AMatch (l : List PayloadType) (refpt : PayloadType) : Option PayloadType :=
  l.foldl (fun candidate pt =>
    if strcasecmp pt.mimeType "G729" && refpt.channels == pt.channels then some pt
    else candidate) none

/-- `atoi`: optional blanks, an optional sign and as many digits as there are. -/
def atoi (s : String) : Int :=
  match s.toList.dropWhile Char.isWhitespace with
  | '-' :: ds => -digits ds
  | '+' :: ds => digits ds
  | ds => digits ds
where
  /-- The value of the leading digits. -/
  digits (ds : List Char) : Int :=
    (ds.takeWhile Char.isDigit).foldl (fun n c => 10 * n + ((c.toNat : Int) - 48)) 0

/-- Same codec: equal names up to case, clock rates and channel counts. -/
def sameCodec (pt refpt : PayloadType) : Bool :=
  strcasecmp pt.mimeType refpt.mimeType && pt.clockRate == refpt.clockRate &&
    pt.channels == refpt.channels

variable (lib : MediaLib)

/-- The `octet-align` parameter of an fmtp line, zero when it is not given. -/
def octetAlign (fmtp : Option String) : Int :=
  match fmtp.bind fun f => lib.fmtpGetValue f "octet-align" with
  | some value => atoi value
  | none => 0

/-- `amr_match` -/
def amrMatch (l : List PayloadType) (refpt : PayloadType) : Option PayloadType :=
  l.find? fun pt =>
    sameCodec pt refpt && octetAlign lib pt.recvFmtp == octetAlign lib refpt.sendFmtp

/-- `generic_match` -/
def genericMatch (l : List PayloadType) (refpt : PayloadType) : Option PayloadType :=
  l.find? fun pt => sameCodec pt refpt

/-- `find_payload_type_best_match`, with the dispatch of the `matchers` table. Returns the local
list after the matcher ran on it, and the match. -/
def findPayloadTypeBestMatch (l : List PayloadType) (refpt : PayloadType) :
    List PayloadType × Option PayloadType :=
  if strcasecmp "opus" refpt.mimeType then opusMatch refpt l none
  else if strcasecmp "G729A" refpt.mimeType then (l, g729AMatch l refpt)
  else if strcasecmp "AMR" refpt.mimeType then (l, amrMatch lib l refpt)
  else if strcasecmp "AMR-WB" refpt.mimeType then (l, amrMatch lib l refpt)
  else (l, genericMatch l refpt)

/-! ## `match_payloads` -/

/-- The negotiated payload type built from the local match of `p2`, under the remote number. -/
def negotiatedPayload (matched p2 : PayloadType) : PayloadType :=
  let newp := match p2.sendFmtp with
    | some fmtp => { matched with sendFmtp := lib.appendSendFmtp matched.sendFmtp fmtp }
    | none => matched
  let newp := { newp with flags := { newp.flags with canRecv := true, canSend := true } }
  let newp :=
    if p2.flags.rtcpFeedbackEnabled then
      { newp with
        flags := { newp.flags with rtcpFeedbackEnabled := true }
        avpf :=
          { features := newp.avpf.features &&& p2.avpf.features
            rpsiCompatibility := p2.avpf.rpsiCompatibility
            trrInterval :=
              if p2.avpf.trrInterval < matched.avpf.trrInterval then matched.avpf.trrInterval
              else newp.avpf.trrInterval } }
    else newp
  { newp with number := p2.number, flags := { newp.flags with frozenNumber := true } }

/-- The variables of `match_payloads` while it walks over the remote list. -/
structure MatchState where
  /-- `local`, as the matchers leave it -/
  locals : List PayloadType
  res : List PayloadType := []
  foundCodec : Bool := false

/-- One remote payload type of `match_payloads`. -/
def matchPayload (readingResponse oneMatchingCodec : Bool) (s : MatchState) (p2 : PayloadType) :
    MatchState :=
  let r := findPayloadTypeBestMatch lib s.locals p2
  match r.2 with
  | none => { s with locals := r.1 }
  | some matched =>
      let isCodec := !strcasecmp matched.mimeType "telephone-event"
      -- `one_matching_codec`: a real codec has been found already, this one is not added
      if oneMatchingCodec && isCodec && s.foundCodec then { s with locals := r.1 }
      else
        let newp := negotiatedPayload lib matched p2
        -- we send with the remote numbering but must be able to receive with our own
        let own :=
          if readingResponse && p2.number != matched.number then
            [{ newp with number := matched.number }]
          else []
        { locals := r.1
          res := s.res ++ newp :: own
          foundCodec := s.foundCodec || (oneMatchingCodec && isCodec) }

/-- The local payload types the answer left out are added for reception only. -/
def addRemaining (locals res : List PayloadType) : List PayloadType :=
  locals.foldl (fun res p1 =>
    if res.any fun p2 => p2.number == p1.number then res
    else res ++ [{ p1 with flags := { p1.flags with canRecv := true, frozenNumber := true } }]) res

/-- `match_payloads`: the local list after the call, and the list it returns. -/
def matchPayloads (locals remote : List PayloadType) (readingResponse oneMatchingCodec : Bool) :
    List PayloadType × List PayloadType :=
  let s := remote.foldl (matchPayload lib readingResponse oneMatchingCodec) { locals := locals }
  (s.locals, if readingResponse then addRemaining s.locals s.res else s.res)

/-! ## Matching does not depend on the channel count of `opus` -/

/-- Forget the channel count of an `opus` entry. -/
def eraseOpus (pt : PayloadType) : PayloadType :=
  if strcasecmp pt.mimeType "opus" then { pt with channels := 0 } else pt

theorem strcasecmp_iff {s t : String} :
    strcasecmp s t = true ↔ s.toList.map Char.toLower = t.toList.map Char.toLower := by
  simp [strcasecmp]

@[simp] theorem eraseOpus_mimeType (pt : PayloadType) :
    (eraseOpus pt).mimeType = pt.mimeType := by
  unfold eraseOpus; split <;> rfl

@[simp] theorem eraseOpus_recvFmtp (pt : PayloadType) :
    (eraseOpus pt).recvFmtp = pt.recvFmtp := by
  unfold eraseOpus; split <;> rfl

theorem eraseOpus_of_ne {pt : PayloadType} (h : ¬strcasecmp pt.mimeType "opus" = true) :
    eraseOpus pt = pt := by
  simp only [eraseOpus, h, Bool.false_eq_true, if_false]

theorem eraseOpus_channels {pt : PayloadType} (h : strcasecmp pt.mimeType "opus" = true) (c : Int) :
    eraseOpus { pt with channels := c } = eraseOpus pt := by
  simp only [eraseOpus, h, if_true]

theorem sameCodec_eraseOpus {pt refpt : PayloadType}
    (h : ¬strcasecmp "opus" refpt.mimeType = true) :
    sameCodec (eraseOpus pt) refpt = sameCodec pt refpt := by
  by_cases hpt : strcasecmp pt.mimeType "opus" = true
  · -- an `opus` entry has another name than the reference, before and after
    have hne : strcasecmp pt.mimeType refpt.mimeType = false := by
      rw [strcasecmp_iff] at hpt
      simpa only [strcasecmp, hpt, Bool.not_eq_true] using h
    simp [sameCodec, hne]
  · rw [eraseOpus_of_ne hpt]

/-- The matchers leave the local list as it was, up to what `eraseOpus` forgets. -/
theorem opusMatch_fst (refpt : PayloadType) (l : List PayloadType) (c : Option PayloadType) :
    (opusMatch refpt l c).1.map eraseOpus = l.map eraseOpus := by
  induction l generalizing c with
  | nil => rfl
  | cons pt l ih =>
      by_cases hpt : strcasecmp pt.mimeType "opus" = true
      · by_cases h1 : refpt.channels = 1
        · simp only [opusMatch, hpt, h1, if_true, List.map_cons, ih, eraseOpus_channels hpt]
        · by_cases h2 : refpt.channels = 2
          · simp [opusMatch, hpt, h2]
          · simp only [opusMatch, hpt, h1, h2, if_true, if_false, List.map_cons, ih]
      · simp only [opusMatch, hpt, Bool.false_eq_true, if_false, List.map_cons, ih]

/-- Which name `opusMatch` answers depends on the names of the list only. -/
theorem opusMatch_mimeType (refpt : PayloadType) {l l' : List PayloadType}
    {c c' : Option PayloadType} (hl : l.map (·.mimeType) = l'.map (·.mimeType))
    (hc : c.map (·.mimeType) = c'.map (·.mimeType)) :
    (opusMatch refpt l c).2.map (·.mimeType) = (opusMatch refpt l' c').2.map (·.mimeType) := by
  induction l generalizing l' c c' with
  | nil =>
      cases l' with
      | nil => exact hc
      | cons => simp at hl
  | cons pt l ih =>
      cases l' with
      | nil => simp at hl
      | cons pt' l' =>
          simp only [List.map_cons, List.cons.injEq] at hl
          obtain ⟨hpt, hl⟩ := hl
          simp only [opusMatch, hpt]
          split
          · split
            · exact ih hl (by simp)
            · split
              · simp [hpt]
              · exact ih hl hc
          · exact ih hl hc

theorem g729AMatch_eraseOpus (l : List PayloadType) (refpt : PayloadType) :
    (g729AMatch (l.map eraseOpus) refpt).map (·.mimeType) =
      (g729AMatch l refpt).map (·.mimeType) := by
  suffices h : ∀ c c' : Option PayloadType, c.map (·.mimeType) = c'.map (·.mimeType) →
      ((l.map eraseOpus).foldl (fun candidate pt =>
        if strcasecmp pt.mimeType "G729" && refpt.channels == pt.channels then some pt
        else candidate) c).map (·.mimeType) =
      (l.foldl (fun candidate pt =>
        if strcasecmp pt.mimeType "G729" && refpt.channels == pt.channels then some pt
        else candidate) c').map (·.mimeType) from h none none rfl
  induction l with
  | nil => intro c c' hc; exact hc
  | cons pt l ih =>
      intro c c' hc
      simp only [List.map_cons, List.foldl_cons]
      apply ih
      by_cases hpt : strcasecmp pt.mimeType "opus" = true
      · -- `opus` is not `G729`, whatever its channel count
        have hne : strcasecmp pt.mimeType "G729" = false := by
          rw [strcasecmp_iff] at hpt
          simp only [strcasecmp, hpt]
          decide
        simp [hne, hc]
      · rw [eraseOpus_of_ne hpt]
        split
        · rfl
        · exact hc

theorem find?_map_eraseOpus {p : PayloadType → Bool} (h : ∀ pt, p (eraseOpus pt) = p pt)
    (l : List PayloadType) :
    ((l.map eraseOpus).find? p).map (·.mimeType) = (l.find? p).map (·.mimeType) := by
  have hp : p ∘ eraseOpus = p := funext h
  rw [List.find?_map, hp, Option.map_map]
  congr 1
  funext pt
  exact eraseOpus_mimeType pt

theorem findPayloadTypeBestMatch_fst (l : List PayloadType) (refpt : PayloadType) :
    (findPayloadTypeBestMatch lib l refpt).1.map eraseOpus = l.map eraseOpus := by
  unfold findPayloadTypeBestMatch
  split
  · exact opusMatch_fst refpt l none
  · split
    · rfl
    · split
      · rfl
      · split <;> rfl

/-- The name of the local payload type that `refpt` is matched with. -/
def matchedMimeType (l : List PayloadType) (refpt : PayloadType) : Option String :=
  (findPayloadTypeBestMatch lib l refpt).2.map (·.mimeType)

theorem matchedMimeType_eraseOpus (l : List PayloadType) (refpt : PayloadType) :
    matchedMimeType lib (l.map eraseOpus) refpt = matchedMimeType lib l refpt := by
  unfold matchedMimeType findPayloadTypeBestMatch
  by_cases hop : strcasecmp "opus" refpt.mimeType = true
  · simp only [hop, if_true]
    exact opusMatch_mimeType refpt (by simp) rfl
  · have hamr : ((amrMatch lib (l.map eraseOpus) refpt).map (·.mimeType)) =
        (amrMatch lib l refpt).map (·.mimeType) :=
      find?_map_eraseOpus (fun pt => by rw [sameCodec_eraseOpus hop, eraseOpus_recvFmtp]) l
    have hgen : (genericMatch (l.map eraseOpus) refpt).map (·.mimeType) =
        (genericMatch l refpt).map (·.mimeType) :=
      find?_map_eraseOpus (fun pt => by rw [sameCodec_eraseOpus hop]) l
    rw [if_neg hop, if_neg hop]
    split
    · exact g729AMatch_eraseOpus l refpt
    · split
      · exact hamr
      · split
        · exact hamr
        · exact hgen

theorem matchedMimeType_congr {l l' : List PayloadType}
    (h : l.map eraseOpus = l'.map eraseOpus) (refpt : PayloadType) :
    matchedMimeType lib l refpt = matchedMimeType lib l' refpt := by
  rw [← matchedMimeType_eraseOpus, h, matchedMimeType_eraseOpus]

/-! ## Whether there is a codec at all -/

/-- A real codec of `remote` has a match in `locals`. -/
def hasCommonCodec (locals remote : List PayloadType) : Bool :=
  remote.any fun p2 =>
    (matchedMimeType lib locals p2).any fun m => !strcasecmp m "telephone-event"

theorem hasCommonCodec_congr {l l' : List PayloadType}
    (h : l.map eraseOpus = l'.map eraseOpus) (remote : List PayloadType) :
    hasCommonCodec lib l remote = hasCommonCodec lib l' remote := by
  simp only [hasCommonCodec, matchedMimeType_congr lib h]

@[simp] theorem negotiatedPayload_mimeType (matched p2 : PayloadType) :
    (negotiatedPayload lib matched p2).mimeType = matched.mimeType := by
  unfold negotiatedPayload
  cases p2.sendFmtp <;> cases p2.flags.rtcpFeedbackEnabled <;> rfl

/-- What one remote payload type does, by the match that `findPayloadTypeBestMatch` found. -/
theorem matchPayload_none {s : MatchState} {p2 : PayloadType} (reading one : Bool)
    (h : (findPayloadTypeBestMatch lib s.locals p2).2 = none) :
    matchPayload lib reading one s p2 =
      { s with locals := (findPayloadTypeBestMatch lib s.locals p2).1 } := by
  simp only [matchPayload, h]

theorem matchPayload_locals (reading one : Bool) (s : MatchState) (p2 : PayloadType) :
    (matchPayload lib reading one s p2).locals =
      (findPayloadTypeBestMatch lib s.locals p2).1 := by
  cases h : (findPayloadTypeBestMatch lib s.locals p2).2 with
  | none => rw [matchPayload_none lib reading one h]
  | some m =>
      simp only [matchPayload, h]
      split <;> rfl

/-- The local list survives `match_payloads` up to what `eraseOpus` forgets. -/
theorem matchPayloads_fst (locals remote : List PayloadType) (reading one : Bool) :
    (matchPayloads lib locals remote reading one).1.map eraseOpus = locals.map eraseOpus := by
  unfold matchPayloads
  suffices h : ∀ s : MatchState,
      (remote.foldl (matchPayload lib reading one) s).locals.map eraseOpus =
        s.locals.map eraseOpus from h _
  induction remote with
  | nil => intro s; rfl
  | cons p2 remote ih =>
      intro s
      rw [List.foldl_cons, ih, matchPayload_locals, findPayloadTypeBestMatch_fst]

/-- `found_codec` tells the truth: a codec is in the result once it is set. -/
def MatchState.FoundOk (s : MatchState) : Prop :=
  s.foundCodec = true → onlyTelephoneEvent s.res = false

theorem onlyTelephoneEvent_append (l l' : List PayloadType) :
    onlyTelephoneEvent (l ++ l') = (onlyTelephoneEvent l && onlyTelephoneEvent l') := by
  simp [onlyTelephoneEvent]

/-- One remote payload type adds a codec when its match is one, and keeps those found. -/
theorem matchPayload_spec (reading one : Bool) {s : MatchState} (hs : s.FoundOk)
    (p2 : PayloadType) :
    (matchPayload lib reading one s p2).FoundOk ∧
      onlyTelephoneEvent (matchPayload lib reading one s p2).res =
        (onlyTelephoneEvent s.res && !(matchedMimeType lib s.locals p2).any fun m =>
          !strcasecmp m "telephone-event") := by
  cases h : (findPayloadTypeBestMatch lib s.locals p2).2 with
  | none =>
      rw [matchPayload_none lib reading one h]
      exact ⟨hs, by simp [matchedMimeType, h]⟩
  | some m =>
      simp only [matchPayload, h, matchedMimeType, Option.map_some, Option.any_some]
      split
      · -- not added: a codec was found before
        rename_i hskip
        simp only [Bool.and_eq_true] at hskip
        have hcodec := hs hskip.2
        exact ⟨hs, by simp [hcodec]⟩
      · have hres : ∀ own : List PayloadType,
            (∀ p ∈ own, p.mimeType = m.mimeType) →
            onlyTelephoneEvent (s.res ++ negotiatedPayload lib m p2 :: own) =
              (onlyTelephoneEvent s.res && strcasecmp m.mimeType "telephone-event") := by
          intro own hown
          rw [onlyTelephoneEvent_append]
          congr 1
          cases hm : strcasecmp m.mimeType "telephone-event" with
          | false => simp [onlyTelephoneEvent, hm]
          | true =>
              simp only [onlyTelephoneEvent, List.all_cons, negotiatedPayload_mimeType, hm,
                Bool.true_and, List.all_eq_true]
              intro p hp
              rw [hown p hp, hm]
        constructor
        · intro hfound
          simp only [Bool.or_eq_true, Bool.and_eq_true, Bool.not_eq_true'] at hfound
          rw [hres _ (by split <;> simp)]
          rcases hfound with hfound | ⟨_, hfound⟩
          · simp [hs hfound]
          · simp [hfound]
        · rw [hres _ (by split <;> simp), Bool.not_not]

/-- **The answer holds a codec exactly when the two lists share one.** -/
theorem onlyTelephoneEvent_matchPayloads (locals remote : List PayloadType) (one : Bool) :
    onlyTelephoneEvent (matchPayloads lib locals remote false one).2 =
      !hasCommonCodec lib locals remote := by
  suffices h : ∀ s : MatchState, s.FoundOk → s.locals.map eraseOpus = locals.map eraseOpus →
      onlyTelephoneEvent (remote.foldl (matchPayload lib false one) s).res =
        (onlyTelephoneEvent s.res && !hasCommonCodec lib locals remote) by
    have := h { locals := locals } (by simp [MatchState.FoundOk]) rfl
    simpa [matchPayloads, onlyTelephoneEvent] using this
  induction remote with
  | nil => intro s _ _; simp [hasCommonCodec]
  | cons p2 remote ih =>
      intro s hs hl
      have hstep := matchPayload_spec lib false one hs p2
      have hl' : (matchPayload lib false one s p2).locals.map eraseOpus =
          locals.map eraseOpus := by
        rw [matchPayload_locals, findPayloadTypeBestMatch_fst, hl]
      rw [List.foldl_cons, ih _ hstep.1 hl', hstep.2, matchedMimeType_congr lib hl]
      simp only [hasCommonCodec, List.any_cons, Bool.not_or, Bool.and_assoc]

end Linphone

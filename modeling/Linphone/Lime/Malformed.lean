import Linphone.Lime.Delivery

/-!
# Messages of any shape

A message comes from the network, and `lime_decryptMultipartMessage` walks it by fixed positions:
the root has a first child, a ZID has 24 characters, every node behind it has a first child, two
nodes follow our own ZID, and a payload is longer than its tag. A call that meets anything else
follows a missing node, reads or writes past a buffer, or computes a negative length
(`Outcome.undefined`).

`decryptMultipartMessage_defined_iff`: for which caches and messages a call returns, with a
plaintext or with an error.
-/

namespace Linphone

variable (lib : LimeLib)

/-- A call returns: either 0 and a plaintext, with the key stored, or an error code, and then the
cache is as it was and there is no output. -/
def DecryptsOrRefuses (cacheBuffer : Option XmlDoc) (message : lib.Text) : Prop :=
  (∃ cache' plain, decryptMultipartMessage lib cacheBuffer message = .ok (cache', plain)) ∨
    ∃ e, decryptMultipartMessage lib cacheBuffer message = .error e

/-! ## What is walked -/

/-- The own ZID of a cache has at least 23 characters, if there is one. -/
def SelfZidReadable (cache : XmlDoc) : Prop :=
  ∀ c, cache.nodes.find? (fun n => n.name = "selfZID") = some c →
    ∃ s, c.content = some s ∧ 24 ≤ s.length + 1

/-- A node behind the ZID has a first child, and if that is our ZID, an index of at least seven
characters and a text follow. -/
def MsgReadable (selfZidHex : List UInt8) (n : XmlNode) : Prop :=
  ∃ pzid cs, n.children = pzid :: cs ∧ (pzid.content = some selfZidHex →
    ∃ index text rest, cs = index :: text :: rest ∧
      (∃ s, index.content = some s ∧ 8 ≤ s.length + 1) ∧ ∃ s, text.content = some s)

/-- The texts behind our ZID. -/
def payload (selfZidHex : List UInt8) (n : XmlNode) : Option (List UInt8 × List UInt8) :=
  match n.children with
  | pzid :: index :: text :: _ =>
    if pzid.content = some selfZidHex then
      index.content.bind fun i => text.content.map fun b => (i, b)
    else none
  | _ => none

/-- The payload for us that comes last. -/
def lastPayload (selfZidHex : List UInt8) (msgs : List XmlNode) :
    Option (List UInt8 × List UInt8) :=
  (msgs.filterMap (payload selfZidHex)).getLast?

/-- A payload within reach of our key is longer than its tag, and if it is authentic, the key is
stored. -/
def PayloadReadable (cache : XmlDoc) (selfZid : Vector UInt8 12) (key : LimeKey) (index : UInt32)
    (encryptedMessage : List UInt8) : Prop :=
  key.sessionIndex ≤ index → (index - key.sessionIndex).toNat ≤ maxDerivationNumber →
    16 ≤ encryptedMessage.length ∧
      ((decryptMessage lib (catchUp lib index maxDerivationNumber key) encryptedMessage
        selfZid).isSome → (setCachedKey cache key .receiver).isSome)

/-- What follows the ZID, when the cache has a key for it. -/
def MsgsReadable (cache : XmlDoc) (selfZidHex : List UInt8) (msgs : List XmlNode)
    (key : LimeKey) : Prop :=
  (∀ n ∈ msgs, MsgReadable selfZidHex n) ∧
    ∀ i b index selfZid, lastPayload selfZidHex msgs = some (i, b) → hexIndex i = some index →
      strToUint8 12 selfZidHex = some selfZid →
        PayloadReadable lib cache selfZid key index (lib.b64Decode b)

/-- The root of a message. -/
def RootReadable (cache : XmlDoc) (selfZidHex : List UInt8) (root : XmlNode) : Prop :=
  ∃ c cs, root.children = c :: cs ∧ (c.name = "ZID" →
    ∃ s, c.content = some s ∧ s.length % 2 ^ 16 / 2 = 12 ∧
      ∀ zid, strToUint8 12 s = some zid → getCachedRcvKeyByZid cache zid ≠ .undefined ∧
        ∀ key, getCachedRcvKeyByZid cache zid = .ok key →
          MsgsReadable lib cache selfZidHex cs key)

/-- A message that is well-formed as far as it is read. -/
structure MessageReadable (cache : XmlDoc) (message : lib.Text) : Prop where
  selfZid : SelfZidReadable cache
  root : ∀ selfZidHex root, getSelfZid cache = .ok selfZidHex → lib.hasDeclaration message = true →
    lib.xmlParseDoc message = some ⟨some root⟩ → RootReadable lib cache selfZidHex root

/-! ## The own ZID -/

theorem getSelfZid_ne_undefined_iff (cache : XmlDoc) :
    getSelfZid cache ≠ .undefined ↔ SelfZidReadable cache := by
  unfold getSelfZid SelfZidReadable
  cases cache.nodes.find? fun n => n.name = "selfZID" with
  | none => simp
  | some c =>
    cases hs : c.content with
    | none => simp [hs]
    | some s => simp [hs]

/-- The own ZID that is found has its bytes. -/
theorem strToUint8_of_getSelfZid {cache : XmlDoc} {selfZidHex : List UInt8}
    (h : getSelfZid cache = .ok selfZidHex) : ∃ zid, strToUint8 12 selfZidHex = some zid := by
  unfold getSelfZid at h
  split at h
  · cases h
  · obtain ⟨s, -, hs⟩ := Outcome.bind_eq_ok.mp h
    split at hs
    · rename_i hlength
      cases hs
      refine ⟨_, if_pos ?_⟩
      rw [List.length_take]
      omega
    · cases hs

theorem senderZid_eq_some {c : XmlNode} {s : List UInt8} (hs : c.content = some s)
    (hlength : s.length % 2 ^ 16 / 2 = 12) : ∃ zid, strToUint8 12 s = some zid ∧
      senderZid c = some zid := by
  have hbuffer : 2 * 12 ≤ s.length + 1 := by omega
  refine ⟨_, if_pos hbuffer, ?_⟩
  unfold senderZid
  rw [hs, Option.bind_some, if_pos hlength]
  exact if_pos hbuffer

/-! ## The payloads -/

/-- The index and the encrypted message of a payload. -/
def decodePayload (p : List UInt8 × List UInt8) : Option (UInt32 × List UInt8) :=
  (hexIndex p.1).map fun index => (index, lib.b64Decode p.2)

variable {selfZidHex : List UInt8}

theorem hexIndex_isSome_iff {s : List UInt8} : (hexIndex s).isSome ↔ 8 ≤ s.length + 1 := by
  unfold hexIndex
  split
  · rename_i h
    exact iff_of_true rfl h
  · rename_i h
    exact iff_of_false (by decide) h

/-- What a node that can be read gives. -/
theorem readMsg_of_readable {n : XmlNode} (h : MsgReadable selfZidHex n) :
    readMsg lib selfZidHex n = some ((payload selfZidHex n).bind (decodePayload lib)) := by
  obtain ⟨pzid, cs, hchildren, hown⟩ := h
  unfold readMsg payload
  rw [hchildren]
  by_cases hzid : pzid.content = some selfZidHex
  · obtain ⟨index, text, rest, rfl, ⟨i, hi, hlength⟩, b, hb⟩ := hown hzid
    obtain ⟨j, hj⟩ := Option.isSome_iff_exists.mp (hexIndex_isSome_iff.mpr hlength)
    simp [hzid, hi, hb, hj, decodePayload]
  · simp only [hzid, if_false]
    split
    · rename_i heq
      obtain ⟨rfl, -⟩ := List.cons.inj heq
      rw [if_neg hzid]
      rfl
    · rfl

theorem readMsg_isSome_iff (n : XmlNode) :
    (readMsg lib selfZidHex n).isSome ↔ MsgReadable selfZidHex n := by
  constructor
  · intro h
    unfold readMsg at h
    split at h
    · cases h
    · rename_i pzid cs hchildren
      refine ⟨pzid, cs, hchildren, fun hzid => ?_⟩
      rw [if_pos hzid] at h
      split at h
      · rename_i index text rest
        obtain ⟨r, hr⟩ := Option.isSome_iff_exists.mp h
        obtain ⟨i, hi, hr⟩ := Option.bind_eq_some_iff.mp hr
        obtain ⟨b, hb, -⟩ := Option.map_eq_some_iff.mp hr
        obtain ⟨s, hs, hi⟩ := Option.bind_eq_some_iff.mp hi
        exact ⟨index, text, rest, rfl, ⟨s, hs, hexIndex_isSome_iff.mp (by rw [hi]; rfl)⟩, b, hb⟩
      · cases h
  · intro h
    rw [readMsg_of_readable lib h]
    rfl

theorem readMsgs_isSome_iff (ns : List XmlNode) (found : Option (UInt32 × List UInt8)) :
    (readMsgs lib selfZidHex ns found).isSome ↔ ∀ n ∈ ns, MsgReadable selfZidHex n := by
  induction ns generalizing found with
  | nil => exact iff_of_true rfl nofun
  | cons n ns ih =>
    rw [List.forall_mem_cons, ← readMsg_isSome_iff lib, readMsgs]
    cases readMsg lib selfZidHex n with
    | none => simp
    | some r => simp [ih]

theorem decodePayload_isSome {n : XmlNode} {p : List UInt8 × List UInt8}
    (h : MsgReadable selfZidHex n) (hp : payload selfZidHex n = some p) :
    ∃ d, decodePayload lib p = some d := by
  obtain ⟨pzid, cs, hchildren, hown⟩ := h
  unfold payload at hp
  rw [hchildren] at hp
  split at hp
  · rename_i pzid' index' text' rest' heq
    obtain ⟨rfl, rfl⟩ := List.cons.inj heq
    split at hp
    · rename_i hzid
      obtain ⟨index, text, rest, hcs, ⟨i, hi, hlength⟩, b, hb⟩ := hown hzid
      obtain ⟨hindex, hcs⟩ := List.cons.inj hcs
      obtain ⟨htext, -⟩ := List.cons.inj hcs
      rw [hindex, htext, hi, hb] at hp
      obtain rfl := Option.some.inj hp
      obtain ⟨j, hj⟩ := Option.isSome_iff_exists.mp (hexIndex_isSome_iff.mpr hlength)
      exact ⟨(j, lib.b64Decode b), by rw [decodePayload, hj]; rfl⟩
    · cases hp
  · cases hp

/-- **The loop over the nodes** finds the payload for us that comes last. -/
theorem readMsgs_of_readable {ns : List XmlNode} (h : ∀ n ∈ ns, MsgReadable selfZidHex n)
    (found : Option (UInt32 × List UInt8)) :
    readMsgs lib selfZidHex ns found =
      some (((lastPayload selfZidHex ns).bind (decodePayload lib)).or found) := by
  induction ns generalizing found with
  | nil => rfl
  | cons n ns ih =>
    obtain ⟨hn, hns⟩ := List.forall_mem_cons.mp h
    rw [readMsgs, readMsg_of_readable lib hn, Option.bind_some, ih hns]
    unfold lastPayload
    cases hp : payload selfZidHex n with
    | none => simp [hp]
    | some p =>
      obtain ⟨d, hd⟩ := decodePayload_isSome lib hn hp
      rw [List.filterMap_cons_some hp, List.getLast?_cons]
      cases hlast : (ns.filterMap (payload selfZidHex)).getLast? with
      | none => simp [hd]
      | some q =>
        obtain ⟨m, hm, hq⟩ := List.mem_filterMap.mp (List.mem_of_getLast? hlast)
        obtain ⟨e, he⟩ := decodePayload_isSome lib (hns m hm) hq
        simp [he]

/-! ## Storing the key -/

theorem childText_isSome (k k' : LimeKey) (role : Role) (c : XmlNode) :
    (k.childText role c).isSome = (k'.childText role c).isSome := by
  unfold LimeKey.childText
  cases role.item c.name with
  | none => rfl
  | some i => cases i <;> rfl

theorem writeItems_count (k k' : LimeKey) (role : Role) (cs : List XmlNode) (itemFound : Nat) :
    (writeItems role k cs itemFound).2 = (writeItems role k' cs itemFound).2 := by
  induction cs generalizing itemFound with
  | nil => rfl
  | cons c cs ih =>
    have hsome := childText_isSome k k' role c
    unfold writeItems
    split
    · cases hk : k.childText role c with
      | none =>
        rw [hk] at hsome
        have hk' : k'.childText role c = none :=
          Option.not_isSome_iff_eq_none.mp (by rw [← hsome]; decide)
        rw [hk']
        exact ih itemFound
      | some s =>
        rw [hk] at hsome
        obtain ⟨s', hs'⟩ := Option.isSome_iff_exists.mp hsome.symm
        rw [hs']
        exact ih (itemFound + 1)
    · rfl

/-- Whether a key can be stored depends on its ZID alone. -/
theorem writePeers_isSome {k k' : LimeKey} (h : k.peerZID = k'.peerZID) (role : Role)
    (ns : List XmlNode) (itemFound : Nat) :
    (writePeers role k ns itemFound).isSome = (writePeers role k' ns itemFound).isSome := by
  induction ns generalizing itemFound with
  | nil => rfl
  | cons n ns ih =>
    unfold writePeers
    rw [h]
    split
    · split
      · split
        · rfl
        · split
          · rw [Option.isSome_map, Option.isSome_map, writeItems_count k k' role]
            exact ih _
          · rw [Option.isSome_map, Option.isSome_map]
            exact ih itemFound
      · rw [Option.isSome_map, Option.isSome_map]
        exact ih itemFound
    · rfl

theorem setCachedKey_isSome {k k' : LimeKey} (h : k.peerZID = k'.peerZID) (cache : XmlDoc)
    (role : Role) : (setCachedKey cache k role).isSome = (setCachedKey cache k' role).isSome := by
  unfold setCachedKey
  rw [Option.isSome_map, Option.isSome_map, writePeers_isSome h]

@[simp] theorem catchUp_peerZID (index : UInt32) (n : Nat) (k : LimeKey) :
    (catchUp lib index n k).peerZID = k.peerZID := by
  induction n generalizing k with
  | zero => rfl
  | succ n ih =>
    unfold catchUp
    split
    · rw [ih, deriveKey_peerZID]
    · rfl

/-! ## A call -/

/-- What follows once the key and a payload have been found. -/
theorem decryptWith_ne_undefined_iff (cache : XmlDoc) (selfZid : Vector UInt8 12) (key : LimeKey)
    (index : UInt32) (encryptedMessage : List UInt8) :
    decryptWith lib cache selfZid key index encryptedMessage ≠ .undefined ↔
      PayloadReadable lib cache selfZid key index encryptedMessage := by
  unfold decryptWith PayloadReadable
  by_cases hindex : index < key.sessionIndex
  · rw [if_pos hindex]
    exact iff_of_true nofun fun hle => absurd hindex (UInt32.not_lt.mpr hle)
  · by_cases hfar : maxDerivationNumber < (index - key.sessionIndex).toNat
    · rw [if_neg hindex, if_pos hfar]
      exact iff_of_true nofun fun _ hnear => absurd hfar (Nat.not_lt.mpr hnear)
    · have hle := UInt32.not_lt.mp hindex
      have hnear := Nat.not_lt.mp hfar
      rw [if_neg hindex, if_neg hfar]
      by_cases hshort : encryptedMessage.length < 16
      · rw [if_pos hshort]
        exact iff_of_false (fun h => h rfl) fun h =>
          absurd (h hle hnear).1 (Nat.not_le.mpr hshort)
      · have hlong := Nat.not_lt.mp hshort
        rw [if_neg hshort]
        dsimp only
        cases hplain : decryptMessage lib (catchUp lib index maxDerivationNumber key)
            encryptedMessage selfZid with
        | none => exact iff_of_true (fun h => by cases h) fun _ _ => ⟨hlong, fun h => by cases h⟩
        | some plain =>
          have hstored := @setCachedKey_isSome
            (deriveKey lib (catchUp lib index maxDerivationNumber key)) key
              (by simp) cache .receiver
          cases hwrite : setCachedKey cache
              (deriveKey lib (catchUp lib index maxDerivationNumber key)) .receiver with
          | none =>
            rw [hwrite] at hstored
            refine iff_of_false (fun h => h rfl) fun h => ?_
            rw [(h hle hnear).2 rfl] at hstored
            cases hstored
          | some cache' =>
            rw [hwrite] at hstored
            exact iff_of_true (fun h => by cases h) fun _ _ => ⟨hlong, fun _ => hstored.symm⟩

theorem lastPayload_decodes {msgs : List XmlNode} (h : ∀ n ∈ msgs, MsgReadable selfZidHex n)
    {p : List UInt8 × List UInt8} (hp : lastPayload selfZidHex msgs = some p) :
    ∃ index, hexIndex p.1 = some index ∧
      decodePayload lib p = some (index, lib.b64Decode p.2) := by
  obtain ⟨n, hn, hpayload⟩ := List.mem_filterMap.mp (List.mem_of_getLast? hp)
  obtain ⟨d, hd⟩ := decodePayload_isSome lib (h n hn) hpayload
  obtain ⟨index, hindex, rfl⟩ := Option.map_eq_some_iff.mp hd
  exact ⟨index, hindex, hd⟩

/-- The rest of a call, once the key is found. -/
def decryptMsgs (cache : XmlDoc) (selfZidHex : List UInt8) (selfZid : Vector UInt8 12)
    (key : LimeKey) (msgs : List XmlNode) : Lime (XmlDoc × List UInt8) := do
  let found ← .ofOption (readMsgs lib selfZidHex msgs none)
  match found with
  | none => .error .unableToDecryptMessage
  | some (index, encryptedMessage) => decryptWith lib cache selfZid key index encryptedMessage

/-- **What follows the ZID** is read when each node can be. -/
theorem decryptMsgs_ne_undefined_iff (cache : XmlDoc) {selfZid : Vector UInt8 12} (key : LimeKey)
    (hzid : strToUint8 12 selfZidHex = some selfZid) (msgs : List XmlNode) :
    decryptMsgs lib cache selfZidHex selfZid key msgs ≠ .undefined ↔
      MsgsReadable lib cache selfZidHex msgs key := by
  unfold decryptMsgs MsgsReadable
  by_cases hall : ∀ n ∈ msgs, MsgReadable selfZidHex n
  · rw [readMsgs_of_readable lib hall, Outcome.ofOption_some, Outcome.ok_bind, Option.or_none]
    cases hlast : lastPayload selfZidHex msgs with
    | none => exact iff_of_true (fun h => by cases h) ⟨hall, fun _ _ _ _ h => by cases h⟩
    | some p =>
      obtain ⟨index, hindex, hdecode⟩ := lastPayload_decodes lib hall hlast
      rw [Option.bind_some, hdecode]
      dsimp only
      rw [decryptWith_ne_undefined_iff]
      constructor
      · intro h
        refine ⟨hall, fun i b index' selfZid' hp hi hz => ?_⟩
        obtain rfl := Option.some.inj hp
        obtain rfl := Option.some.inj (hindex.symm.trans hi)
        obtain rfl := Option.some.inj (hzid.symm.trans hz)
        exact h
      · exact fun h => h.2 p.1 p.2 index selfZid rfl hindex hzid
  · have hnone : readMsgs lib selfZidHex msgs none = none :=
      Option.not_isSome_iff_eq_none.mp fun h => hall ((readMsgs_isSome_iff lib msgs none).mp h)
    rw [hnone]
    exact iff_of_false (fun h => h rfl) fun h => hall h.1

/-- A call on a root. -/
theorem root_ne_undefined_iff {cache : XmlDoc} {selfZid : Vector UInt8 12}
    (hzid : strToUint8 12 selfZidHex = some selfZid) (root : XmlNode) :
    ((match root.children with
      | [] => .undefined
      | c :: cs =>
        if c.name = "ZID" then do
          let peerZID ← .ofOption (senderZid c)
          let associatedKey ← getCachedRcvKeyByZid cache peerZID
          decryptMsgs lib cache selfZidHex selfZid associatedKey cs
        else .error .unableToDecryptMessage : Lime (XmlDoc × List UInt8)) ≠ .undefined) ↔
      RootReadable lib cache selfZidHex root := by
  unfold RootReadable
  cases root.children with
  | nil => exact iff_of_false (fun h => h rfl) fun ⟨c, cs, hnil, _⟩ => by cases hnil
  | cons c cs =>
    dsimp only
    by_cases hname : c.name = "ZID"
    · rw [if_pos hname]
      cases hcontent : c.content with
      | none =>
        have hnone : senderZid c = none := by rw [senderZid, hcontent]; rfl
        rw [hnone]
        refine iff_of_false (fun h => h rfl) ?_
        rintro ⟨c', cs', hcons, hread⟩
        obtain ⟨rfl, rfl⟩ := List.cons.inj hcons
        obtain ⟨s, hs, -⟩ := hread hname
        rw [hcontent] at hs
        cases hs
      | some s =>
        by_cases hlength : s.length % 2 ^ 16 / 2 = 12
        · obtain ⟨zid, hbytes, hsender⟩ := senderZid_eq_some hcontent hlength
          have hright : (∃ c' cs', c :: cs = c' :: cs' ∧ (c'.name = "ZID" →
              ∃ s, c'.content = some s ∧ s.length % 2 ^ 16 / 2 = 12 ∧
                ∀ zid, strToUint8 12 s = some zid → getCachedRcvKeyByZid cache zid ≠ .undefined ∧
                  ∀ key, getCachedRcvKeyByZid cache zid = .ok key →
                    MsgsReadable lib cache selfZidHex cs' key)) ↔
              getCachedRcvKeyByZid cache zid ≠ .undefined ∧
                ∀ key, getCachedRcvKeyByZid cache zid = .ok key →
                  MsgsReadable lib cache selfZidHex cs key := by
            constructor
            · rintro ⟨c', cs', hcons, hread⟩
              obtain ⟨rfl, rfl⟩ := List.cons.inj hcons
              obtain ⟨s', hs', -, hall⟩ := hread hname
              obtain rfl := Option.some.inj (hcontent.symm.trans hs')
              exact hall zid hbytes
            · intro h
              refine ⟨c, cs, rfl, fun _ => ⟨s, hcontent, hlength, fun zid' hz => ?_⟩⟩
              obtain rfl := Option.some.inj (hbytes.symm.trans hz)
              exact h
          rw [hright, hsender, Outcome.ofOption_some, Outcome.ok_bind]
          cases getCachedRcvKeyByZid cache zid with
          | ok key => simp [decryptMsgs_ne_undefined_iff lib cache key hzid]
          | error e => simp
          | undefined => simp
        · have hnone : senderZid c = none := by
            rw [senderZid, hcontent, Option.bind_some, if_neg hlength]
          rw [hnone]
          refine iff_of_false (fun h => h rfl) ?_
          rintro ⟨c', cs', hcons, hread⟩
          obtain ⟨rfl, rfl⟩ := List.cons.inj hcons
          obtain ⟨s', hs', hl, -⟩ := hread hname
          obtain rfl := Option.some.inj (hcontent.symm.trans hs')
          exact hlength hl
    · rw [if_neg hname]
      refine iff_of_true (fun h => by cases h) ⟨c, cs, rfl, fun h => absurd h hname⟩

/-- **A call returns exactly when the message can be read**: for any cache and any message. -/
theorem decryptMultipartMessage_defined_iff (cacheBuffer : Option XmlDoc) (message : lib.Text) :
    DecryptsOrRefuses lib cacheBuffer message ↔
      ∀ cache, cacheBuffer = some cache → MessageReadable lib cache message := by
  have hreturns : DecryptsOrRefuses lib cacheBuffer message ↔
      decryptMultipartMessage lib cacheBuffer message ≠ .undefined := by
    unfold DecryptsOrRefuses
    cases decryptMultipartMessage lib cacheBuffer message with
    | ok r => exact iff_of_true (.inl ⟨r.1, r.2, rfl⟩) (fun h => by cases h)
    | error e => exact iff_of_true (.inr ⟨e, rfl⟩) (fun h => by cases h)
    | undefined => simp
  rw [hreturns]
  cases cacheBuffer with
  | none => exact iff_of_true (fun h => by cases h) fun _ h => by cases h
  | some cache =>
    have hcache : (∀ cache', some cache = some cache' → MessageReadable lib cache' message) ↔
        MessageReadable lib cache message :=
      ⟨fun h => h cache rfl, fun h cache' heq => Option.some.inj heq ▸ h⟩
    have hselfZid := getSelfZid_ne_undefined_iff cache
    rw [hcache]
    unfold decryptMultipartMessage
    dsimp only
    cases hown : getSelfZid cache with
    | undefined =>
      exact iff_of_false (fun h => h rfl) fun h => absurd hown (hselfZid.mpr h.selfZid)
    | error e =>
      refine iff_of_true (fun h => by cases h) ⟨hselfZid.mp (by simp [hown]), ?_⟩
      intro selfZidHex root hok
      rw [hown] at hok
      cases hok
    | ok selfZidHex =>
      have hself : SelfZidReadable cache := hselfZid.mp (by simp [hown])
      obtain ⟨selfZid, hzid⟩ := strToUint8_of_getSelfZid hown
      have hmessage : MessageReadable lib cache message ↔
          (lib.hasDeclaration message = true → ∀ root, lib.xmlParseDoc message = some ⟨some root⟩ →
            RootReadable lib cache selfZidHex root) := by
        constructor
        · exact fun h hdecl root hroot => h.root selfZidHex root hown hdecl hroot
        · intro h
          refine ⟨hself, fun selfZidHex' root hown' hdecl hroot => ?_⟩
          cases hown.symm.trans hown'
          exact h hdecl root hroot
      rw [hmessage, Outcome.mapError_ok, Outcome.ok_bind, hzid, Outcome.ofOption_some,
        Outcome.ok_bind]
      cases hdecl : lib.hasDeclaration message with
      | false => exact iff_of_true (fun h => by cases h) fun h => by cases h
      | true =>
        rw [if_neg (by decide)]
        match hparse : lib.xmlParseDoc message with
        | none => exact iff_of_true (fun h => by cases h) fun _ root h => by cases h
        | some ⟨none⟩ => exact iff_of_true (fun h => by cases h) fun _ root h => by cases h
        | some ⟨some root⟩ =>
          refine (root_ne_undefined_iff lib hzid root).trans ⟨fun h _ root' heq => ?_, fun h => ?_⟩
          · cases heq
            exact h
          · exact h rfl root rfl

theorem not_decryptsOrRefuses {cacheBuffer : Option XmlDoc} {message : lib.Text}
    (h : decryptMultipartMessage lib cacheBuffer message = .undefined) :
    ¬DecryptsOrRefuses lib cacheBuffer message := by
  unfold DecryptsOrRefuses
  rw [h]
  simp

/-- A message without anything in its root, and one whose payload is shorter than its tag. -/
theorem empty_root_followed :
    ¬DecryptsOrRefuses toyLib (some paulineCache) ⟨some (.element "doc" [])⟩ ∧
      ¬DecryptsOrRefuses toyLib (some paulineCache)
        ⟨some (.element "doc" [leaf "ZID" "ef7692d0792a67491ae2d44e",
          .element "msg" [leaf "pzid" "005dbe0399643d953a2202dd", leaf "index" "00000078",
            leaf "text" "00"]])⟩ :=
  ⟨not_decryptsOrRefuses toyLib rfl, not_decryptsOrRefuses toyLib rfl⟩

end Linphone

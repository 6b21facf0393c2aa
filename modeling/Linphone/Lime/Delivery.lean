import Linphone.Lime.SendingKeys

/-!
# Delivery of messages over a lossy channel

Two caches start with the same key, session identifier and index for each other.  The messages of
one party reach the other with losses, repetitions and in any order.  The two caches follow a
ratchet: the sender's key is the derivation of the first one by the number of messages sent, the
receiver's by the number of the message it waits for.
-/

namespace Linphone

variable (lib : LimeLib)

/-! ## What the libraries promise -/

/-- A text that needs no escape and no encoding in XML. -/
def Printable (s : List UInt8) : Prop := s ≠ [] ∧ ∀ b ∈ s, 0x20 ≤ b ∧ b < 0x7F

instance (s : List UInt8) : Decidable (Printable s) := inferInstanceAs (Decidable (_ ∧ _))

/-- An element that holds one printable text, or elements of that kind. -/
inductive XmlNode.Plain : XmlNode → Prop
  | leaf (name : String) (s : List UInt8) (hs : Printable s) : Plain (.element name [.text s])
  | node (name : String) (cs : List XmlNode) (hcs : ∀ c ∈ cs, Plain c) : Plain (.element name cs)

/-- A document that is written and read back as it is. -/
def XmlDoc.Plain (d : XmlDoc) : Prop := ∃ r, d.root = some r ∧ r.Plain

/-- What was encrypted, encoded or written is decrypted, decoded and read back. -/
structure LimeLib.RoundTrips : Prop where
  gcm : ∀ key iv add input, lib.gcmAuthDecrypt key iv add
    (lib.gcmCryptAndTag key iv add input).2.toList
      (lib.gcmCryptAndTag key iv add input).1 = some input
  b64 : ∀ s, lib.b64Decode (lib.b64Encode s) = s
  b64Printable : ∀ s, s ≠ [] → Printable (lib.b64Encode s)
  xml : ∀ d : XmlDoc, d.Plain → lib.xmlParseDoc (lib.xmlDocDump d) = some d
  declaration : ∀ d : XmlDoc, lib.hasDeclaration (lib.xmlDocDump d) = true

/-! ## The message for one receiver -/

theorem printable_byteToChars (l : List UInt8) (h : l ≠ []) :
    Printable (l.flatMap byteToChars) := by
  have all : ∀ i : Fin 256, 0x20 ≤ byteToChar (UInt8.ofNat i) ∧
    byteToChar (UInt8.ofNat i) < 0x7F := by
    decide +kernel
  have char (b : UInt8) : 0x20 ≤ byteToChar b ∧ byteToChar b < 0x7F := by
    simpa using all b.toFin
  refine ⟨?_, fun c hc => ?_⟩
  · cases l with
    | nil => exact absurd rfl h
    | cons b l => exact List.cons_ne_nil _ _
  · obtain ⟨b, -, hb⟩ := List.mem_flatMap.mp hc
    simp only [byteToChars, List.mem_cons, List.not_mem_nil, or_false] at hb
    rcases hb with rfl | rfl
    · exact char _
    · exact char _

theorem printable_int8ToStr {n : Nat} (v : Vector UInt8 (n + 1)) : Printable (int8ToStr v) := by
  refine printable_byteToChars _ fun h => ?_
  have := congrArg List.length h
  rw [Vector.length_toList] at this
  exact absurd this (Nat.succ_ne_zero n)

theorem plain_msgNode {lib : LimeLib} (hl : lib.RoundTrips) (message : List UInt8)
    (selfZid : Vector UInt8 12) (k : LimeKey) : (msgNode lib message selfZid k).Plain := by
  refine .node _ _ fun c hc => ?_
  simp only [List.mem_cons, List.not_mem_nil, or_false] at hc
  rcases hc with rfl | rfl | rfl
  · exact .leaf _ _ (printable_int8ToStr _)
  · rw [indexHex_eq]
    exact .leaf _ _ (printable_int8ToStr _)
  · refine .leaf _ _ (hl.b64Printable _ fun h => ?_)
    have len := congrArg List.length h
    simp [encryptMessage] at len

theorem plain_messageDoc {lib : LimeLib} (hl : lib.RoundTrips) {selfZidHex : List UInt8}
    (hs : Printable selfZidHex) (message : List UInt8) (selfZid : Vector UInt8 12)
    (keys : List LimeKey) :
    (messageDoc selfZidHex (keys.map (msgNode lib message selfZid))).Plain := by
  refine ⟨_, rfl, .node _ _ fun c hc => ?_⟩
  rcases List.mem_cons.mp hc with rfl | hc
  · exact .leaf _ _ hs
  · obtain ⟨k, -, rfl⟩ := List.mem_map.mp hc
    exact plain_msgNode hl message selfZid k

/-- A message holds one `msg` node for the receiver of a key, among nodes for other ZIDs. -/
def Carries (selfZidHex : List UInt8) (selfZid : Vector UInt8 12) (k : LimeKey)
    (message : List UInt8) (text : lib.Text) : Prop :=
  ∃ ks₁ ks₂, (∀ k' ∈ ks₁ ++ ks₂, k'.peerZID ≠ k.peerZID) ∧
    text = lib.xmlDocDump (messageDoc selfZidHex ((ks₁ ++ k :: ks₂).map
      (msgNode lib message selfZid)))

theorem readMsg_other {lib : LimeLib} {zid selfZid : Vector UInt8 12} {message : List UInt8}
    {k : LimeKey} (h : k.peerZID ≠ zid) :
    readMsg lib (int8ToStr zid) (msgNode lib message selfZid k) = some none := by
  have other : int8ToStr k.peerZID ≠ int8ToStr zid := fun same => h (int8ToStr_inj same)
  exact if_neg fun same => other (Option.some.inj ((xmlNodeListGetString_text _).symm.trans same))

theorem readMsg_own {lib : LimeLib} (hl : lib.RoundTrips) (selfZid : Vector UInt8 12)
    (message : List UInt8) (k : LimeKey) :
    readMsg lib (int8ToStr k.peerZID) (msgNode lib message selfZid k)
      = some (some (k.sessionIndex, encryptMessage lib k message selfZid)) := by
  refine (if_pos (xmlNodeListGetString_text _)).trans ?_
  simp only [XmlNode.content, XmlNode.children, xmlNodeListGetString_text, Option.bind_some,
    Option.map_some, hexIndex_indexHex, hl.b64]

theorem readMsgs_others {lib : LimeLib} {zid selfZid : Vector UInt8 12} {message : List UInt8}
    {ks : List LimeKey} {ns : List XmlNode} {found : Option (UInt32 × List UInt8)}
    (h : ∀ k ∈ ks, k.peerZID ≠ zid) :
    readMsgs lib (int8ToStr zid) (ks.map (msgNode lib message selfZid) ++ ns) found
      = readMsgs lib (int8ToStr zid) ns found := by
  induction ks with
  | nil => rfl
  | cons k ks ih =>
    rw [List.map_cons, List.cons_append, readMsgs, readMsg_other (h k (.head ks)), Option.bind_some,
      Option.none_or, ih fun k' hk' => h k' (.tail k hk')]

/-- **The receiver finds in a message the index and the ciphertext that are meant for it.** -/
theorem readMsgs_own {lib : LimeLib} (hl : lib.RoundTrips) {selfZid : Vector UInt8 12}
    {message : List UInt8} {k : LimeKey} {ks₁ ks₂ : List LimeKey}
    (h : ∀ k' ∈ ks₁ ++ ks₂, k'.peerZID ≠ k.peerZID) :
    readMsgs lib (int8ToStr k.peerZID) ((ks₁ ++ k :: ks₂).map (msgNode lib message selfZid)) none
      = some (some (k.sessionIndex, encryptMessage lib k message selfZid)) := by
  rw [List.map_append, readMsgs_others fun k' hk' => h k' (List.mem_append_left _ hk'),
    List.map_cons, readMsgs, readMsg_own hl, Option.bind_some, Option.some_or,
    ← List.append_nil (List.map _ ks₂),
    readMsgs_others fun k' hk' => h k' (List.mem_append_right _ hk')]
  rfl

/-! ## The receiver -/

/-- The same key for the other party. -/
def LimeKey.withZid (k : LimeKey) (zid : Vector UInt8 12) : LimeKey := { k with peerZID := zid }

theorem iterate_deriveKey_withZid (k : LimeKey) (zid : Vector UInt8 12) (n : Nat) :
    (deriveKey lib)^[n] (k.withZid zid) = ((deriveKey lib)^[n] k).withZid zid := by
  induction n with
  | zero => rfl
  | succ n ih =>
    rw [Function.iterate_succ_apply', Function.iterate_succ_apply', ih]
    rfl

theorem toNat_sessionIndex {k : LimeKey} {n : Nat} (h : k.sessionIndex.toNat + n < 2 ^ 32) :
    ((deriveKey lib)^[n] k).sessionIndex.toNat = k.sessionIndex.toNat + n := by
  rw [iterate_deriveKey_sessionIndex, UInt32.toNat_add,
    UInt32.toNat_ofNat_of_lt' (lt_of_le_of_lt (Nat.le_add_left n _) h), Nat.mod_eq_of_lt h]

/-- The loop ends at the index of the message. -/
theorem catchUp_eq {used : UInt32} {fuel m : Nat} {k : LimeKey}
    (h : k.sessionIndex.toNat + m = used.toNat) (enough : m ≤ fuel) :
    catchUp lib used fuel k = (deriveKey lib)^[m] k := by
  induction fuel generalizing m k with
  | zero =>
    obtain rfl := Nat.le_zero.mp enough
    rfl
  | succ fuel ih =>
    rw [catchUp]
    cases m with
    | zero =>
      have same : ¬ k.sessionIndex < used := by
        rw [UInt32.lt_iff_toNat_lt]
        omega
      rw [if_neg same]
      rfl
    | succ m =>
      have before : k.sessionIndex < used := by
        rw [UInt32.lt_iff_toNat_lt]
        omega
      have bound := used.toNat_lt
      have next := toNat_sessionIndex lib (k := k) (n := 1) (by omega)
      rw [if_pos before, Function.iterate_succ_apply]
      refine ih ?_ (Nat.le_of_succ_le_succ enough)
      rw [Function.iterate_one] at next
      omega

/-- **A message is decrypted by the key that encrypted it.** -/
theorem decryptMessage_encryptMessage {lib : LimeLib} (hl : lib.RoundTrips) (k : LimeKey)
    (message : List UInt8) (selfZid : Vector UInt8 12) :
    decryptMessage lib (k.withZid selfZid) (encryptMessage lib k message selfZid) k.peerZID
      = some message := by
  have tag (v : Vector UInt8 16) : v.toList.length = 16 := Vector.length_toList
  simp only [decryptMessage, encryptMessage, LimeKey.withZid, List.take_left' (tag _),
    List.drop_left' (tag _), hl.gcm]

theorem decryptWith_late {d : XmlDoc} {zid : Vector UInt8 12} {k : LimeKey} {used : UInt32}
    {enc : List UInt8} (h : used.toNat < k.sessionIndex.toNat) :
    decryptWith lib d zid k used enc = .error .unableToDecryptMessage :=
  if_pos (UInt32.lt_iff_toNat_lt.mpr h)

theorem decryptWith_early {d : XmlDoc} {zid : Vector UInt8 12} {k : LimeKey} {used : UInt32}
    {enc : List UInt8} (h : k.sessionIndex.toNat + maxDerivationNumber < used.toNat) :
    decryptWith lib d zid k used enc = .error .unableToDecryptMessage := by
  have ahead : k.sessionIndex ≤ used := by
    rw [UInt32.le_iff_toNat_le]
    omega
  have far : maxDerivationNumber < (used - k.sessionIndex).toNat := by
    rw [UInt32.toNat_sub_of_le _ _ ahead]
    omega
  rw [decryptWith, if_neg (UInt32.not_lt.mpr ahead), if_pos far]

/-- **A message in the window is decrypted, and the key behind it is stored.** -/
theorem decryptWith_due {lib : LimeLib} (hl : lib.RoundTrips) {d : XmlDoc} {k : LimeKey}
    {zid : Vector UInt8 12} {m : Nat} (message : List UInt8)
    (stored : getCachedRcvKeyByZid d zid = .ok (k.withZid zid))
    (bound : k.sessionIndex.toNat + m < 2 ^ 32) (near : m ≤ maxDerivationNumber) :
    ∃ d', decryptWith lib d k.peerZID (k.withZid zid) ((deriveKey lib)^[m] k).sessionIndex
        (encryptMessage lib ((deriveKey lib)^[m] k) message zid) = .ok (d', message) ∧
      SameCache d d' ∧
      getCachedRcvKeyByZid d' zid = .ok (((deriveKey lib)^[m + 1] k).withZid zid) := by
  have index := toNat_sessionIndex lib bound
  have same : (k.withZid zid).sessionIndex = k.sessionIndex := rfl
  have ahead : (k.withZid zid).sessionIndex ≤ ((deriveKey lib)^[m] k).sessionIndex := by
    rw [UInt32.le_iff_toNat_le, index, same]
    omega
  have close : ¬ maxDerivationNumber <
      (((deriveKey lib)^[m] k).sessionIndex - (k.withZid zid).sessionIndex).toNat := by
    rw [UInt32.toNat_sub_of_le _ _ ahead, index, same]
    omega
  have long : ¬ (encryptMessage lib ((deriveKey lib)^[m] k) message zid).length < 16 := by
    rw [encryptMessage, List.length_append, Vector.length_toList]
    omega
  have caught : catchUp lib ((deriveKey lib)^[m] k).sessionIndex maxDerivationNumber (k.withZid zid)
      = ((deriveKey lib)^[m] k).withZid zid := by
    rw [catchUp_eq lib (m := m) (by rw [index, same]) near, iterate_deriveKey_withZid]
  have plain := decryptMessage_encryptMessage hl ((deriveKey lib)^[m] k) message zid
  rw [iterate_deriveKey_peerZID] at plain
  have next : deriveKey lib (((deriveKey lib)^[m] k).withZid zid)
      = ((deriveKey lib)^[m + 1] k).withZid zid := by
    rw [Function.iterate_succ_apply']
    rfl
  have zids : (((deriveKey lib)^[m + 1] k).withZid zid).peerZID = zid := rfl
  obtain ⟨d', set, reread⟩ := getCachedRcvKeyByZid_setCachedKey stored zids
  refine ⟨d', ?_, setCachedKey_sameCache set, reread⟩
  rw [decryptWith, if_neg (UInt32.not_lt.mpr ahead), if_neg close, if_neg long]
  simp only [caught, plain, next, set, Outcome.ofOption_some, Outcome.ok_bind]

/-- **A message is decrypted with the key of its sender in the receiver's cache.** -/
theorem decryptMultipartMessage_carried {lib : LimeLib} (hl : lib.RoundTrips) {d : XmlDoc}
    {selfZidHex message : List UInt8} {zid : Vector UInt8 12} {k associatedKey : LimeKey}
    {text : lib.Text} (carries : Carries lib selfZidHex zid k message text)
    (own : getSelfZid d = .ok (int8ToStr k.peerZID)) (printable : Printable selfZidHex)
    (long : selfZidHex.length = 24) (bytes : strToUint8 12 selfZidHex = some zid)
    (stored : getCachedRcvKeyByZid d zid = .ok associatedKey) :
    decryptMultipartMessage lib (some d) text = decryptWith lib d k.peerZID associatedKey
      k.sessionIndex (encryptMessage lib k message zid) := by
  obtain ⟨ks₁, ks₂, others, rfl⟩ := carries
  have parsed := hl.xml _ (plain_messageDoc hl printable message zid (ks₁ ++ k :: ks₂))
  have sender : senderZid (.element "ZID" [.text selfZidHex]) = some zid := by
    refine (congrArg (Option.bind · _) (xmlNodeListGetString_text selfZidHex)).trans ?_
    rw [Option.bind_some, if_pos (by rw [long]; decide), bytes]
  simp only [decryptMultipartMessage, own, Outcome.mapError_ok, Outcome.ok_bind,
    strToUint8_int8ToStr, Outcome.ofOption_some, hl.declaration, Bool.true_eq_false, if_false,
    parsed]
  simp only [messageDoc, XmlNode.children, XmlNode.name, if_true, sender, Outcome.ofOption_some,
    Outcome.ok_bind, stored, readMsgs_own hl others]

/-! ## The sender -/

theorem not_writes_uri {role : Role} {s : String} (h : role.Writes s) : s ≠ "uri" := by
  rintro rfl
  obtain ⟨i, hi, -⟩ := h
  cases role <;> cases hi

/-- **A write-back keeps the URIs of a peer.** -/
theorem hasUri_writeItems (role : Role) (k : LimeKey) (peerURI : List UInt8) (cs : List XmlNode)
    (found : Nat) : hasUri peerURI (writeItems role k cs found).1 = hasUri peerURI cs := by
  induction cs generalizing found with
  | nil => rfl
  | cons c cs ih =>
    by_cases limit : found < 3
    · cases text : k.childText role c with
      | none =>
        rw [writeItems_skip text]
        exact congrArg (_ || ·) (ih found)
      | some s =>
        rw [writeItems_write limit text]
        have writes : role.Writes c.name := by
          by_contra hn
          rw [childText_none hn] at text
          cases text
        have name := not_writes_uri writes
        refine (congrArg (_ || ·) (ih (found + 1))).trans (congrArg (· || _) ?_)
        simp only [XmlNode.name_setContent, name, false_and, decide_false]
    · rw [writeItems_done limit]

theorem usedKey_writeNode {peerURI : List UInt8} {pre : List XmlNode} {n : XmlNode} {k k' : LimeKey}
    (finds : Finds .sender k.peerZID pre n) (used : usedKey peerURI n = some k)
    (hz : k'.peerZID = k.peerZID) : usedKey peerURI (writeNode k' n) = some k' := by
  obtain ⟨peer, uri, key⟩ := usedKey_eq_some.mp used
  obtain ⟨shape, reread, -⟩ := finds.writeBack key hz
  refine usedKey_eq_some.mpr ⟨shape.name.trans peer, ?_, reread⟩
  cases hc : n.children with
  | nil =>
    obtain rfl := eq_peer peer hc
    exact uri
  | cons c cs =>
    obtain rfl := eq_peer peer hc
    exact (congrArg (_ || ·) (hasUri_writeItems .sender k' peerURI cs 0)).trans uri

theorem updateKeys_append (ks₁ ks₂ : List LimeKey) (d : XmlDoc) :
    updateKeys lib (ks₁ ++ ks₂) d = (updateKeys lib ks₁ d).bind (updateKeys lib ks₂) := by
  induction ks₁ generalizing d with
  | nil => rfl
  | cons k ks ih =>
    rw [List.cons_append, updateKeys, updateKeys, Option.bind_assoc]
    exact congrArg _ (funext ih)

theorem forall₂_append_cons {α : Type} {R : α → α → Prop} {pre post l : List α} {a : α}
    (h : List.Forall₂ R (pre ++ a :: post) l) :
    ∃ pre' a' post', l = pre' ++ a' :: post' ∧ List.Forall₂ R pre pre' ∧ R a a' := by
  induction pre generalizing l with
  | nil =>
    obtain ⟨a', post', ha, -, rfl⟩ := List.forall₂_cons_left_iff.mp h
    exact ⟨[], a', post', rfl, .nil, ha⟩
  | cons b pre ih =>
    obtain ⟨b', l', hb, hl, rfl⟩ := List.forall₂_cons_left_iff.mp h
    obtain ⟨pre', a', post', rfl, hpre, ha⟩ := ih hl
    exact ⟨b' :: pre', a', post', rfl, .cons hb hpre, ha⟩

/-- Keys of other peers leave a peer as it is. -/
theorem updateKeys_frame {ks : List LimeKey} {d d' : XmlDoc} {pre post : List XmlNode} {n : XmlNode}
    (h : updateKeys lib ks d = some d') (hd : d.nodes = pre ++ n :: post)
    (others : ∀ k ∈ ks, ¬ Target k.peerZID n) :
    getSelfZid d' = getSelfZid d ∧
      ∃ pre' post', d'.nodes = pre' ++ n :: post' ∧ List.Forall₂ SameShape pre pre' := by
  induction ks generalizing d pre post with
  | nil =>
    cases h
    exact ⟨rfl, pre, post, hd, List.forall₂_same.mpr fun m _ => .refl m⟩
  | cons k ks ih =>
    obtain ⟨d₁, set, h⟩ := Option.bind_eq_some_iff.mp h
    have frame := writePeers_frame (setCachedKey_nodes set)
    rw [hd] at frame
    obtain ⟨pre₁, n₁, post₁, hd₁, hpre, -, keep⟩ := forall₂_append_cons frame
    obtain rfl := keep (others k (.head ks))
    obtain ⟨own, pre', post', hd', hpre'⟩ := ih h hd₁ fun k' hk' => others k' (.tail k hk')
    refine ⟨own.trans (setCachedKey_sameCache set).getSelfZid, pre', post', hd', ?_⟩
    have len : pre.length = pre'.length := hpre.length_eq.trans hpre'.length_eq
    refine List.forall₂_iff_get.mpr ⟨len, fun i hi hi' => ?_⟩
    have hi₁ : i < pre₁.length := by rwa [← hpre.length_eq]
    exact (hpre.get hi hi₁).1.trans (hpre'.get hi₁ hi')

/-- The write-back of the key at a place of the cache finds it there, and no other peer that the
message uses has the same ZID. -/
def FindsOwn (peerURI : List UInt8) (p : Nat) (d : XmlDoc) : Prop :=
  ∃ pre n post k, d.nodes = pre ++ n :: post ∧ pre.length = p ∧ usedKey peerURI n = some k ∧
    Finds .sender k.peerZID pre n ∧
    ∀ m ∈ pre ++ post, ∀ k', usedKey peerURI m = some k' → k'.peerZID ≠ k.peerZID

/-- **What a call does to the one peer it is followed for.** -/
theorem createMultipartMessage_own {d d' : XmlDoc} {message peerURI : List UInt8} {text : lib.Text}
    {p : Nat} {k : LimeKey} (own : FindsOwn peerURI p d)
    (used : d.nodes[p]?.bind (usedKey peerURI) = some k)
    (h : createMultipartMessage lib (some d) message peerURI = .ok (d', text)) :
    d'.nodes[p]?.bind (usedKey peerURI) = some (deriveKey lib k) ∧ getSelfZid d' = getSelfZid d ∧
      ∃ selfZidHex zid, getSelfZid d = .ok selfZidHex ∧ strToUint8 12 selfZidHex = some zid ∧
        Carries lib selfZidHex zid k message text := by
  obtain ⟨pre, n, post, k₀, hd, rfl, used₀, finds, only⟩ := own
  have node : d.nodes[pre.length]? = some n := by
    rw [hd, List.getElem?_append_right (le_refl _), Nat.sub_self]
    rfl
  rw [node, Option.bind_some, used₀] at used
  obtain rfl := Option.some.inj used
  obtain ⟨selfZidHex, zid, hz, bytes, updated, rfl⟩ := createMultipartMessage_eq_ok lib h
  have keys : d.nodes.filterMap (usedKey peerURI)
      = pre.filterMap (usedKey peerURI) ++ k₀ :: post.filterMap (usedKey peerURI) := by
    rw [hd, List.filterMap_append, List.filterMap_cons_some used₀]
  have zids : ∀ k' ∈ pre.filterMap (usedKey peerURI) ++ post.filterMap (usedKey peerURI),
      k'.peerZID ≠ k₀.peerZID := by
    rw [← List.filterMap_append]
    intro k' hk'
    obtain ⟨m, hm, hk'⟩ := List.mem_filterMap.mp hk'
    exact only m hm k' hk'
  have others {ks : List LimeKey} {m : XmlNode} (shape : SameShape n m)
      (hks : ∀ k' ∈ ks, k'.peerZID ≠ k₀.peerZID) : ∀ k' ∈ ks, ¬ Target k'.peerZID m :=
    fun k' hk' target => hks k' hk' ((shape.target.mp target).unique finds.target)
  rw [keys, updateKeys_append] at updated
  obtain ⟨d₁, before, updated⟩ := Option.bind_eq_some_iff.mp updated
  obtain ⟨d₂, set, after⟩ := Option.bind_eq_some_iff.mp updated
  obtain ⟨own₁, pre₁, post₁, hd₁, hpre₁⟩ := updateKeys_frame lib before hd
    (others (.refl n) fun k' hk' => zids k' (List.mem_append_left _ hk'))
  obtain ⟨shape, -, write⟩ :=
    (finds.congr hpre₁).writeBack (usedKey_eq_some.mp used₀).2.2 (deriveKey_peerZID lib k₀)
  have written := setCachedKey_nodes set
  rw [hd₁] at written
  have hd₂ := write post₁ _ written
  obtain ⟨own₂, pre₂, post₂, hd', hpre₂⟩ := updateKeys_frame lib after hd₂
    (others shape fun k' hk' => zids k' (List.mem_append_right _ hk'))
  have place : pre₂.length = pre.length := hpre₂.length_eq.symm.trans hpre₁.length_eq.symm
  refine ⟨?_, ?_, selfZidHex, zid, hz, bytes, _, _, zids, by rw [keys]⟩
  · rw [hd', List.getElem?_append_right (le_of_eq place), place, Nat.sub_self]
    exact usedKey_writeNode finds used₀ (deriveKey_peerZID lib k₀)
  · rw [own₂, (setCachedKey_sameCache set).getSelfZid, own₁]

/-! ## The two caches -/

/-- A message that was sent, with the sender's cache before and after. -/
structure SentMessage where
  before : XmlDoc
  plain : List UInt8
  text : lib.Text
  after : XmlDoc

/-- The two caches, the messages sent, and the messages accepted by number with the plaintext that
was returned. -/
structure Link where
  sender : XmlDoc
  receiver : XmlDoc
  sent : List (SentMessage lib)
  accepted : List (Nat × List UInt8)

/-- A call of one of the two parties.  Any message that was sent may reach the receiver, at any
time and any number of times.  `meets` is asked of the sender's cache before each message. -/
inductive LinkStep (peerURI : List UInt8) (meets : XmlDoc → Prop) : Link lib → Link lib → Prop
  | send (l : Link lib) (message : List UInt8) (d : XmlDoc) (text : lib.Text)
      (hm : meets l.sender)
      (h : createMultipartMessage lib (some l.sender) message peerURI = .ok (d, text)) :
      LinkStep peerURI meets l
        { l with sender := d, sent := l.sent ++ [⟨l.sender, message, text, d⟩] }
  | accept (l : Link lib) (n : Nat) (s : SentMessage lib) (d : XmlDoc) (plain : List UInt8)
      (sent : l.sent[n]? = some s)
      (h : decryptMultipartMessage lib (some l.receiver) s.text = .ok (d, plain)) :
      LinkStep peerURI meets l { l with receiver := d, accepted := l.accepted ++ [(n, plain)] }
  | refuse (l : Link lib) (n : Nat) (s : SentMessage lib) (code : LimeError)
      (sent : l.sent[n]? = some s)
      (h : decryptMultipartMessage lib (some l.receiver) s.text = .error code) :
      LinkStep peerURI meets l l

/-- A run from two caches. -/
def LinkRun (peerURI : List UInt8) (meets : XmlDoc → Prop) (sender receiver : XmlDoc)
    (l : Link lib) : Prop :=
  Relation.ReflTransGen (LinkStep lib peerURI meets) ⟨sender, receiver, [], []⟩ l

/-- The caches hold the same key, session identifier and index for each other: the sender's at the
place `p` of its cache, the receiver's under the sender's ZID. -/
structure Paired (peerURI : List UInt8) (p : Nat) (zid : Vector UInt8 12) (k : LimeKey)
    (sender receiver : XmlDoc) : Prop where
  sndKey : sender.nodes[p]?.bind (usedKey peerURI) = some k
  rcvKey : getCachedRcvKeyByZid receiver zid = .ok (k.withZid zid)
  senderZid : ∃ hex, getSelfZid sender = .ok hex ∧ strToUint8 12 hex = some zid
  receiverZid : ∃ hex, getSelfZid receiver = .ok hex ∧ strToUint8 12 hex = some k.peerZID

/-- The own ZIDs are written as the other party reads them. -/
structure ZidsReadable (sender receiver : XmlDoc) : Prop where
  whole : ∀ hex, getSelfZid sender = .ok hex → hex.length = 24 ∧ Printable hex
  lowerCase : ∀ hex zid, getSelfZid receiver = .ok hex → strToUint8 12 hex = some zid →
    hex = int8ToStr zid

/-- The delivery of the messages sent, as both caches see it. -/
structure Delivered (peerURI : List UInt8) (p : Nat) (zid : Vector UInt8 12) (l : Link lib) :
    Prop where
  /-- Messages are accepted in the order in which they were sent. -/
  increasing : l.accepted.Pairwise fun a b => a.1 < b.1
  /-- No message is accepted twice. -/
  once : (l.accepted.map Prod.fst).Nodup
  /-- The plaintext is the one that was sent. -/
  genuine : ∀ a ∈ l.accepted, ∃ s, l.sent[a.1]? = some s ∧ a.2 = s.plain
  /-- The indices of the messages increase with their numbers. -/
  indices : ∀ (m n : Nat) (s t : SentMessage lib) (k k' : LimeKey), m < n → l.sent[m]? = some s →
    l.sent[n]? = some t →
    s.before.nodes[p]?.bind (usedKey peerURI) = some k →
    t.before.nodes[p]?.bind (usedKey peerURI) = some k' → k.sessionIndex < k'.sessionIndex
  /-- A message whose index is the receiver's or up to `MAX_DERIVATION_NUMBER` ahead is decrypted,
  and the receiver's key is then the sender's just after it had sent it; any other is refused. -/
  delivery : ∀ (n : Nat) (s : SentMessage lib), l.sent[n]? = some s → ∃ k k' r : LimeKey,
    s.before.nodes[p]?.bind (usedKey peerURI) = some k ∧
    s.after.nodes[p]?.bind (usedKey peerURI) = some k' ∧
    getCachedRcvKeyByZid l.receiver zid = .ok r ∧
    if r.sessionIndex ≤ k.sessionIndex ∧
        k.sessionIndex.toNat ≤ r.sessionIndex.toNat + maxDerivationNumber then
      ∃ d, decryptMultipartMessage lib (some l.receiver) s.text = .ok (d, s.plain) ∧
        getCachedRcvKeyByZid d zid = .ok (k'.withZid zid)
    else ∃ code, decryptMultipartMessage lib (some l.receiver) s.text = .error code

/-- The two caches are those of a ratchet: the receiver waits for message `r`. -/
structure Linked (peerURI : List UInt8) (p : Nat) (zid : Vector UInt8 12) (k : LimeKey)
    (selfZidHex : List UInt8) (l : Link lib) (r : Nat) : Prop where
  sender : l.sender.nodes[p]?.bind (usedKey peerURI) = some ((deriveKey lib)^[l.sent.length] k)
  senderZid : getSelfZid l.sender = .ok selfZidHex
  receiver : getCachedRcvKeyByZid l.receiver zid = .ok (((deriveKey lib)^[r] k).withZid zid)
  receiverZid : getSelfZid l.receiver = .ok (int8ToStr k.peerZID)
  position : r ≤ l.sent.length
  sent : ∀ (n : Nat) (s : SentMessage lib), l.sent[n]? = some s →
    s.before.nodes[p]?.bind (usedKey peerURI) = some ((deriveKey lib)^[n] k) ∧
    s.after.nodes[p]?.bind (usedKey peerURI) = some ((deriveKey lib)^[n + 1] k) ∧
    Carries lib selfZidHex zid ((deriveKey lib)^[n] k) s.plain s.text
  ratchet : Ratchet.Run maxDerivationNumber .start
    ⟨l.sent.map SentMessage.plain, r, l.accepted⟩

section Run

variable {lib}
variable {peerURI : List UInt8} {p : Nat} {zid : Vector UInt8 12} {k : LimeKey}
variable {selfZidHex : List UInt8} {l l' : Link lib} {r n : Nat} {s : SentMessage lib}

/-- What the receiver does with a message. -/
theorem Linked.decrypt (hl : lib.RoundTrips) (h : Linked lib peerURI p zid k selfZidHex l r)
    (printable : Printable selfZidHex) (whole : selfZidHex.length = 24)
    (bytes : strToUint8 12 selfZidHex = some zid) (hn : l.sent[n]? = some s) :
    decryptMultipartMessage lib (some l.receiver) s.text =
      decryptWith lib l.receiver k.peerZID (((deriveKey lib)^[r] k).withZid zid)
        ((deriveKey lib)^[n] k).sessionIndex
        (encryptMessage lib ((deriveKey lib)^[n] k) s.plain zid) := by
  have own : getSelfZid l.receiver = .ok (int8ToStr ((deriveKey lib)^[n] k).peerZID) := by
    rw [iterate_deriveKey_peerZID, h.receiverZid]
  have decrypted := decryptMultipartMessage_carried hl (h.sent n s hn).2.2 own printable whole bytes
    h.receiver
  rw [iterate_deriveKey_peerZID] at decrypted
  exact decrypted

theorem Linked.due (hl : lib.RoundTrips) (h : Linked lib peerURI p zid k selfZidHex l r)
    (printable : Printable selfZidHex) (whole : selfZidHex.length = 24)
    (bytes : strToUint8 12 selfZidHex = some zid) (hn : l.sent[n]? = some s)
    (bound : k.sessionIndex.toNat + l.sent.length < 2 ^ 32) (late : r ≤ n)
    (near : n ≤ r + maxDerivationNumber) :
    ∃ d, decryptMultipartMessage lib (some l.receiver) s.text = .ok (d, s.plain) ∧
      SameCache l.receiver d ∧
      getCachedRcvKeyByZid d zid = .ok (((deriveKey lib)^[n + 1] k).withZid zid) := by
  have hlt := (List.getElem?_eq_some_iff.mp hn).1
  have index := toNat_sessionIndex lib (k := k) (n := r) (by omega)
  obtain ⟨m, rfl⟩ := Nat.exists_eq_add_of_le late
  rw [h.decrypt hl printable whole bytes hn]
  have due := decryptWith_due hl (m := m) s.plain h.receiver (by rw [index]; omega) (by omega)
  rw [iterate_deriveKey_peerZID, ← Function.iterate_add_apply, ← Function.iterate_add_apply,
    Nat.add_comm m r, show m + 1 + r = r + m + 1 by omega] at due
  exact due

theorem Linked.refused (hl : lib.RoundTrips) (h : Linked lib peerURI p zid k selfZidHex l r)
    (printable : Printable selfZidHex) (whole : selfZidHex.length = 24)
    (bytes : strToUint8 12 selfZidHex = some zid) (hn : l.sent[n]? = some s)
    (bound : k.sessionIndex.toNat + l.sent.length < 2 ^ 32)
    (out : ¬ (r ≤ n ∧ n ≤ r + maxDerivationNumber)) :
    decryptMultipartMessage lib (some l.receiver) s.text = .error .unableToDecryptMessage := by
  have hlt := (List.getElem?_eq_some_iff.mp hn).1
  have position := h.position
  have indexR := toNat_sessionIndex lib (k := k) (n := r) (by omega)
  have indexN := toNat_sessionIndex lib (k := k) (n := n) (by omega)
  have same : (((deriveKey lib)^[r] k).withZid zid).sessionIndex.toNat = k.sessionIndex.toNat + r :=
    indexR
  rw [h.decrypt hl printable whole bytes hn]
  rcases Nat.lt_or_ge n r with late | due
  · exact decryptWith_late lib (by rw [same, indexN]; omega)
  · have early : r + maxDerivationNumber < n := by
      by_contra near
      exact out ⟨due, Nat.not_lt.mp near⟩
    exact decryptWith_early lib (by rw [same, indexN]; omega)

/-- **One call of either party keeps the two caches those of a ratchet.** -/
theorem Linked.step (hl : lib.RoundTrips) (h : Linked lib peerURI p zid k selfZidHex l r)
    (printable : Printable selfZidHex) (whole : selfZidHex.length = 24)
    (bytes : strToUint8 12 selfZidHex = some zid)
    (bound : k.sessionIndex.toNat + l'.sent.length < 2 ^ 32)
    (step : LinkStep lib peerURI (FindsOwn peerURI p) l l') :
    ∃ r', Linked lib peerURI p zid k selfZidHex l' r' := by
  cases step with
  | send message d text hm created =>
    obtain ⟨sender, own, hex, zid', hhex, hzid, carries⟩ :=
      createMultipartMessage_own lib hm h.sender created
    obtain rfl : hex = selfZidHex := by
      rw [h.senderZid] at hhex
      cases hhex
      rfl
    obtain rfl : zid = zid' := Option.some.inj (bytes.symm.trans hzid)
    rw [← Function.iterate_succ_apply' (deriveKey lib)] at sender
    refine ⟨r, ?_, own.trans h.senderZid, h.receiver, h.receiverZid, ?_, ?_, ?_⟩
    · rw [List.length_append]
      exact sender
    · rw [List.length_append]
      exact Nat.le_succ_of_le h.position
    · intro n s hn
      rcases Nat.lt_or_ge n l.sent.length with old | new
      · rw [List.getElem?_append_left old] at hn
        exact h.sent n s hn
      · rw [List.getElem?_append_right new] at hn
        obtain ⟨hi, rfl⟩ := List.getElem?_eq_some_iff.mp hn
        obtain rfl : n = l.sent.length := by
          rw [List.length_singleton] at hi
          omega
        rw [List.getElem_singleton]
        exact ⟨h.sender, sender, carries⟩
    · rw [List.map_append]
      exact h.ratchet.tail (.send _ message)
  | accept n s d plain hn decrypted =>
    have hlt := (List.getElem?_eq_some_iff.mp hn).1
    by_cases window : r ≤ n ∧ n ≤ r + maxDerivationNumber
    · obtain ⟨d', due, same, stored⟩ :=
        h.due hl printable whole bytes hn bound window.1 window.2
      rw [due] at decrypted
      cases decrypted
      refine ⟨n + 1, h.sender, h.senderZid, stored, same.getSelfZid.trans h.receiverZid, hlt,
        h.sent, h.ratchet.tail (.accept _ n s.plain ?_ window.1 window.2)⟩
      rw [List.getElem?_map, hn]
      rfl
    · rw [h.refused hl printable whole bytes hn bound window] at decrypted
      cases decrypted
  | refuse n s code hn decrypted => exact ⟨r, h⟩

theorem LinkStep.sent_length {meets : XmlDoc → Prop} (step : LinkStep lib peerURI meets l l') :
    l.sent.length ≤ l'.sent.length := by
  cases step with
  | send message d text hm created =>
    rw [List.length_append]
    exact Nat.le_add_right _ _
  | accept n s d plain hn decrypted => exact le_refl _
  | refuse n s code hn decrypted => exact le_refl _

/-- **In every run the two caches are those of a ratchet.** -/
theorem linked_run (hl : lib.RoundTrips) {sender receiver : XmlDoc}
    (paired : Paired peerURI p zid k sender receiver) (readable : ZidsReadable sender receiver)
    (own : getSelfZid sender = .ok selfZidHex) (bytes : strToUint8 12 selfZidHex = some zid)
    (bound : k.sessionIndex.toNat + l.sent.length < 2 ^ 32)
    (run : LinkRun lib peerURI (FindsOwn peerURI p) sender receiver l) :
    ∃ r, Linked lib peerURI p zid k selfZidHex l r := by
  obtain ⟨whole, printable⟩ := readable.whole selfZidHex own
  induction run with
  | refl =>
    obtain ⟨hex, receiverZid, hzid⟩ := paired.receiverZid
    rw [readable.lowerCase hex _ receiverZid hzid] at receiverZid
    exact ⟨0, paired.sndKey, own, paired.rcvKey, receiverZid, le_refl 0, nofun, .refl⟩
  | tail _ step ih =>
    have before := step.sent_length
    obtain ⟨r, h⟩ := ih (by omega)
    exact h.step hl printable whole bytes bound step

/-- **Whatever is lost, repeated or reordered, a message is accepted at most once, in order, and as
it was sent**, and both caches then hold the same key. -/
theorem LinkRun.delivered (hl : lib.RoundTrips) {sender receiver : XmlDoc}
    (paired : Paired peerURI p zid k sender receiver) (readable : ZidsReadable sender receiver)
    (run : LinkRun lib peerURI (FindsOwn peerURI p) sender receiver l)
    (bound : k.sessionIndex.toNat + l.sent.length < 2 ^ 32) : Delivered lib peerURI p zid l := by
  obtain ⟨selfZidHex, own, bytes⟩ := paired.senderZid
  obtain ⟨whole, printable⟩ := readable.whole selfZidHex own
  obtain ⟨r, h⟩ := linked_run hl paired readable own bytes bound run
  have ordered := Ratchet.ordered_run h.ratchet Ratchet.ordered_start
  have position := h.position
  have index {n : Nat} (hn : n ≤ l.sent.length) :
      ((deriveKey lib)^[n] k).sessionIndex.toNat = k.sessionIndex.toNat + n :=
    toNat_sessionIndex lib (by omega)
  refine ⟨ordered.increasing, ordered.nodup, ?_, ?_, ?_⟩
  · intro a ha
    have genuine := ordered.genuine a ha
    rw [List.getElem?_map] at genuine
    obtain ⟨s, hs, plain⟩ := Option.map_eq_some_iff.mp genuine
    exact ⟨s, hs, plain.symm⟩
  · intro m n s t k₁ k₂ lt hm hn first second
    obtain rfl := Option.some.inj ((h.sent m s hm).1.symm.trans first)
    obtain rfl := Option.some.inj ((h.sent n t hn).1.symm.trans second)
    have hlt := (List.getElem?_eq_some_iff.mp hn).1
    rw [UInt32.lt_iff_toNat_lt, index (by omega), index (by omega)]
    omega
  · intro n s hn
    have hlt := (List.getElem?_eq_some_iff.mp hn).1
    obtain ⟨before, after, -⟩ := h.sent n s hn
    refine ⟨_, _, _, before, after, h.receiver, ?_⟩
    have window : ((deriveKey lib)^[r] k).sessionIndex ≤ ((deriveKey lib)^[n] k).sessionIndex ∧
        ((deriveKey lib)^[n] k).sessionIndex.toNat
          ≤ ((deriveKey lib)^[r] k).sessionIndex.toNat + maxDerivationNumber ↔
        r ≤ n ∧ n ≤ r + maxDerivationNumber := by
      rw [UInt32.le_iff_toNat_le, index position, index (Nat.le_of_lt hlt)]
      omega
    split_ifs with due
    · obtain ⟨late, near⟩ := window.mp due
      obtain ⟨d, decrypted, -, stored⟩ := h.due hl printable whole bytes hn bound late near
      exact ⟨d, decrypted, stored⟩
    · exact ⟨_, h.refused hl printable whole bytes hn bound fun out => due (window.mpr out)⟩

end Run

/-! ## Two pairs of caches -/

/-- The cache of the peer of `aliceCache`. -/
def paulineCache : XmlDoc :=
  ⟨some (.element "cache"
    [leaf "selfZID" "005dbe0399643d953a2202dd",
     .element "peer"
      [leaf "ZID" "ef7692d0792a67491ae2d44e",
       leaf "uri" "sip:marie@sip.example.org",
       leaf "rcvKey" "08df5907d30959b8cb70f6fff2d8febd88fb41b0c8afc39e4b972f86dd5cfe2d",
       leaf "rcvSId" "5f9aa1e5e4c7ec88fa389a9f6b8879b42d3c57bb28e62068d2df23e8f9b77193",
       leaf "rcvIndex" "00000078",
       leaf "pvs" "01"]])⟩

/-- The own ZID of `aliceCache`. -/
def aliceZid : Vector UInt8 12 :=
  #v[0xef, 0x76, 0x92, 0xd0, 0x79, 0x2a, 0x67, 0x49, 0x1a, 0xe2, 0xd4, 0x4e]

theorem hexBytes_byteToChars (s : List UInt8) : hexBytes (s.flatMap byteToChars) = s := by
  induction s with
  | nil => rfl
  | cons b s ih =>
    rw [List.flatMap_cons]
    change charsToByte _ _ :: hexBytes (s.flatMap byteToChars) = b :: s
    rw [ih, charsToByte_byteToChar]

theorem toyLib_roundTrips : toyLib.RoundTrips where
  gcm key iv add input := by simp only [toyLib, if_true]
  b64 := hexBytes_byteToChars
  b64Printable := printable_byteToChars
  xml _ _ := rfl
  declaration _ := rfl

theorem zidsReadable_alice (zid : String) : ZidsReadable (aliceCache zid) paulineCache where
  whole hex own := by
    cases own
    exact ⟨by decide +kernel, by decide +kernel⟩
  lowerCase hex zid own bytes := by
    cases own
    cases bytes
    decide +kernel

theorem paulineCache_rcvKey :
    getCachedRcvKeyByZid paulineCache aliceZid = .ok (paulineKey.withZid aliceZid) := by
  decide +kernel

theorem filterMap_aliceCache {zid : String}
    (h : usedKey paulineURI (paulinePeer zid) = some paulineKey) :
    (aliceCache zid).nodes.filterMap (usedKey paulineURI) = [paulineKey] := by
  have own : usedKey paulineURI (leaf "selfZID" "ef7692d0792a67491ae2d44e") = none := rfl
  exact (List.filterMap_cons_none own).trans (List.filterMap_cons_some h)

theorem paired_alice {zid : String} (h : usedKey paulineURI (paulinePeer zid) = some paulineKey) :
    Paired paulineURI 1 aliceZid paulineKey (aliceCache zid) paulineCache where
  sndKey := h
  rcvKey := paulineCache_rcvKey
  senderZid := ⟨_, rfl, by decide +kernel⟩
  receiverZid := ⟨_, rfl, by decide +kernel⟩

/-- The first message to Pauline. -/
theorem carries_alice {zid : String} {d : XmlDoc} {text : toyLib.Text}
    (h : (aliceCache zid).nodes.filterMap (usedKey paulineURI) = [paulineKey])
    (created : createMultipartMessage toyLib (some (aliceCache zid)) (ascii "hello") paulineURI
      = .ok (d, text)) :
    ∃ hex, getSelfZid (aliceCache zid) = .ok hex ∧ strToUint8 12 hex = some aliceZid ∧
      Carries toyLib hex aliceZid paulineKey (ascii "hello") text := by
  obtain ⟨hex, z, own, bytes, -, htext⟩ := createMultipartMessage_eq_ok toyLib created
  obtain ⟨hex', own', bytes'⟩ : ∃ hex', getSelfZid (aliceCache zid) = .ok hex' ∧
      strToUint8 12 hex' = some aliceZid := ⟨_, rfl, by decide +kernel⟩
  obtain rfl : hex = hex' := by
    rw [own] at own'
    cases own'
    rfl
  obtain rfl := Option.some.inj (bytes.symm.trans bytes')
  refine ⟨hex, own, bytes, [], [], nofun, ?_⟩
  rw [htext, h]
  rfl

/-- A ZID in upper case in the sender's cache: the first message is decrypted, and the receiver's
key is then ahead of the sender's. -/
theorem upper_case_zid_parts_caches :
    Paired paulineURI 1 aliceZid paulineKey (aliceCache upperCaseZid) paulineCache ∧
    ∃ l : Link toyLib, LinkRun toyLib paulineURI (fun _ => True)
      (aliceCache upperCaseZid) paulineCache l ∧
      l.sent.length = 1 ∧ ¬ Delivered toyLib paulineURI 1 aliceZid l := by
  let cache := aliceCache upperCaseZid
  have key : cache.nodes.filterMap (usedKey paulineURI) = [paulineKey] :=
    filterMap_aliceCache usedKey_upperCaseZid
  have used : cache.nodes[1]?.bind (usedKey paulineURI) = some paulineKey := usedKey_upperCaseZid
  have created : ∃ text, createMultipartMessage toyLib (some cache) (ascii "hello") paulineURI
      = .ok (cache, text) := ⟨_, rfl⟩
  obtain ⟨text, created⟩ := created
  refine ⟨paired_alice used, _, .single (.send _ (ascii "hello") cache text trivial created), rfl,
    fun delivered => ?_⟩
  obtain ⟨k, k', r, before, after, stored, delivery⟩ :=
    delivered.delivery 0 ⟨cache, ascii "hello", text, cache⟩ rfl
  obtain rfl := Option.some.inj (before.symm.trans used)
  obtain rfl := Option.some.inj (after.symm.trans used)
  obtain rfl : r = paulineKey.withZid aliceZid := by
    rw [paulineCache_rcvKey] at stored
    cases stored
    rfl
  obtain ⟨d, decrypted, behind⟩ := (if_pos (by decide)).mp delivery
  -- the receiver has stored the derived key
  obtain ⟨hex, own, bytes, carries⟩ := carries_alice key created
  obtain ⟨whole, printable⟩ := (zidsReadable_alice _).whole hex own
  rw [decryptMultipartMessage_carried toyLib_roundTrips carries rfl printable whole bytes
    paulineCache_rcvKey] at decrypted
  obtain ⟨d', due, -, ahead⟩ := decryptWith_due toyLib_roundTrips (m := 0) (ascii "hello")
    paulineCache_rcvKey (by decide) (by decide)
  cases due.symm.trans decrypted
  rw [ahead] at behind
  have same := congrArg LimeKey.sessionIndex (Outcome.ok.inj behind)
  exact absurd same (by decide)

theorem findsOwn_alice : FindsOwn paulineURI 1 (aliceCache lowerCaseZid) := by
  refine ⟨[_], paulinePeer lowerCaseZid, [], paulineKey, rfl, rfl, usedKey_lowerCaseZid,
    finds_lowerCaseZid, fun m hm k' hk' => ?_⟩
  rw [List.append_nil, List.mem_singleton] at hm
  subst hm
  cases hk'

/-- A ZID in lower case: one message is sent and accepted. -/
theorem LinkRun.delivered_alice :
    ∃ l : Link toyLib, LinkRun toyLib paulineURI (FindsOwn paulineURI 1) (aliceCache lowerCaseZid)
      paulineCache l ∧ l.accepted = [(0, ascii "hello")] ∧
      Delivered toyLib paulineURI 1 aliceZid l := by
  let cache := aliceCache lowerCaseZid
  obtain ⟨⟨d, text⟩, created⟩ : ∃ r,
      createMultipartMessage toyLib (some cache) (ascii "hello") paulineURI = .ok r := ⟨_, rfl⟩
  obtain ⟨hex, own, bytes, carries⟩ :=
    carries_alice (filterMap_aliceCache usedKey_lowerCaseZid) created
  obtain ⟨whole, printable⟩ := (zidsReadable_alice _).whole hex own
  obtain ⟨d', due, -, -⟩ := decryptWith_due toyLib_roundTrips (m := 0) (ascii "hello")
    paulineCache_rcvKey (by decide) (by decide)
  have decrypted := (decryptMultipartMessage_carried toyLib_roundTrips carries rfl printable whole
    bytes paulineCache_rcvKey).trans due
  have sent : LinkStep toyLib paulineURI (FindsOwn paulineURI 1) ⟨cache, paulineCache, [], []⟩ _ :=
    .send _ (ascii "hello") d text findsOwn_alice created
  have bound : paulineKey.sessionIndex.toNat + 1 < 2 ^ 32 := by decide
  have run : LinkRun toyLib paulineURI (FindsOwn paulineURI 1) cache paulineCache _ :=
    .tail (.single sent) (.accept _ 0 ⟨cache, ascii "hello", text, d⟩ d'
      (ascii "hello") rfl decrypted)
  exact ⟨_, run, rfl, LinkRun.delivered toyLib_roundTrips (paired_alice usedKey_lowerCaseZid)
    (zidsReadable_alice _) run bound⟩

end Linphone

import Linphone.Lib.Ratchet
import Linphone.Lime.Message

/-!
# No sending key is used twice

A call of `lime_createMultipartMessage` uses the key of every endpoint of the URI, and writes the
derived key back by ZID.  Where the write-back finds each peer that was used, every further use of
a peer is under the next derivation; where it finds none, the call succeeds all the same and the
next message is encrypted under the same key and initialization vector.
-/

namespace Linphone

variable (lib : LimeLib)

/-! ## One call -/

/-- The key that a message to the URI takes from a node of the cache. -/
def usedKey (peerURI : List UInt8) (n : XmlNode) : Option LimeKey :=
  (peerSndKey peerURI n).join

/-- The sender's key in a node of the cache, whatever its URI. -/
def storedKey (n : XmlNode) : Option LimeKey :=
  (sndKey n.children).join

theorem usedKey_eq_some {peerURI : List UInt8} {n : XmlNode} {k : LimeKey} :
    usedKey peerURI n = some k ↔
      n.name = "peer" ∧ hasUri peerURI n.children ∧ sndKey n.children = some (some k) := by
  rw [usedKey, Option.join_eq_some_iff, peerSndKey]
  split_ifs with h
  · simp [h.1, h.2]
  · simp only [Option.some.injEq, reduceCtorEq, false_iff]
    exact fun ⟨h1, h2, _⟩ => h ⟨h1, h2⟩

theorem storedKey_of_usedKey {peerURI : List UInt8} {n : XmlNode} {k : LimeKey}
    (h : usedKey peerURI n = some k) : storedKey n = some k :=
  Option.join_eq_some_iff.mpr (usedKey_eq_some.mp h).2.2

/-- The lookup returns the keys used, in the order of the cache. -/
theorem sndKeys_eq {peerURI : List UInt8} {ns : List XmlNode} {keys : List LimeKey}
    (h : sndKeys peerURI ns = some keys) : keys = ns.filterMap (usedKey peerURI) := by
  induction ns generalizing keys with
  | nil =>
    cases h
    rfl
  | cons n ns ih =>
    obtain ⟨r, first, h⟩ := Option.bind_eq_some_iff.mp h
    obtain ⟨ks, rest, rfl⟩ := Option.map_eq_some_iff.mp h
    rw [ih rest]
    cases r with
    | none =>
      have unused : usedKey peerURI n = none := by rw [usedKey, first]; rfl
      rw [List.filterMap_cons_none unused]
      rfl
    | some k =>
      have used : usedKey peerURI n = some k := by rw [usedKey, first]; rfl
      rw [List.filterMap_cons_some used]
      rfl

/-- What a successful call has done. -/
theorem createMultipartMessage_eq_ok {d d' : XmlDoc} {message peerURI : List UInt8}
    {text : lib.Text}
    (h : createMultipartMessage lib (some d) message peerURI = .ok (d', text)) :
    ∃ selfZidHex selfZid, getSelfZid d = .ok selfZidHex ∧ strToUint8 12 selfZidHex = some selfZid ∧
      updateKeys lib (d.nodes.filterMap (usedKey peerURI)) d = some d' ∧
      text = lib.xmlDocDump (messageDoc selfZidHex
        ((d.nodes.filterMap (usedKey peerURI)).map (msgNode lib message selfZid))) := by
  obtain ⟨selfZidHex, own, h⟩ := Outcome.bind_eq_ok.mp h
  obtain ⟨selfZid, bytes, h⟩ := Outcome.bind_eq_ok.mp h
  obtain ⟨keys, found, h⟩ := Outcome.bind_eq_ok.mp h
  have found := (Option.filter_eq_some_iff.mp (Outcome.ofOption_eq_ok.mp found)).1
  split_ifs at h
  obtain ⟨cache, updated, h⟩ := Outcome.bind_eq_ok.mp h
  cases h
  rw [← sndKeys_eq found]
  exact ⟨selfZidHex, selfZid, Outcome.mapError_eq_ok.mp own, Outcome.ofOption_eq_ok.mp bytes,
    Outcome.ofOption_eq_ok.mp updated, rfl⟩

/-- A peer with other keys in its children behind the first one. -/
def writeNode (k : LimeKey) (n : XmlNode) : XmlNode :=
  match n.children with
  | [] => n
  | c :: cs => .element "peer" (c :: (writeItems .sender k cs 0).1)

/-- A node of the cache after a message to the URI. -/
def advance (peerURI : List UInt8) (n : XmlNode) : XmlNode :=
  match usedKey peerURI n with
  | some k => writeNode (deriveKey lib k) n
  | none => n

/-- The write-back finds every peer that a message to the URI uses. -/
def FindsUsed (peerURI : List UInt8) (d : XmlDoc) : Prop :=
  ∀ pre n post k, d.nodes = pre ++ n :: post → usedKey peerURI n = some k →
    Finds .sender k.peerZID pre n

/-- What a write-back does on a peer that it finds. -/
theorem Finds.writeBack {pre : List XmlNode} {n : XmlNode} {k k' : LimeKey}
    (finds : Finds .sender k.peerZID pre n) (h : sndKey n.children = some (some k))
    (hz : k'.peerZID = k.peerZID) :
    SameShape n (writeNode k' n) ∧ sndKey (writeNode k' n).children = some (some k') ∧
      ∀ post ns', writePeers .sender k' (pre ++ n :: post) 0 = some ns' →
        ns' = pre ++ writeNode k' n :: post := by
  obtain ⟨peer, first⟩ := finds.target
  cases hc : n.children with
  | nil =>
    rw [hc] at first
    cases first
  | cons c cs =>
    obtain rfl := eq_peer peer hc
    obtain ⟨reread, all⟩ := sndKey_writeItems h (finds.zidFirst c rfl) hz
    refine ⟨⟨rfl, rfl, map_name_writeItems .sender k' cs 0, fun hn => absurd rfl hn⟩, reread, ?_⟩
    intro post ns' write
    exact writePeers_finds (hz ▸ finds) all write

theorem advance_sameShape {peerURI : List UInt8} {pre : List XmlNode} {n : XmlNode} {k : LimeKey}
    (used : usedKey peerURI n = some k) (finds : Finds .sender k.peerZID pre n) :
    SameShape n (advance lib peerURI n) := by
  rw [advance, used]
  exact (finds.writeBack (usedKey_eq_some.mp used).2.2 (deriveKey_peerZID lib k)).1

theorem advance_unused {peerURI : List UInt8} {n : XmlNode} (unused : usedKey peerURI n = none) :
    advance lib peerURI n = n := by
  rw [advance, unused]

theorem Finds.congr {role : Role} {zid : Vector UInt8 12} {pre pre' : List XmlNode} {n : XmlNode}
    (finds : Finds role zid pre n) (same : List.Forall₂ SameShape pre pre') :
    Finds role zid pre' n := by
  refine ⟨finds.target, finds.zidFirst, fun m' hm' absorbs => ?_⟩
  obtain ⟨i, hi, rfl⟩ := List.mem_iff_getElem.mp hm'
  have hi' : i < pre.length := by rwa [same.length_eq]
  exact finds.first _ (List.getElem_mem hi') ((same.get hi' hi).absorbs.mp absorbs)

/-- **A call advances the peers it has used and leaves the others.** -/
theorem updateKeys_nodes {peerURI : List UInt8} {pre post : List XmlNode} {d d' : XmlDoc}
    (hd : d.nodes = pre ++ post)
    (found : ∀ front n back k, post = front ++ n :: back → usedKey peerURI n = some k →
      Finds .sender k.peerZID (pre ++ front) n)
    (h : updateKeys lib (post.filterMap (usedKey peerURI)) d = some d') :
    d'.nodes = pre ++ post.map (advance lib peerURI) := by
  induction post generalizing pre d with
  | nil =>
    cases h
    rw [hd, List.map_nil]
  | cons n post ih =>
    cases used : usedKey peerURI n with
    | none =>
      rw [List.filterMap_cons_none used] at h
      have hd' : d.nodes = (pre ++ [n]) ++ post := by rw [hd, List.append_cons]
      have next := ih hd' ?_ h
      · rw [next, List.map_cons, advance_unused lib used, List.append_assoc]
        rfl
      · rintro front m back k rfl hk
        rw [List.append_assoc]
        exact found (n :: front) m back k rfl hk
    | some k =>
      rw [List.filterMap_cons_some used] at h
      obtain ⟨d₁, set, h⟩ := Option.bind_eq_some_iff.mp h
      have finds : Finds .sender k.peerZID pre n := by
        simpa using found [] n post k rfl used
      have write := setCachedKey_nodes set
      rw [hd] at write
      have nodes := (finds.writeBack (usedKey_eq_some.mp used).2.2 (deriveKey_peerZID lib k)).2.2
        post _ write
      have adv : advance lib peerURI n = writeNode (deriveKey lib k) n := by rw [advance, used]
      rw [← adv] at nodes
      have hd' : d₁.nodes = (pre ++ [advance lib peerURI n]) ++ post := by
        rw [nodes, List.append_cons]
      have next := ih hd' ?_ h
      · rw [next, List.map_cons, List.append_assoc]
        rfl
      · rintro front m back k' rfl hk
        have old := found (n :: front) m back k' rfl hk
        refine old.congr ?_
        rw [List.append_assoc]
        refine List.rel_append (List.forall₂_same.mpr fun m _ => .refl m) (.cons ?_ ?_)
        · exact advance_sameShape lib used finds
        · exact List.forall₂_same.mpr fun m _ => .refl m

/-- **A successful call whose write-back finds the peers used advances exactly these.** -/
theorem createMultipartMessage_nodes {d d' : XmlDoc} {message peerURI : List UInt8}
    {text : lib.Text} (found : FindsUsed peerURI d)
    (h : createMultipartMessage lib (some d) message peerURI = .ok (d', text)) :
    d'.nodes = d.nodes.map (advance lib peerURI) := by
  obtain ⟨selfZidHex, selfZid, -, -, updated, -⟩ := createMultipartMessage_eq_ok lib h
  exact updateKeys_nodes lib (List.nil_append d.nodes).symm found updated

theorem storedKey_advance {peerURI : List UInt8} {pre post : List XmlNode} {n : XmlNode}
    {k : LimeKey} {d : XmlDoc} (found : FindsUsed peerURI d) (hd : d.nodes = pre ++ n :: post)
    (used : usedKey peerURI n = some k) :
    storedKey (advance lib peerURI n) = some (deriveKey lib k) := by
  have finds := found pre n post k hd used
  have written := (finds.writeBack (usedKey_eq_some.mp used).2.2 (deriveKey_peerZID lib k)).2.1
  rw [storedKey, advance, used]
  exact Option.join_eq_some_iff.mpr written

/-! ## Runs -/

/-- A successful call: the cache it found, the URI, and the cache it left. -/
structure SentCall where
  before : XmlDoc
  peerURI : List UInt8
  after : XmlDoc

/-- A run of calls on one cache, with its successful calls.  A call that returns an error leaves
the cache as it was. -/
inductive SendRun : XmlDoc → List SentCall → XmlDoc → Prop
  | nil (d : XmlDoc) : SendRun d [] d
  | sent {d d' e : XmlDoc} {calls : List SentCall} {message peerURI : List UInt8} {text : lib.Text}
      (h : createMultipartMessage lib (some d) message peerURI = .ok (d', text))
      (rest : SendRun d' calls e) : SendRun d (⟨d, peerURI, d'⟩ :: calls) e
  | refused {d e : XmlDoc} {calls : List SentCall} {message peerURI : List UInt8} {code : LimeError}
      (h : createMultipartMessage lib (some d) message peerURI = .error code)
      (rest : SendRun d calls e) : SendRun d calls e

/-- The key that a call takes from the peer at a place of the cache. -/
def SentCall.used (p : Nat) (c : SentCall) : Option LimeKey :=
  c.before.nodes[p]?.bind (usedKey c.peerURI)

/-- The keys under which the calls encrypted for the peer at a place of the cache, in order. -/
def uses (p : Nat) (calls : List SentCall) : List LimeKey :=
  calls.filterMap (SentCall.used p)

theorem uses_cons_none {p : Nat} (c : SentCall) {calls : List SentCall} (h : c.used p = none) :
    uses p (c :: calls) = uses p calls :=
  List.filterMap_cons_none h

theorem uses_cons_some {p : Nat} (c : SentCall) {calls : List SentCall} {k : LimeKey}
    (h : c.used p = some k) : uses p (c :: calls) = k :: uses p calls :=
  List.filterMap_cons_some h

/-- No key taken from the cache encrypts two messages. -/
structure KeysUsedOnce (calls : List SentCall) : Prop where
  /-- After a successful call the cache holds the derived key and the next index of each peer that
  was used. -/
  replaced : ∀ c ∈ calls, ∀ p k, c.used p = some k →
    c.after.nodes[p]?.bind storedKey = some (deriveKey lib k)
  /-- The keys used for a peer are the successive derivations of the first one. -/
  derived : ∀ p, Ratchet.Successive (deriveKey lib) (uses p calls)
  /-- No index of a peer is used twice before the 32 bits are used up. -/
  indices : ∀ p, (uses p calls).length ≤ 2 ^ 32 →
    ((uses p calls).map LimeKey.sessionIndex).Nodup
  /-- No key and initialization vector is used twice, as long as the derivation does not return to
  a key it has left. -/
  keys : ∀ p, (∀ k ∈ (uses p calls).head?, ∀ i < (uses p calls).length,
      ∀ j < (uses p calls).length, ((deriveKey lib)^[i] k).key =
        ((deriveKey lib)^[j] k).key → i = j) →
    ((uses p calls).map LimeKey.key).Nodup

/-- What one call does to the peer at a place of the cache. -/
theorem nodes_after {d d' : XmlDoc} {message peerURI : List UInt8} {text : lib.Text}
    (found : FindsUsed peerURI d)
    (h : createMultipartMessage lib (some d) message peerURI = .ok (d', text)) (p : Nat) :
    (d.nodes[p]?.bind (usedKey peerURI) = none ∧ d'.nodes[p]? = d.nodes[p]?) ∨
    ∃ k, d.nodes[p]?.bind (usedKey peerURI) = some k ∧ d.nodes[p]?.bind storedKey = some k ∧
      d'.nodes[p]?.bind storedKey = some (deriveKey lib k) := by
  rw [createMultipartMessage_nodes lib found h, List.getElem?_map]
  cases node : d.nodes[p]? with
  | none => exact .inl ⟨rfl, rfl⟩
  | some n =>
    cases used : usedKey peerURI n with
    | none => exact .inl ⟨used, congrArg some (advance_unused lib used)⟩
    | some k =>
      obtain ⟨pre, post, hd⟩ := List.append_of_mem (List.mem_of_getElem? node)
      exact .inr ⟨k, used, storedKey_of_usedKey used, storedKey_advance lib found hd used⟩

/-- In a run the first key used for a peer is the one in the cache, and each further one is the
derivation of the one before. -/
theorem SendRun.derived {d e : XmlDoc} {calls : List SentCall} (run : SendRun lib d calls e)
    (found : ∀ c ∈ calls, FindsUsed c.peerURI c.before) (p : Nat) :
    Ratchet.Successive (deriveKey lib) (uses p calls) ∧
      ∀ k ∈ (uses p calls).head?, d.nodes[p]?.bind storedKey = some k := by
  induction run with
  | nil d => exact ⟨.nil, nofun⟩
  | @sent d d' e calls message peerURI text h rest ih =>
    obtain ⟨chain, first⟩ := ih fun c hc => found c (.tail _ hc)
    have here : FindsUsed peerURI d := found _ (.head calls)
    rcases nodes_after lib here h p with ⟨unused, same⟩ | ⟨k, used, stored, next⟩
    · rw [same] at first
      rw [uses_cons_none ⟨d, peerURI, d'⟩ unused]
      exact ⟨chain, first⟩
    · rw [uses_cons_some ⟨d, peerURI, d'⟩ used]
      refine ⟨List.isChain_cons.mpr ⟨fun k' hk' => ?_, chain⟩, ?_⟩
      · have stored' := first k' hk'
        rw [next] at stored'
        exact (Option.some.inj stored').symm
      · intro k' hk'
        cases hk'
        exact stored
  | refused _ _ ih => exact ih found

/-- After each successful call of a run the peers used hold their derived keys. -/
theorem SendRun.replaced {d e : XmlDoc} {calls : List SentCall} (run : SendRun lib d calls e)
    (found : ∀ c ∈ calls, FindsUsed c.peerURI c.before) :
    ∀ c ∈ calls, ∀ p k, c.used p = some k →
      c.after.nodes[p]?.bind storedKey = some (deriveKey lib k) := by
  induction run with
  | nil d => exact nofun
  | @sent d d' e calls message peerURI text h rest ih =>
    intro c hc p k hk
    rcases List.mem_cons.mp hc with rfl | later
    · rcases nodes_after lib (found _ (.head calls)) h p with ⟨unused, -⟩ | ⟨k', used, -, next⟩
      · exact absurd (unused.symm.trans hk) (Option.some_ne_none k).symm
      · obtain rfl := Option.some.inj (used.symm.trans hk)
        exact next
    · exact ih (fun c hc => found c (.tail _ hc)) c later p k hk
  | refused _ _ ih => exact ih found

theorem sessionIndex_separates {k : LimeKey} {n i j : Nat} (bound : n ≤ 2 ^ 32) (hi : i < n)
    (hj : j < n)
    (h : ((deriveKey lib)^[i] k).sessionIndex = ((deriveKey lib)^[j] k).sessionIndex) : i = j := by
  rw [iterate_deriveKey_sessionIndex, iterate_deriveKey_sessionIndex] at h
  have same := congrArg UInt32.toNat ((UInt32.add_right_inj _).mp h)
  rw [UInt32.toNat_ofNat_of_lt' (lt_of_lt_of_le hi bound),
    UInt32.toNat_ofNat_of_lt' (lt_of_lt_of_le hj bound)] at same
  exact same

/-- **In every run whose write-backs find the peers used, no sending key is used twice.** -/
theorem SendRun.keysUsedOnce {d e : XmlDoc} {calls : List SentCall} (run : SendRun lib d calls e)
    (found : ∀ c ∈ calls, FindsUsed c.peerURI c.before) : KeysUsedOnce lib calls where
  replaced := run.replaced lib found
  derived p := (run.derived lib found p).1
  indices p bound := (run.derived lib found p).1.nodup_map _ fun _ _ _ hi _ hj same =>
    sessionIndex_separates lib bound hi hj same
  keys p distinct := (run.derived lib found p).1.nodup_map _ distinct

/-! ## Two caches -/

/-- The characters of a text. -/
def ascii (s : String) : List UInt8 := s.toList.map fun c => UInt8.ofNat c.toNat

/-- An element that holds a text. -/
def leaf (name s : String) : XmlNode := .element name [.text (ascii s)]

/-- The URI of the peer below. -/
def paulineURI : List UInt8 := ascii "sip:pauline@sip.example.org"

/-- A peer whose ZID is written as given. -/
def paulinePeer (zid : String) : XmlNode :=
  .element "peer"
    [leaf "ZID" zid,
     leaf "uri" "sip:pauline@sip.example.org",
     leaf "sndKey" "08df5907d30959b8cb70f6fff2d8febd88fb41b0c8afc39e4b972f86dd5cfe2d",
     leaf "sndSId" "5f9aa1e5e4c7ec88fa389a9f6b8879b42d3c57bb28e62068d2df23e8f9b77193",
     leaf "sndIndex" "00000078",
     leaf "pvs" "01"]

/-- A cache with this peer. -/
def aliceCache (zid : String) : XmlDoc :=
  ⟨some (.element "cache" [leaf "selfZID" "ef7692d0792a67491ae2d44e", paulinePeer zid])⟩

/-- The key of this peer. -/
def paulineKey : LimeKey where
  key := #v[0x08, 0xdf, 0x59, 0x07, 0xd3, 0x09, 0x59, 0xb8, 0xcb, 0x70, 0xf6, 0xff, 0xf2, 0xd8,
    0xfe, 0xbd, 0x88, 0xfb, 0x41, 0xb0, 0xc8, 0xaf, 0xc3, 0x9e, 0x4b, 0x97, 0x2f, 0x86, 0xdd, 0x5c,
    0xfe, 0x2d]
  sessionId := #v[0x5f, 0x9a, 0xa1, 0xe5, 0xe4, 0xc7, 0xec, 0x88, 0xfa, 0x38, 0x9a, 0x9f, 0x6b,
    0x88, 0x79, 0xb4, 0x2d, 0x3c, 0x57, 0xbb, 0x28, 0xe6, 0x20, 0x68, 0xd2, 0xdf, 0x23, 0xe8, 0xf9,
    0xb7, 0x71, 0x93]
  sessionIndex := 0x78
  peerZID := #v[0x00, 0x5d, 0xbe, 0x03, 0x99, 0x64, 0x3d, 0x95, 0x3a, 0x22, 0x02, 0xdd]

/-- The ZID as `lime_int8ToStr` writes it. -/
def lowerCaseZid : String := "005dbe0399643d953a2202dd"

/-- The same ZID in upper case. -/
def upperCaseZid : String := "005DBE0399643D953A2202DD"

theorem usedKey_lowerCaseZid :
    usedKey paulineURI (paulinePeer lowerCaseZid) = some paulineKey := by decide +kernel

theorem usedKey_upperCaseZid :
    usedKey paulineURI (paulinePeer upperCaseZid) = some paulineKey := by decide +kernel

theorem finds_lowerCaseZid : Finds .sender paulineKey.peerZID
    [leaf "selfZID" "ef7692d0792a67491ae2d44e"] (paulinePeer lowerCaseZid) := by
  refine ⟨⟨rfl, by decide +kernel⟩, ?_, ?_⟩
  · rintro c ⟨⟩ ⟨i, hi, hw⟩
    cases hi
    rcases hw with h | h | h <;> cases h
  · intro m hm
    rw [List.mem_singleton] at hm
    subst hm
    exact fun h => absurd h.1.1 (by decide)

/-- A tag that depends on the key, the receiver and the index. -/
def toyTag (key add : List UInt8) : Vector UInt8 16 :=
  .ofFn fun i => key.getD i 0 + add.getD (i + 12) 0

/-- The bytes written as a hexadecimal text. -/
def hexBytes : List UInt8 → List UInt8
  | a :: b :: s => charsToByte a b :: hexBytes s
  | _ => []

/-- Libraries with a trivial cipher, with hexadecimal in the place of base 64. -/
def toyLib : LimeLib where
  sha256Hmac k _ := k.map (· + 1)
  gcmCryptAndTag key _ add input := (input, toyTag key add)
  gcmAuthDecrypt key _ add tag input := if tag = (toyTag key add).toList then some input else none
  b64Encode s := s.flatMap byteToChars
  b64Decode := hexBytes
  Text := XmlDoc
  xmlDocDump := id
  xmlParseDoc := some
  hasDeclaration _ := true

/-- A ZID in upper case: the lookup reads it, the write-back does not find it.  Two messages are
encrypted under one key and initialization vector. -/
theorem upper_case_zid_reuses_key :
    ∃ calls e, SendRun toyLib (aliceCache upperCaseZid) calls e ∧ ¬ KeysUsedOnce toyLib calls := by
  let cache := aliceCache upperCaseZid
  let calls : List SentCall := [⟨cache, paulineURI, cache⟩, ⟨cache, paulineURI, cache⟩]
  have sent (message : List UInt8) : ∃ text,
      createMultipartMessage toyLib (some cache) message paulineURI = .ok (cache, text) := ⟨_, rfl⟩
  obtain ⟨_, first⟩ := sent (ascii "hello")
  obtain ⟨_, second⟩ := sent (ascii "bye")
  refine ⟨calls, cache, .sent first (.sent second (.nil cache)), fun once => ?_⟩
  have used (c : SentCall) (hc : c = ⟨cache, paulineURI, cache⟩) : c.used 1 = some paulineKey := by
    subst hc
    exact usedKey_upperCaseZid
  have twice : uses 1 calls = [paulineKey, paulineKey] := by
    rw [uses_cons_some _ (used _ rfl), uses_cons_some _ (used _ rfl)]
    rfl
  have indices := once.indices 1
  rw [twice] at indices
  exact absurd (indices (by decide)) (by decide)

theorem findsUsed_aliceCache : FindsUsed paulineURI (aliceCache lowerCaseZid) := by
  intro pre n post k h used
  match pre, h with
  | [], h =>
    cases h
    cases used
  | [a], h =>
    cases h
    obtain rfl := Option.some.inj (usedKey_lowerCaseZid.symm.trans used)
    exact finds_lowerCaseZid
  | a :: b :: rest, h => cases rest <;> cases h

/-- A ZID in lower case: the write-back finds the peer. -/
theorem SendRun.keysUsedOnce_alice :
    ∃ calls e, SendRun toyLib (aliceCache lowerCaseZid) calls e ∧
      (uses 1 calls).length = 1 ∧ KeysUsedOnce toyLib calls := by
  have sent : ∃ r, createMultipartMessage toyLib (some (aliceCache lowerCaseZid)) (ascii "hello")
      paulineURI = .ok r := ⟨_, rfl⟩
  obtain ⟨⟨e, text⟩, sent⟩ := sent
  have run := SendRun.sent sent (.nil e)
  have used : SentCall.used 1 ⟨aliceCache lowerCaseZid, paulineURI, e⟩ = some paulineKey :=
    usedKey_lowerCaseZid
  refine ⟨_, e, run, ?_, run.keysUsedOnce toyLib fun c hc => ?_⟩
  · rw [uses_cons_some _ used]
    rfl
  · rw [List.mem_singleton] at hc
    subst hc
    exact findsUsed_aliceCache

end Linphone

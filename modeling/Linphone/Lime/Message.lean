import Mathlib.Logic.Function.Iterate
import Linphone.Lime.Cache

/-!
# Encrypting and decrypting a message

`lime_createMultipartMessage` encrypts a message once for each endpoint of a URI, with the key of
that endpoint, and derives the key it has used.  `lime_decryptMultipartMessage` catches up with
the sender's index by as many derivations, and stores the key behind the one it has used.
-/

namespace Linphone

/-- What LIME takes from the libraries it is built on: the cryptography, base 64, and the text of
an XML document. -/
structure LimeLib where
  sha256Hmac : Vector UInt8 32 → List UInt8 → Vector UInt8 32
  /-- `gcm_crypt_and_tag` of key, initialization vector, authenticated data and plaintext. -/
  gcmCryptAndTag : List UInt8 → List UInt8 → List UInt8 → List UInt8 → List UInt8 × Vector UInt8 16
  /-- `gcm_auth_decrypt` of key, initialization vector, authenticated data, tag and ciphertext. -/
  gcmAuthDecrypt : List UInt8 → List UInt8 → List UInt8 → List UInt8 → List UInt8 →
    Option (List UInt8)
  b64Encode : List UInt8 → List UInt8
  b64Decode : List UInt8 → List UInt8
  Text : Type
  xmlDocDump : XmlDoc → Text
  xmlParseDoc : Text → Option XmlDoc
  /-- The text starts with the XML declaration that `xmlDocDump` writes. -/
  hasDeclaration : Text → Bool

/-! ## Keys -/

/-- The input of a derivation: `0x00000001 || "MessageKey" || 0x00 || SessionId || SessionIndex ||
0x00000100`. -/
def derivationInput (k : LimeKey) : List UInt8 :=
  [0x00, 0x00, 0x00, 0x01] ++ "MessageKey".toUTF8.toList ++ [0x00] ++ k.sessionId.toList
    ++ (indexBytes k.sessionIndex).toList ++ [0x00, 0x00, 0x01, 0x00]

/-- The data that is authenticated with a message, from the sender's and the receiver's side. -/
def authenticatedData (senderZID receiverZID : Vector UInt8 12) (index : UInt32) : List UInt8 :=
  senderZID.toList ++ receiverZID.toList ++ (indexBytes index).toList

variable (lib : LimeLib)

/-- `lime_deriveKey`. -/
def deriveKey (k : LimeKey) : LimeKey :=
  { k with
    key := lib.sha256Hmac k.key (derivationInput k)
    sessionIndex := k.sessionIndex + 1 }

@[simp] theorem deriveKey_peerZID (k : LimeKey) : (deriveKey lib k).peerZID = k.peerZID := rfl

@[simp] theorem iterate_deriveKey_peerZID (k : LimeKey) (n : Nat) :
    ((deriveKey lib)^[n] k).peerZID = k.peerZID := by
  induction n with
  | zero => rfl
  | succ n ih => rw [Function.iterate_succ_apply', deriveKey_peerZID, ih]

theorem iterate_deriveKey_sessionIndex (k : LimeKey) (n : Nat) :
    ((deriveKey lib)^[n] k).sessionIndex = k.sessionIndex + UInt32.ofNat n := by
  induction n with
  | zero => exact (UInt32.add_zero _).symm
  | succ n ih =>
    rw [Function.iterate_succ_apply']
    change ((deriveKey lib)^[n] k).sessionIndex + 1 = _
    rw [ih, UInt32.ofNat_add, UInt32.add_assoc]
    rfl

/-- `lime_encryptMessage`: the tag and the ciphertext. -/
def encryptMessage (k : LimeKey) (plainMessage : List UInt8) (selfZID : Vector UInt8 12) :
    List UInt8 :=
  let r := lib.gcmCryptAndTag (k.key.toList.take 24) (k.key.toList.drop 24)
    (authenticatedData selfZID k.peerZID k.sessionIndex) plainMessage
  r.2.toList ++ r.1

/-- `lime_decryptMessage`. -/
def decryptMessage (k : LimeKey) (encryptedMessage : List UInt8) (selfZID : Vector UInt8 12) :
    Option (List UInt8) :=
  lib.gcmAuthDecrypt (k.key.toList.take 24) (k.key.toList.drop 24)
    (authenticatedData k.peerZID selfZID k.sessionIndex) (encryptedMessage.take 16)
    (encryptedMessage.drop 16)

/-! ## Sending -/

/-- The `msg` node for one endpoint. -/
def msgNode (message : List UInt8) (selfZid : Vector UInt8 12) (k : LimeKey) : XmlNode :=
  .element "msg"
    [.element "pzid" [.text (int8ToStr k.peerZID)],
     .element "index" [.text (indexHex k.sessionIndex)],
     .element "text" [.text (lib.b64Encode (encryptMessage lib k message selfZid))]]

/-- The document of a message. -/
def messageDoc (selfZidHex : List UInt8) (msgs : List XmlNode) : XmlDoc :=
  ⟨some (.element "doc" (.element "ZID" [.text selfZidHex] :: msgs))⟩

/-- The loop over the keys found: each one is used, derived and written back. -/
def updateKeys : List LimeKey → XmlDoc → Option XmlDoc
  | [], cacheBuffer => some cacheBuffer
  | k :: ks, cacheBuffer =>
    (setCachedKey cacheBuffer (deriveKey lib k) .sender).bind (updateKeys ks)

/-- `lime_createMultipartMessage`: the cache afterwards and the text to send. -/
def createMultipartMessage (cacheBuffer : Option XmlDoc) (message peerURI : List UInt8) :
    Lime (XmlDoc × lib.Text) :=
  match cacheBuffer with
  | none => .error .unableToEncryptMessage
  | some cache => do
    let selfZidHex ← (getSelfZid cache).mapError fun _ => .unableToEncryptMessage
    let selfZid ← .ofOption (strToUint8 12 selfZidHex)
    let keys ← .ofOption (getCachedSndKeysByURI cache peerURI)
    if keys = [] then .error .noValidKeyFoundForPeer else
      let cache' ← .ofOption (updateKeys lib keys cache)
      let doc := messageDoc selfZidHex (keys.map (msgNode lib message selfZid))
      .ok (cache', lib.xmlDocDump doc)

/-! ## Receiving -/

/-- `MAX_DERIVATION_NUMBER`. -/
def maxDerivationNumber : Nat := 100

/-- The sender's ZID in its element.  The buffer has room for 12 bytes; the length of the text is
passed as a 16 bits value. -/
def senderZid (c : XmlNode) : Option (Vector UInt8 12) :=
  c.content.bind fun s => if s.length % 2 ^ 16 / 2 = 12 then strToUint8 12 s else none

/-- The index and the encrypted message in a `msg` node with our ZID; a missing node is followed. -/
def readMsg (selfZidHex : List UInt8) (n : XmlNode) : Option (Option (UInt32 × List UInt8)) :=
  match n.children with
  | [] => none
  | pzid :: cs =>
    if pzid.content = some selfZidHex then
      match cs with
      | index :: text :: _ =>
        (index.content.bind hexIndex).bind fun i =>
          text.content.map fun b => some (i, lib.b64Decode b)
      | _ => none
    else some none

/-- The loop over the `msg` nodes; the last one with our ZID stays. -/
def readMsgs (selfZidHex : List UInt8) :
    List XmlNode → Option (UInt32 × List UInt8) → Option (Option (UInt32 × List UInt8))
  | [], found => some found
  | n :: ns, found => (readMsg lib selfZidHex n).bind fun r => readMsgs selfZidHex ns (r.or found)

/-- The loop that catches up with the index used by the sender, at most so many times. -/
def catchUp (usedSessionIndex : UInt32) : Nat → LimeKey → LimeKey
  | 0, k => k
  | n + 1, k =>
    if k.sessionIndex < usedSessionIndex then catchUp usedSessionIndex n (deriveKey lib k) else k

/-- What follows once the key and the encrypted message have been found. -/
def decryptWith (cache : XmlDoc) (selfZid : Vector UInt8 12) (associatedKey : LimeKey)
    (usedSessionIndex : UInt32) (encryptedMessage : List UInt8) : Lime (XmlDoc × List UInt8) :=
  if usedSessionIndex < associatedKey.sessionIndex then .error .unableToDecryptMessage
  else if maxDerivationNumber < (usedSessionIndex - associatedKey.sessionIndex).toNat then
    .error .unableToDecryptMessage
  else if encryptedMessage.length < 16 then .undefined
  else
    let k := catchUp lib usedSessionIndex maxDerivationNumber associatedKey
    match decryptMessage lib k encryptedMessage selfZid with
    | none => .error .unableToDecryptMessage
    | some plain => do
      let cache' ← .ofOption (setCachedKey cache (deriveKey lib k) .receiver)
      .ok (cache', plain)

/-- `lime_decryptMultipartMessage`: the cache afterwards and the plaintext. -/
def decryptMultipartMessage (cacheBuffer : Option XmlDoc) (message : lib.Text) :
    Lime (XmlDoc × List UInt8) :=
  match cacheBuffer with
  | none => .error .invalidCache
  | some cache => do
    let selfZidHex ← (getSelfZid cache).mapError fun _ => .unableToDecryptMessage
    let selfZid ← .ofOption (strToUint8 12 selfZidHex)
    if lib.hasDeclaration message = false then .error .invalidEncryptedMessage else
    match lib.xmlParseDoc message with
    | none => .error .invalidEncryptedMessage
    | some ⟨none⟩ => .error .unableToDecryptMessage
    | some ⟨some root⟩ =>
      match root.children with
      | [] => .undefined
      | c :: cs =>
        if c.name = "ZID" then do
          let peerZID ← .ofOption (senderZid c)
          let associatedKey ← getCachedRcvKeyByZid cache peerZID
          let found ← .ofOption (readMsgs lib selfZidHex cs none)
          match found with
          | none => .error .unableToDecryptMessage
          | some (usedSessionIndex, encryptedMessage) =>
            decryptWith lib cache selfZid associatedKey usedSessionIndex encryptedMessage
        else .error .unableToDecryptMessage

end Linphone

import Linphone.Lib.Outcome
import Linphone.Lime.Xml

/-!
# The keys of the ZRTP cache

The cache holds one `peer` element for each known endpoint.  `lime_getCachedSndKeysByURI` scans the
children of a peer in any order and reads its ZID in either letter case;
`lime_getCachedRcvKeyByZid` and `lime_setCachedKey` expect the ZID first and in lower case.  Where
the two agree on a peer, what is written back is what the next lookup reads.
-/

namespace Linphone

/-- `limeKey_t`. -/
@[ext]
structure LimeKey where
  key : Vector UInt8 32
  sessionId : Vector UInt8 32
  sessionIndex : UInt32
  peerZID : Vector UInt8 12
deriving DecidableEq

/-- The error codes of `lime.h` that these functions return. -/
inductive LimeError where
  | invalidCache
  | unableToEncryptMessage
  | unableToDecryptMessage
  | noValidKeyFoundForPeer
  | invalidEncryptedMessage
deriving DecidableEq

/-- A call of a LIME function. -/
abbrev Lime := Outcome LimeError

/-- `LIME_SENDER` and `LIME_RECEIVER`. -/
inductive Role where
  | sender
  | receiver
deriving DecidableEq

/-- What a child of a peer can hold for a lookup. -/
inductive Item where
  | zid
  | key
  | sessionId
  | sessionIndex
  | pvs
deriving DecidableEq

/-- The item under an element name.  Only the sender's lookup reads the ZID as an item. -/
def Role.item : Role → String → Option Item
  | .sender, s =>
    if s = "ZID" then some .zid
    else if s = "sndKey" then some .key
    else if s = "sndSId" then some .sessionId
    else if s = "sndIndex" then some .sessionIndex
    else if s = "pvs" then some .pvs
    else none
  | .receiver, s =>
    if s = "rcvKey" then some .key
    else if s = "rcvSId" then some .sessionId
    else if s = "rcvIndex" then some .sessionIndex
    else if s = "pvs" then some .pvs
    else none

/-- The number of items after which a lookup stops, and which it wants. -/
def Role.items : Role → Nat
  | .sender => 5
  | .receiver => 4

/-! ## Lookups -/

/-- What has been read of a peer so far.  A field that no item has set is indeterminate. -/
structure PeerItems where
  peerZID : Option (Vector UInt8 12)
  key : Option (Vector UInt8 32)
  sessionId : Option (Vector UInt8 32)
  sessionIndex : Option UInt32
  pvs : UInt8
  itemFound : Nat

/-- The start of a lookup. -/
def PeerItems.empty : PeerItems := ⟨none, none, none, none, 0, 0⟩

/-- The bytes written in a child; an absent or a short text is read out of bounds. -/
def XmlNode.hex (n : Nat) (c : XmlNode) : Option (Vector UInt8 n) :=
  c.content.bind (strToUint8 n)

/-- One item is read from a child. -/
def Item.read (i : Item) (c : XmlNode) (f : PeerItems) : Option PeerItems :=
  match i with
  | .zid => (c.hex 12).map fun v => { f with peerZID := some v, itemFound := f.itemFound + 1 }
  | .key => (c.hex 32).map fun v => { f with key := some v, itemFound := f.itemFound + 1 }
  | .sessionId => (c.hex 32).map fun v =>
      { f with sessionId := some v, itemFound := f.itemFound + 1 }
  | .sessionIndex => (c.hex 4).map fun v =>
      { f with sessionIndex := some (bytesIndex v), itemFound := f.itemFound + 1 }
  | .pvs => (c.hex 1).map fun v => { f with pvs := v[0], itemFound := f.itemFound + 1 }

/-- The body of the loop over the children of a peer. -/
def readChild (role : Role) (c : XmlNode) (f : PeerItems) : Option PeerItems :=
  match role.item c.name with
  | some i => i.read c f
  | none => some f

/-- The loop over the children of a peer, which ends at the last item wanted. -/
def readItems (role : Role) : List XmlNode → PeerItems → Option PeerItems
  | [], f => some f
  | c :: cs, f =>
    if f.itemFound < role.items then (readChild role c f).bind (readItems role cs) else some f

/-- The key of a peer; a field that was never set is undefined. -/
def PeerItems.toKey (f : PeerItems) (zid : Option (Vector UInt8 12)) : Option LimeKey :=
  f.key.bind fun key => f.sessionId.bind fun sessionId => f.sessionIndex.bind fun sessionIndex =>
    zid.map fun peerZID => { key, sessionId, sessionIndex, peerZID }

/-- All the items were found and the SAS was verified. -/
def PeerItems.Valid (role : Role) (f : PeerItems) : Prop :=
  f.itemFound = role.items ∧ f.pvs = 1

instance (role : Role) (f : PeerItems) : Decidable (f.Valid role) :=
  inferInstanceAs (Decidable (_ ∧ _))

/-- The sender's key in the children of a peer: undefined, refused or found. -/
def sndKey (cs : List XmlNode) : Option (Option LimeKey) :=
  (readItems .sender cs .empty).bind fun f =>
    if f.Valid .sender then (f.toKey f.peerZID).map some else some none

/-- Whether the peer has the requested URI. -/
def hasUri (peerURI : List UInt8) (cs : List XmlNode) : Bool :=
  cs.any fun c => c.name = "uri" ∧ c.content = some peerURI

/-- The key that the lookup takes from a node of the cache. -/
def peerSndKey (peerURI : List UInt8) (n : XmlNode) : Option (Option LimeKey) :=
  if n.name = "peer" ∧ hasUri peerURI n.children then sndKey n.children else some none

/-- The loop over the nodes of the cache. -/
def sndKeys (peerURI : List UInt8) : List XmlNode → Option (List LimeKey)
  | [] => some []
  | n :: ns =>
    (peerSndKey peerURI n).bind fun k => (sndKeys peerURI ns).map fun ks => k.toList ++ ks

/-- `lime_getCachedSndKeysByURI`.  The array of keys has a 16 bits length. -/
def getCachedSndKeysByURI (cacheBuffer : XmlDoc) (peerURI : List UInt8) : Option (List LimeKey) :=
  (sndKeys peerURI cacheBuffer.nodes).filter fun ks => ks.length < 2 ^ 16

/-- The receiver's key in the children of a peer, the first one left out. -/
def rcvKey (peerZID : Vector UInt8 12) (cs : List XmlNode) : Lime LimeKey := do
  let f ← .ofOption (readItems .receiver cs .empty)
  if f.Valid .receiver then .ofOption (f.toKey (some peerZID)) else .error .noValidKeyFoundForPeer

/-- The loop of `lime_getCachedRcvKeyByZid`: the first peer with the ZID decides. -/
def rcvKeyByZid (peerZID : Vector UInt8 12) : List XmlNode → Lime LimeKey
  | [] => .error .noValidKeyFoundForPeer
  | n :: ns =>
    if n.name = "peer" then
      match n.children with
      | [] => .undefined
      | c :: cs =>
        if c.content = some (int8ToStr peerZID) then rcvKey peerZID cs else rcvKeyByZid peerZID ns
    else rcvKeyByZid peerZID ns

/-- `lime_getCachedRcvKeyByZid`. -/
def getCachedRcvKeyByZid (cacheBuffer : XmlDoc) (peerZID : Vector UInt8 12) : Lime LimeKey :=
  rcvKeyByZid peerZID cacheBuffer.nodes

/-- `lime_getSelfZid`: 24 characters of the first `selfZID`. -/
def getSelfZid (cacheBuffer : XmlDoc) : Lime (List UInt8) :=
  match cacheBuffer.nodes.find? fun n => n.name = "selfZID" with
  | none => .error .invalidCache
  | some c => do
    let s ← .ofOption c.content
    if 24 ≤ s.length + 1 then .ok (s.take 24) else .undefined

/-! ## Writing back -/

/-- The new text of an item. -/
def LimeKey.itemText (k : LimeKey) : Item → Option (List UInt8)
  | .key => some (int8ToStr k.key)
  | .sessionId => some (int8ToStr k.sessionId)
  | .sessionIndex => some (indexHex k.sessionIndex)
  | .zid | .pvs => none

/-- The new text of a child. -/
def LimeKey.childText (k : LimeKey) (role : Role) (c : XmlNode) : Option (List UInt8) :=
  (role.item c.name).bind k.itemText

/-- The loop over the children of a peer, with the count of the items written so far. -/
def writeItems (role : Role) (k : LimeKey) : List XmlNode → Nat → List XmlNode × Nat
  | [], itemFound => ([], itemFound)
  | c :: cs, itemFound =>
    if itemFound < 3 then
      match k.childText role c with
      | some s =>
        let r := writeItems role k cs (itemFound + 1)
        (c.setContent s :: r.1, r.2)
      | none =>
        let r := writeItems role k cs itemFound
        (c :: r.1, r.2)
    else (c :: cs, itemFound)

/-- The loop over the nodes of the cache.  It goes on behind a peer with the ZID until three items
have been written. -/
def writePeers (role : Role) (k : LimeKey) : List XmlNode → Nat → Option (List XmlNode)
  | [], _ => some []
  | n :: ns, itemFound =>
    if itemFound < 3 then
      if n.name = "peer" then
        match n.children with
        | [] => none
        | c :: cs =>
          if c.content = some (int8ToStr k.peerZID) then
            let r := writeItems role k cs itemFound
            (writePeers role k ns r.2).map (XmlNode.element "peer" (c :: r.1) :: ·)
          else (writePeers role k ns itemFound).map (n :: ·)
      else (writePeers role k ns itemFound).map (n :: ·)
    else some (n :: ns)

/-- `lime_setCachedKey`.  It returns 0 whatever it has written. -/
def setCachedKey (cacheBuffer : XmlDoc) (k : LimeKey) (role : Role) : Option XmlDoc :=
  (writePeers role k cacheBuffer.nodes 0).map cacheBuffer.setNodes

/-! ## Reading back what was written -/

variable {role : Role} {k : LimeKey} {c : XmlNode} {cs : List XmlNode} {f f' g : PeerItems}
  {found : Nat}

/-- The items that are written back. -/
def Item.Written (i : Item) : Prop := i = .key ∨ i = .sessionId ∨ i = .sessionIndex

/-- A child that a write-back may change. -/
def Role.Writes (role : Role) (name : String) : Prop := ∃ i, role.item name = some i ∧ i.Written

theorem itemText_isSome {i : Item} : (k.itemText i).isSome ↔ i.Written := by
  cases i <;> simp [LimeKey.itemText, Item.Written]

theorem childText_none (h : ¬ role.Writes c.name) : k.childText role c = none := by
  rw [LimeKey.childText, Option.bind_eq_none_iff]
  intro i hi
  by_contra hn
  exact h ⟨i, hi, itemText_isSome.mp (Option.isSome_iff_ne_none.mpr hn)⟩

/-- The items read so far. -/
def PeerItems.recorded (role : Role) (f : PeerItems) : Nat :=
  (if role = .sender then f.peerZID.isSome.toNat else 0) + f.key.isSome.toNat
    + f.sessionId.isSome.toNat + f.sessionIndex.isSome.toNat + (if f.pvs = 0 then 0 else 1)

/-- The items read so far that a write-back changes. -/
def PeerItems.writable (f : PeerItems) : Nat :=
  f.key.isSome.toNat + f.sessionId.isSome.toNat + f.sessionIndex.isSome.toNat

/-- What would have been read after a write-back. -/
def PeerItems.rewrite (f : PeerItems) (k : LimeKey) : PeerItems :=
  { f with
    key := f.key.map fun _ => k.key
    sessionId := f.sessionId.map fun _ => k.sessionId
    sessionIndex := f.sessionIndex.map fun _ => k.sessionIndex }

theorem Role.item_text (role : Role) : role.item "text" = none := by
  cases role <;> rfl

theorem Item.read_spec (role : Role) {i : Item} (h : i.read c f = some f') :
    f'.itemFound = f.itemFound + 1 ∧ f'.recorded role ≤ f.recorded role + 1 := by
  cases i <;>
  · simp only [Item.read, Option.map_eq_some_iff] at h
    obtain ⟨v, -, rfl⟩ := h
    refine ⟨rfl, ?_⟩
    simp only [PeerItems.recorded, Option.isSome_some, Bool.toNat_true]
    split_ifs <;> omega

/-- No item was read twice. -/
def PeerItems.Tight (role : Role) (f : PeerItems) : Prop := f.itemFound ≤ f.recorded role

/-- No item was missed. -/
def PeerItems.Counted (role : Role) (f : PeerItems) : Prop := f.recorded role ≤ f.itemFound

theorem readChild_counted (h : readChild role c f = some f') (hf : f.Counted role) :
    f'.Counted role ∧ (f'.Tight role → f.Tight role) := by
  rw [readChild] at h
  cases hi : role.item c.name with
  | none =>
    rw [hi] at h
    cases h
    exact ⟨hf, id⟩
  | some i =>
    rw [hi] at h
    obtain ⟨count, recorded⟩ := Item.read_spec role h
    simp only [PeerItems.Counted, PeerItems.Tight] at hf ⊢
    omega

theorem readItems_counted (h : readItems role cs f = some g) (hf : f.Counted role) :
    g.Counted role ∧ (g.Tight role → f.Tight role) := by
  induction cs generalizing f with
  | nil =>
    cases h
    exact ⟨hf, id⟩
  | cons c cs ih =>
    rw [readItems] at h
    split_ifs at h with limit
    · obtain ⟨f', first, rest⟩ := Option.bind_eq_some_iff.mp h
      obtain ⟨hf', back⟩ := readChild_counted first hf
      obtain ⟨hg, back'⟩ := ih rest hf'
      exact ⟨hg, fun tight => back (back' tight)⟩
    · cases h
      exact ⟨hf, id⟩

theorem Item.read_writable {i : Item} (h : i.read c f = some f') (hf : f.Counted role)
    (tight : f'.Tight role) (hi : i.Written) : f'.writable = f.writable + 1 := by
  rcases hi with rfl | rfl | rfl
  all_goals
    simp only [Item.read, Option.map_eq_some_iff] at h
    obtain ⟨v, -, rfl⟩ := h
    simp only [PeerItems.Tight, PeerItems.Counted, PeerItems.recorded, PeerItems.writable,
      Option.isSome_some, Bool.toNat_true] at hf tight ⊢
    omega

theorem Item.read_writable_of_not {i : Item} (h : i.read c f = some f') (hi : ¬ i.Written) :
    f'.writable = f.writable := by
  cases i with
  | zid | pvs =>
    simp only [Item.read, Option.map_eq_some_iff] at h
    obtain ⟨v, -, rfl⟩ := h
    rfl
  | key => exact absurd (.inl rfl) hi
  | sessionId => exact absurd (.inr (.inl rfl)) hi
  | sessionIndex => exact absurd (.inr (.inr rfl)) hi

theorem writable_le (f : PeerItems) : f.writable ≤ 3 := by
  have h1 := Bool.toNat_le f.key.isSome
  have h2 := Bool.toNat_le f.sessionId.isSome
  have h3 := Bool.toNat_le f.sessionIndex.isSome
  rw [PeerItems.writable]
  omega

/-- At the last item wanted, all that a write-back changes has been read. -/
theorem writable_of_limit (tight : f.Tight role) (limit : ¬ f.itemFound < role.items) :
    f.writable = 3 := by
  have h1 := writable_le f
  have h2 := Bool.toNat_le f.peerZID.isSome
  simp only [PeerItems.Tight, PeerItems.recorded] at tight
  simp only [PeerItems.writable] at h1 ⊢
  cases role with
  | sender =>
    simp only [Role.items] at limit
    split_ifs at tight <;> omega
  | receiver =>
    simp only [Role.items, reduceCtorEq, if_false] at limit tight
    split_ifs at tight <;> omega

theorem XmlNode.hex_setContent {n : Nat} {s : List UInt8} (h : c.name ≠ "text") :
    (c.setContent s).hex n = strToUint8 n s := by
  rw [XmlNode.hex, XmlNode.content_setContent h, Option.bind_some]

/-- An item that was written is read as written. -/
theorem Item.read_setContent {i : Item} {s : List UInt8} (h : i.read c f = some f')
    (hs : k.itemText i = some s) (hc : c.name ≠ "text") :
    i.read (c.setContent s) (f.rewrite k) = some (f'.rewrite k) := by
  cases i with
  | zid | pvs => cases hs
  | key | sessionId =>
    cases hs
    simp only [Item.read, Option.map_eq_some_iff] at h
    obtain ⟨v, -, rfl⟩ := h
    simp only [Item.read, XmlNode.hex_setContent hc, strToUint8_int8ToStr, Option.map_some]
    rfl
  | sessionIndex =>
    cases hs
    simp only [Item.read, Option.map_eq_some_iff] at h
    obtain ⟨v, -, rfl⟩ := h
    simp only [Item.read, XmlNode.hex_setContent hc, indexHex_eq, strToUint8_int8ToStr,
      Option.map_some, bytesIndex_indexBytes]
    rfl

/-- An item that is not written is read as before. -/
theorem Item.read_rewrite {i : Item} (k : LimeKey) (h : i.read c f = some f') (hi : ¬ i.Written) :
    i.read c (f.rewrite k) = some (f'.rewrite k) := by
  cases i with
  | zid | pvs =>
    simp only [Item.read, Option.map_eq_some_iff] at h ⊢
    obtain ⟨v, hv, rfl⟩ := h
    exact ⟨v, hv, rfl⟩
  | key => exact absurd (.inl rfl) hi
  | sessionId => exact absurd (.inr (.inl rfl)) hi
  | sessionIndex => exact absurd (.inr (.inr rfl)) hi

theorem writeItems_done (h : ¬ found < 3) : writeItems role k cs found = (cs, found) := by
  cases cs with
  | nil => rfl
  | cons c cs => rw [writeItems, if_neg h]

theorem writeItems_skip (h : k.childText role c = none) :
    writeItems role k (c :: cs) found
      = (c :: (writeItems role k cs found).1, (writeItems role k cs found).2) := by
  by_cases limit : found < 3
  · rw [writeItems, if_pos limit, h]
  · rw [writeItems_done limit, writeItems_done limit]

theorem writeItems_write {s : List UInt8} (limit : found < 3) (h : k.childText role c = some s) :
    writeItems role k (c :: cs) found
      = (c.setContent s :: (writeItems role k cs (found + 1)).1,
          (writeItems role k cs (found + 1)).2) := by
  rw [writeItems, if_pos limit, h]

theorem readItems_more (limit : f.itemFound < role.items) (first : readChild role c f = some f')
    (rest : readItems role cs f' = some g) : readItems role (c :: cs) f = some g := by
  rw [readItems, if_pos limit, first, Option.bind_some, rest]

/-- **A lookup that reads no item twice reads, after a write-back, what was written.** -/
theorem readItems_writeItems (k : LimeKey) (h : readItems role cs f = some g) (hf : f.Counted role)
    (tight : g.Tight role) :
    readItems role (writeItems role k cs f.writable).1 (f.rewrite k) = some (g.rewrite k) ∧
      (writeItems role k cs f.writable).2 = g.writable := by
  induction cs generalizing f with
  | nil =>
    cases h
    exact ⟨rfl, rfl⟩
  | cons c cs ih =>
    rw [readItems] at h
    split_ifs at h with limit
    · obtain ⟨f', first, rest⟩ := Option.bind_eq_some_iff.mp h
      have hf' := (readChild_counted first hf).1
      have tight' := (readItems_counted rest hf').2 tight
      have ih := ih rest hf'
      rw [readChild] at first
      cases hi : role.item c.name with
      | none =>
        rw [hi] at first
        cases first
        have skip : k.childText role c = none := by rw [LimeKey.childText, hi]; rfl
        rw [writeItems_skip skip]
        refine ⟨readItems_more limit ?_ ih.1, ih.2⟩
        rw [readChild, hi]
      | some i =>
        rw [hi] at first
        by_cases written : i.Written
        · obtain ⟨s, hs⟩ := Option.isSome_iff_exists.mp (itemText_isSome (k := k).mpr written)
          have text : k.childText role c = some s :=
            by rw [LimeKey.childText, hi, Option.bind_some, hs]
          have more := Item.read_writable first hf tight' written
          have room : f.writable < 3 := by
            have := writable_le f'
            omega
          have named : c.name ≠ "text" := by
            intro hc
            rw [hc, Role.item_text] at hi
            cases hi
          rw [writeItems_write room text, ← more]
          refine ⟨readItems_more limit ?_ ih.1, ih.2⟩
          rw [readChild, XmlNode.name_setContent, hi]
          exact Item.read_setContent first hs named
        · have skip : k.childText role c = none := by
            refine childText_none fun ⟨j, hj, hw⟩ => written ?_
            rw [hi] at hj
            cases hj
            exact hw
          rw [writeItems_skip skip, ← Item.read_writable_of_not first written]
          refine ⟨readItems_more limit ?_ ih.1, ih.2⟩
          rw [readChild, hi]
          exact Item.read_rewrite k first written
    · cases h
      -- the lookup ended here: all the items were found before
      have done : ¬ g.writable < 3 := by rw [writable_of_limit tight limit]; decide
      rw [writeItems_done done]
      exact ⟨if_neg limit, rfl⟩

theorem toKey_eq_some {zid : Option (Vector UInt8 12)} :
    f.toKey zid = some k ↔ f.key = some k.key ∧ f.sessionId = some k.sessionId ∧
      f.sessionIndex = some k.sessionIndex ∧ zid = some k.peerZID := by
  rcases f with ⟨_, _ | _, _ | _, _ | _, _, _⟩ <;> rcases zid with _ | _ <;>
    simp [PeerItems.toKey, LimeKey.ext_iff]

theorem tight_of_valid {zid : Option (Vector UInt8 12)} (valid : f.Valid role)
    (h : f.toKey zid = some k) (hz : role = .sender → zid = f.peerZID) : f.Tight role := by
  obtain ⟨hk, hs, hi, hzid⟩ := toKey_eq_some.mp h
  obtain ⟨count, pvs⟩ := valid
  have verified : f.pvs ≠ 0 := by
    rw [pvs]
    decide
  rw [PeerItems.Tight, count, PeerItems.recorded, hk, hs, hi, if_neg verified]
  cases role with
  | sender =>
    rw [← hz rfl, hzid]
    exact le_refl _
  | receiver => exact le_refl _

theorem writable_of_toKey {zid : Option (Vector UInt8 12)} (h : f.toKey zid = some k) :
    f.writable = 3 := by
  obtain ⟨hk, hs, hi, -⟩ := toKey_eq_some.mp h
  rw [PeerItems.writable, hk, hs, hi]
  rfl

theorem toKey_rewrite {zid : Option (Vector UInt8 12)} {k k' : LimeKey} (h : f.toKey zid = some k)
    (hz : k'.peerZID = k.peerZID) : (f.rewrite k').toKey zid = some k' := by
  obtain ⟨hk, hs, hi, hzid⟩ := toKey_eq_some.mp h
  refine toKey_eq_some.mpr ⟨?_, ?_, ?_, by rw [hzid, hz]⟩
  · rw [PeerItems.rewrite, hk, Option.map_some]
  · rw [PeerItems.rewrite, hs, Option.map_some]
  · rw [PeerItems.rewrite, hi, Option.map_some]

theorem counted_empty (role : Role) : PeerItems.empty.Counted role := by
  cases role <;> exact Nat.zero_le _

/-- **The sender's lookup of a peer reads the key that was written into its later children.** -/
theorem sndKey_writeItems {k k' : LimeKey} (h : sndKey (c :: cs) = some (some k))
    (hc : ¬ Role.sender.Writes c.name) (hz : k'.peerZID = k.peerZID) :
    sndKey (c :: (writeItems .sender k' cs 0).1) = some (some k') ∧
      (writeItems .sender k' cs 0).2 = 3 := by
  obtain ⟨g, read, h⟩ := Option.bind_eq_some_iff.mp h
  split_ifs at h with valid
  · obtain ⟨k₀, key, same⟩ := Option.map_eq_some_iff.mp h
    obtain rfl := Option.some.inj same
    have tight := tight_of_valid valid key fun _ => rfl
    obtain ⟨f, first, rest⟩ := Option.bind_eq_some_iff.mp read
    have start : f.writable = 0 ∧ f.rewrite k' = f := by
      rw [readChild] at first
      cases hi : Role.sender.item c.name with
      | none =>
        rw [hi] at first
        cases first
        exact ⟨rfl, rfl⟩
      | some i =>
        rw [hi] at first
        have unwritten : ¬ i.Written := fun hw => hc ⟨i, hi, hw⟩
        refine ⟨Item.read_writable_of_not first unwritten, ?_⟩
        have again := Item.read_rewrite k' first unwritten
        exact (Option.some.inj (first.symm.trans again)).symm
    have counted := (readChild_counted first (counted_empty _)).1
    have back := readItems_writeItems k' rest counted tight
    rw [start.1, start.2] at back
    refine ⟨?_, back.2.trans (writable_of_toKey key)⟩
    have reread := readItems_more (by decide) first back.1
    rw [sndKey, reread, Option.bind_some, if_pos (show (g.rewrite k').Valid .sender from valid)]
    exact congrArg (Option.map some) (toKey_rewrite key hz)
  · cases h

/-- **The receiver's lookup of a peer reads the key that was written.** -/
theorem rcvKey_writeItems {zid : Vector UInt8 12} {k k' : LimeKey} (h : rcvKey zid cs = .ok k)
    (hz : k'.peerZID = zid) :
    rcvKey zid (writeItems .receiver k' cs 0).1 = .ok k' ∧
      (writeItems .receiver k' cs 0).2 = 3 := by
  obtain ⟨g, read, h⟩ := Outcome.bind_eq_ok.mp h
  rw [Outcome.ofOption_eq_ok] at read
  split_ifs at h with valid
  have key := Outcome.ofOption_eq_ok.mp h
  have tight := tight_of_valid valid key (nofun)
  have back := readItems_writeItems k' read (counted_empty _) tight
  refine ⟨?_, back.2.trans (writable_of_toKey key)⟩
  have reread : readItems .receiver (writeItems .receiver k' cs 0).1 .empty = some (g.rewrite k') :=
    back.1
  have zids : k'.peerZID = k.peerZID := hz.trans (Option.some.inj (toKey_eq_some.mp key).2.2.2)
  rw [rcvKey, reread, Outcome.ofOption_some, Outcome.ok_bind,
    if_pos (show (g.rewrite k').Valid .receiver from valid), toKey_rewrite key zids,
    Outcome.ofOption_some]

/-! ## The peer that a write-back finds -/

/-- A peer whose first child is the ZID in the letter case of `lime_int8ToStr`. -/
def Target (zid : Vector UInt8 12) (n : XmlNode) : Prop :=
  n.name = "peer" ∧ n.children.head?.bind XmlNode.content = some (int8ToStr zid)

/-- A peer on which a write-back for the ZID would write. -/
def Absorbs (role : Role) (zid : Vector UInt8 12) (n : XmlNode) : Prop :=
  Target zid n ∧ ∃ x ∈ n.children.tail, role.Writes x.name

/-- A write-back for the ZID passes over the nodes `pre` and finds the peer `n`, with no item to
write in the place of the ZID. -/
structure Finds (role : Role) (zid : Vector UInt8 12) (pre : List XmlNode) (n : XmlNode) :
    Prop where
  target : Target zid n
  zidFirst : ∀ c ∈ n.children.head?, ¬ role.Writes c.name
  first : ∀ m ∈ pre, ¬ Absorbs role zid m

/-- What a write-back never changes of a node. -/
structure SameShape (n n' : XmlNode) : Prop where
  name : n'.name = n.name
  head : n'.children.head? = n.children.head?
  tail : n'.children.tail.map XmlNode.name = n.children.tail.map XmlNode.name
  other : n.name ≠ "peer" → n' = n

theorem SameShape.refl (n : XmlNode) : SameShape n n := ⟨rfl, rfl, rfl, fun _ => rfl⟩

theorem SameShape.trans {n₁ n₂ n₃ : XmlNode} (h : SameShape n₁ n₂) (h' : SameShape n₂ n₃) :
    SameShape n₁ n₃ :=
  ⟨h'.name.trans h.name, h'.head.trans h.head, h'.tail.trans h.tail,
    fun hn => (h'.other (h.name ▸ hn)).trans (h.other hn)⟩

theorem SameShape.target {zid : Vector UInt8 12} {n n' : XmlNode} (h : SameShape n n') :
    Target zid n' ↔ Target zid n := by
  rw [Target, Target, h.name, h.head]

theorem SameShape.absorbs {zid : Vector UInt8 12} {n n' : XmlNode} (h : SameShape n n') :
    Absorbs role zid n' ↔ Absorbs role zid n := by
  have names (m : XmlNode) : (∃ x ∈ m.children.tail, role.Writes x.name) ↔
      ∃ s ∈ m.children.tail.map XmlNode.name, role.Writes s := by
    simp only [List.mem_map, exists_exists_and_eq_and]
  rw [Absorbs, Absorbs, h.target, names n', names n, h.tail]

theorem Target.unique {z z' : Vector UInt8 12} {n : XmlNode} (h : Target z n) (h' : Target z' n) :
    z = z' :=
  int8ToStr_inj (Option.some.inj (h.2.symm.trans h'.2))

theorem eq_peer {n : XmlNode} (hn : n.name = "peer") (hc : n.children = cs) :
    n = .element "peer" cs := by
  cases n with
  | text s => exact absurd hn (show "text" ≠ "peer" by decide)
  | element name children =>
    cases hn
    cases hc
    rfl

theorem map_name_writeItems (role : Role) (k : LimeKey) (cs : List XmlNode) (found : Nat) :
    (writeItems role k cs found).1.map XmlNode.name = cs.map XmlNode.name := by
  induction cs generalizing found with
  | nil => rfl
  | cons c cs ih =>
    by_cases limit : found < 3
    · cases text : k.childText role c with
      | none => rw [writeItems_skip text, List.map_cons, List.map_cons, ih]
      | some s =>
        rw [writeItems_write limit text, List.map_cons, List.map_cons, ih, XmlNode.name_setContent]
    · rw [writeItems_done limit]

theorem writeItems_none (h : ¬ ∃ x ∈ cs, role.Writes x.name) :
    writeItems role k cs found = (cs, found) := by
  induction cs with
  | nil => rfl
  | cons c cs ih =>
    have skip : k.childText role c = none := childText_none fun hw => h ⟨c, .head cs, hw⟩
    rw [writeItems_skip skip, ih fun ⟨x, hx, hw⟩ => h ⟨x, .tail c hx, hw⟩]

/-- What one iteration over the nodes of the cache does. -/
theorem writePeers_cons {n : XmlNode} {ns ns' : List XmlNode} (limit : found < 3)
    (h : writePeers role k (n :: ns) found = some ns') :
    (¬ Target k.peerZID n ∧ ∃ rest, writePeers role k ns found = some rest ∧ ns' = n :: rest) ∨
    ∃ c cs rest, n = .element "peer" (c :: cs) ∧ Target k.peerZID n ∧
      writePeers role k ns (writeItems role k cs found).2 = some rest ∧
      ns' = .element "peer" (c :: (writeItems role k cs found).1) :: rest := by
  rw [writePeers, if_pos limit] at h
  split_ifs at h with peer
  · cases hc : n.children with
    | nil =>
      rw [hc] at h
      cases h
    | cons c cs =>
      rw [hc] at h
      have first : n.children.head?.bind XmlNode.content = c.content := by rw [hc]; rfl
      simp only at h
      split_ifs at h with zid
      · obtain ⟨rest, more, rfl⟩ := Option.map_eq_some_iff.mp h
        exact .inr ⟨c, cs, rest, eq_peer peer hc, ⟨peer, first.trans zid⟩, more, rfl⟩
      · obtain ⟨rest, more, rfl⟩ := Option.map_eq_some_iff.mp h
        exact .inl ⟨fun t => zid (first.symm.trans t.2), rest, more, rfl⟩
  · obtain ⟨rest, more, rfl⟩ := Option.map_eq_some_iff.mp h
    exact .inl ⟨fun t => peer t.1, rest, more, rfl⟩

theorem writePeers_done {ns : List XmlNode} (limit : ¬ found < 3) :
    writePeers role k ns found = some ns := by
  cases ns with
  | nil => rfl
  | cons n ns => rw [writePeers, if_neg limit]

/-- **A write-back keeps the shape of the cache, and changes only peers with its ZID first.** -/
theorem writePeers_frame {ns ns' : List XmlNode} (h : writePeers role k ns found = some ns') :
    List.Forall₂ (fun n n' => SameShape n n' ∧ (¬ Target k.peerZID n → n' = n)) ns ns' := by
  induction ns generalizing found ns' with
  | nil =>
    cases h
    exact .nil
  | cons n ns ih =>
    by_cases limit : found < 3
    · rcases writePeers_cons limit h with ⟨-, rest, more, rfl⟩ |
        ⟨c, cs, rest, rfl, target, more, rfl⟩
      · exact .cons ⟨.refl n, fun _ => rfl⟩ (ih more)
      · refine .cons ⟨⟨rfl, rfl, map_name_writeItems role k cs found, ?_⟩, fun ht => ?_⟩ (ih more)
        · exact fun hn => absurd rfl hn
        · exact absurd target ht
    · rw [writePeers_done limit] at h
      cases h
      exact List.forall₂_same.mpr fun n _ => ⟨.refl n, fun _ => rfl⟩

/-- **A write-back that finds a peer with all the items writes there and nowhere else.** -/
theorem writePeers_finds {pre post ns' : List XmlNode}
    (finds : Finds role k.peerZID pre (.element "peer" (c :: cs)))
    (all : (writeItems role k cs 0).2 = 3)
    (h : writePeers role k (pre ++ .element "peer" (c :: cs) :: post) 0 = some ns') :
    ns' = pre ++ .element "peer" (c :: (writeItems role k cs 0).1) :: post := by
  obtain ⟨target, -, first⟩ := finds
  induction pre generalizing ns' with
  | nil =>
    rcases writePeers_cons (by decide) h with ⟨ht, -⟩ | ⟨c', cs', rest, same, -, more, rfl⟩
    · exact absurd target ht
    · cases same
      rw [all, writePeers_done (by decide)] at more
      cases more
      rfl
  | cons m pre ih =>
    have later : ∀ m ∈ pre, ¬ Absorbs role k.peerZID m := fun m hm => first m (.tail _ hm)
    rcases writePeers_cons (by decide) h with ⟨-, rest, more, rfl⟩ |
        ⟨c', cs', rest, rfl, t, more, rfl⟩
    · rw [ih more later, List.cons_append]
    · have idle : writeItems role k cs' 0 = (cs', 0) :=
        writeItems_none fun hw => first _ (.head pre) ⟨t, hw⟩
      rw [idle] at more ⊢
      rw [ih more later, List.cons_append]

/-- **After a write-back the receiver's lookup returns the key that was written**, and such a
write-back is always defined. -/
theorem rcvKeyByZid_writePeers {zid : Vector UInt8 12} {ns : List XmlNode} {k k' : LimeKey}
    (h : rcvKeyByZid zid ns = .ok k) (hz : k'.peerZID = zid) :
    ∃ ns', writePeers .receiver k' ns 0 = some ns' ∧ rcvKeyByZid zid ns' = .ok k' := by
  induction ns with
  | nil => cases h
  | cons n ns ih =>
    rw [rcvKeyByZid] at h
    split_ifs at h with peer
    · cases hc : n.children with
      | nil =>
        rw [hc] at h
        cases h
      | cons c cs =>
        rw [hc] at h
        simp only at h
        split_ifs at h with first
        · obtain ⟨reread, all⟩ := rcvKey_writeItems h hz
          refine ⟨.element "peer" (c :: (writeItems .receiver k' cs 0).1) :: ns, ?_, ?_⟩
          · rw [writePeers, if_pos (by decide), if_pos peer, hc]
            simp only
            rw [hz, if_pos first, all, writePeers_done (by decide), Option.map_some]
          · exact (if_pos rfl).trans ((if_pos first).trans reread)
        · obtain ⟨ns', write, reread⟩ := ih h
          refine ⟨n :: ns', ?_, ?_⟩
          · rw [writePeers, if_pos (by decide), if_pos peer, hc]
            simp only
            rw [hz, if_neg first, write, Option.map_some]
          · rw [rcvKeyByZid, if_pos peer, hc]
            exact (if_neg first).trans reread
    · obtain ⟨ns', write, reread⟩ := ih h
      refine ⟨n :: ns', ?_, ?_⟩
      · rw [writePeers, if_pos (by decide), if_neg peer, write, Option.map_some]
      · rw [rcvKeyByZid, if_neg peer, reread]

theorem writePeers_length {ns ns' : List XmlNode} (h : writePeers role k ns found = some ns') :
    ns'.length = ns.length :=
  (writePeers_frame h).length_eq.symm

theorem setCachedKey_nodes {d d' : XmlDoc} (h : setCachedKey d k role = some d') :
    writePeers role k d.nodes 0 = some d'.nodes := by
  obtain ⟨ns, write, rfl⟩ := Option.map_eq_some_iff.mp h
  rw [XmlDoc.nodes_setNodes (writePeers_length write), write]

/-- Two caches that hold the same apart from the items that are written back. -/
def SameCache (d d' : XmlDoc) : Prop := List.Forall₂ SameShape d.nodes d'.nodes

theorem SameCache.refl (d : XmlDoc) : SameCache d d := List.forall₂_same.mpr fun n _ => .refl n

theorem setCachedKey_sameCache {d d' : XmlDoc} (h : setCachedKey d k role = some d') :
    SameCache d d' :=
  (writePeers_frame (setCachedKey_nodes h)).imp fun _ _ hn => hn.1

theorem find_sameShape {ns ns' : List XmlNode} (h : List.Forall₂ SameShape ns ns') {s : String}
    (hs : s ≠ "peer") : ns'.find? (fun n => n.name = s) = ns.find? (fun n => n.name = s) := by
  induction h with
  | nil => rfl
  | @cons n n' ns ns' first _ ih =>
    by_cases hn : n.name = s
    · rw [first.other (hn ▸ hs), List.find?_cons_of_pos (by simpa using hn),
        List.find?_cons_of_pos (by simpa using hn)]
    · have hn' : n'.name ≠ s := by rwa [first.name]
      rw [List.find?_cons_of_neg (by simpa using hn'),
        List.find?_cons_of_neg (by simpa using hn), ih]

/-- **A write-back keeps the own ZID.** -/
theorem SameCache.getSelfZid {d d' : XmlDoc} (h : SameCache d d') :
    getSelfZid d' = getSelfZid d := by
  rw [Linphone.getSelfZid, Linphone.getSelfZid, find_sameShape h (by decide)]

/-- **After a write-back of a receiver's key its lookup returns what was written.** -/
theorem getCachedRcvKeyByZid_setCachedKey {d : XmlDoc} {zid : Vector UInt8 12} {k k' : LimeKey}
    (h : getCachedRcvKeyByZid d zid = .ok k) (hz : k'.peerZID = zid) :
    ∃ d', setCachedKey d k' .receiver = some d' ∧ getCachedRcvKeyByZid d' zid = .ok k' := by
  obtain ⟨ns, write, reread⟩ := rcvKeyByZid_writePeers h hz
  refine ⟨d.setNodes ns, by rw [setCachedKey, write, Option.map_some], ?_⟩
  rw [getCachedRcvKeyByZid, XmlDoc.nodes_setNodes (writePeers_length write), reread]

end Linphone

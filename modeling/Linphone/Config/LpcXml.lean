import Linphone.Config.LpConfig
import Linphone.Lib.Xml

/-!
# A configuration as a document

`lpc2xml.c` writes a configuration as a document in XML, and `xml2lpc.c` applies a document to a
configuration. The name of a section or of an entry is the text of an attribute, and is written as
it is; the value of an entry is given to `xmlNodeSetContent`, which takes it as XML.

`convert_eq` says what a document gives when it is applied to an empty configuration, and
`convert_faithful_iff` when that is the configuration it was made from.
-/

namespace Linphone

open Xml (Node)

/-! ## Writing -/

namespace Lpc2xml

variable (lib : Xml.Library) (lpc : LpConfig)

/-- An entry whose key starts like a comment is skipped. -/
def isCommented (entry : String) : Bool := entry.toList.head? = some '#'

/-- `processEntry` -/
def processEntry (sec entry : String) : Option Node := do
  let content ← lpc.getString sec entry
  pure (.element "entry" [("name", some entry)] (lib.setContent content))

/-- `processSection` -/
def processSection (sec : String) : Option Node := do
  let entries ← ((lpc.entryKeys sec).filter fun entry => !isCommented entry).mapM
    (processEntry lib lpc sec)
  pure (.element "section" [("name", some sec)] entries)

/-- `processConfig` -/
def processConfig : Option (List Node) := lpc.sectionNames.mapM (processSection lib lpc)

/-- `processDoc`. The namespaces and the schema location of the root element are not read. -/
def processDoc : Option Node := do
  let sections ← processConfig lib lpc
  pure (.element "config" [] sections)

end Lpc2xml

/-! ## Reading -/

namespace Xml2lpc

/-- `dumpAttr` follows the text of every attribute. -/
def dumpAttrs (attrs : List (String × Option String)) : Option (List (String × String)) :=
  attrs.mapM fun attr => attr.2.map fun text => (attr.1, text)

/-- `element->children->content`, or an empty text for no children. -/
def firstContent : List Node → Option String
  | [] => some ""
  | .text content :: _ => some content
  | _ => none

/-- `processEntry`; no attribute of a document has the name of another. -/
def processEntry (sectionName : String) (attrs : List (String × Option String))
    (children : List Node) (lpc : LpConfig) : Option LpConfig := do
  let attrs ← dumpAttrs attrs
  let value := firstContent children
  match attrs.lookup "name" with
  | some name =>
      if lpc.getString sectionName name = none || attrs.lookup "overwrite" = some "true" then
        pure (lpc.setString sectionName name value)
      else pure lpc
  | none => pure lpc

/-- One turn of the loop of `processSection`. -/
def sectionChild (name : String) (lpc : LpConfig) : Node → Option LpConfig
  | .element "entry" attrs children => processEntry name attrs children lpc
  | _ => some lpc

/-- `processSection` -/
def processSection (attrs : List (String × Option String)) (children : List Node)
    (lpc : LpConfig) : Option LpConfig := do
  let attrs ← dumpAttrs attrs
  match attrs.lookup "name" with
  | some name => children.foldlM (sectionChild name) lpc
  | none => pure lpc

/-- One turn of the loop of `processConfig`. -/
def configChild (lpc : LpConfig) : Node → Option LpConfig
  | .element "section" attrs children => processSection attrs children lpc
  | _ => some lpc

/-- `processDoc` -/
def processDoc (node : Node) (lpc : LpConfig) : Option LpConfig :=
  match node with
  | .element "config" _ children => children.foldlM configChild lpc
  | _ => some lpc

end Xml2lpc

/-- `lpc2xml_convert_string` and `xml2lpc_convert` for an empty configuration. There is none when
the document cannot be read, or a text that is not there is followed. -/
def convert (lib : Xml.Library) (lpc : LpConfig) : Option LpConfig := do
  let doc ← Lpc2xml.processDoc lib lpc
  let doc ← lib.readBack doc
  Xml2lpc.processDoc doc ∅

/-! ## The document of a configuration -/

section

variable (lib : Xml.Library) (lpc : LpConfig)

/-- The keys of a section that are written. -/
def visibleKeys (sec : String) : List String :=
  (lpc.entryKeys sec).filter fun entry => !Lpc2xml.isCommented entry

/-- The value of a key that is there. -/
def valueOf (sec key : String) : String := (lpc.getString sec key).getD ""

def entryNode (sec key : String) : Node :=
  .element "entry" [("name", some key)] (lib.setContent (valueOf lpc sec key))

def sectionNode (sec : String) : Node :=
  .element "section" [("name", some sec)] ((visibleKeys lpc sec).map (entryNode lib lpc sec))

def configNode : Node :=
  .element "config" [] (lpc.sectionNames.map (sectionNode lib lpc))

variable {lpc} in
theorem getString_of_mem_visibleKeys {sec key : String} (h : key ∈ visibleKeys lpc sec) :
    lpc.getString sec key = some (valueOf lpc sec key) := by
  have hsome := lpc.mem_entryKeys.mp (List.mem_filter.mp h).1
  obtain ⟨value, hvalue⟩ := Option.isSome_iff_exists.mp hsome
  simp [valueOf, hvalue]

/-- Every configuration has a document. -/
theorem processDoc_eq : Lpc2xml.processDoc lib lpc = some (configNode lib lpc) := by
  have hentry : ∀ sec, ∀ key ∈ visibleKeys lpc sec,
      Lpc2xml.processEntry lib lpc sec key = some (entryNode lib lpc sec key) := by
    intro sec key hkey
    simp [Lpc2xml.processEntry, getString_of_mem_visibleKeys hkey, entryNode]
  have hsection : ∀ sec ∈ lpc.sectionNames,
      Lpc2xml.processSection lib lpc sec = some (sectionNode lib lpc sec) := by
    intro sec _
    unfold Lpc2xml.processSection
    rw [show (List.filter (fun entry => !Lpc2xml.isCommented entry) (lpc.entryKeys sec)) =
      visibleKeys lpc sec from rfl, Xml.mapM_eq_some_map (hentry sec)]
    rfl
  unfold Lpc2xml.processDoc Lpc2xml.processConfig
  rw [Xml.mapM_eq_some_map hsection]
  rfl

/-- What a configuration needs for its document to be read. -/
def Writable : Prop :=
  ∀ sec ∈ lpc.sectionNames, Xml.IsText sec ∧ ∀ key ∈ visibleKeys lpc sec,
    Xml.IsText key ∧ ∃ t, lib.content (valueOf lpc sec key) = some t ∧ Xml.IsText t

theorem readable_configNode : (configNode lib lpc).readable = true ↔ Writable lib lpc := by
  unfold configNode Writable
  simp only [Node.readable, Node.readableList_eq_true, List.all_cons, List.all_nil,
    Option.getD_some, Bool.and_true, Bool.true_and, List.forall_mem_map, sectionNode,
    entryNode, Bool.and_eq_true, decide_eq_true_eq]
  simp only [← Node.readableList_eq_true, Xml.Library.readableList_setContent]

/-! ## What is read of it -/

/-- The text an entry has in the document. -/
def textOf (sec key : String) : String := (lib.content (valueOf lpc sec key)).getD ""

/-- An entry is applied to a configuration. -/
def addAbsent (sec key value : String) (c : LpConfig) : LpConfig :=
  if c.getString sec key = none then c.setString sec key (some value) else c

/-- The entries of a section are applied. -/
def addSection (sec : String) (c : LpConfig) : LpConfig :=
  (visibleKeys lpc sec).foldl (fun c key => addAbsent sec key (textOf lib lpc sec key) c) c

/-- The names that are read back as names. -/
def Named : Prop :=
  ∀ sec ∈ lpc.sectionNames, lib.Keeps sec ∧ ∀ key ∈ visibleKeys lpc sec, lib.Keeps key

end

theorem foldlM_guard {σ α : Type} {f : σ → α → Option σ} {p : α → Prop} [DecidablePred p]
    {g : σ → α → σ} {l : List α}
    (hf : ∀ s, ∀ a ∈ l, f s a = if p a then some (g s a) else none) (s : σ) :
    l.foldlM f s = if ∀ a ∈ l, p a then some (l.foldl g s) else none := by
  induction l generalizing s with
  | nil => simp
  | cons a l ih =>
    rw [List.foldlM_cons, hf s a List.mem_cons_self]
    by_cases ha : p a
    · simp only [ha, if_true, Option.bind_eq_bind, Option.bind_some,
        ih fun s b hb => hf s b (List.mem_cons_of_mem a hb), List.forall_mem_cons, true_and,
        List.foldl_cons]
    · simp [ha]

theorem dumpAttrs_name (lib : Xml.Library) (name : String) :
    Xml2lpc.dumpAttrs [Node.attrAsRead lib ("name", some name)] =
      if lib.Keeps name then some [("name", name)] else none := by
  unfold Xml2lpc.dumpAttrs Node.attrAsRead Xml.Library.Keeps
  simp only [Option.getD_some]
  by_cases hname : name = ""
  · by_cases hempty : lib.emptyText = true
    · simp [hname, hempty]
    · simp [hname, hempty]
  · simp [hname]

theorem firstContent_setContent {lib : Xml.Library} {s t : String} (h : lib.content s = some t)
    (level : Nat) :
    Xml2lpc.firstContent (Node.spread level (Node.asReadList lib (level + 1) (lib.setContent s))) =
      some t := by
  unfold Xml.Library.setContent
  rw [h]
  by_cases ht : t = ""
  · subst ht
    simp [Node.asReadList, Node.spread, Xml2lpc.firstContent]
  · simp [ht, Node.asReadList, Node.asRead, Node.spread, Node.isElement, Xml2lpc.firstContent]

section

variable {lib : Xml.Library} {lpc : LpConfig}

theorem sectionChild_entry {sec key t : String}
    (h : lib.content (valueOf lpc sec key) = some t) (level : Nat) (c : LpConfig) :
    Xml2lpc.sectionChild sec c ((entryNode lib lpc sec key).asRead lib level) =
      if lib.Keeps key then some (addAbsent sec key (textOf lib lpc sec key) c) else none := by
  have htext : textOf lib lpc sec key = t := by simp [textOf, h]
  simp only [entryNode, Node.asRead, Xml2lpc.sectionChild, Xml2lpc.processEntry, List.map_cons,
    List.map_nil, dumpAttrs_name, firstContent_setContent h, htext]
  by_cases hkey : lib.Keeps key
  · simp only [if_pos hkey, Option.bind_eq_bind, Option.bind_some, addAbsent]
    by_cases hc : c.getString sec key = none
    · simp [hc]
    · simp [hc]
  · simp [hkey]

theorem configChild_section {sec : String} (hsec : ∀ key ∈ visibleKeys lpc sec,
      ∃ t, lib.content (valueOf lpc sec key) = some t) (level : Nat) (c : LpConfig) :
    Xml2lpc.configChild c ((sectionNode lib lpc sec).asRead lib level) =
      if lib.Keeps sec ∧ ∀ key ∈ visibleKeys lpc sec, lib.Keeps key then
        some (addSection lib lpc sec c) else none := by
  simp only [sectionNode, Node.asRead, Xml2lpc.configChild, Xml2lpc.processSection, List.map_cons,
    List.map_nil, dumpAttrs_name]
  by_cases hname : lib.Keeps sec
  · have hstep : ∀ (c : LpConfig), ∀ key ∈ visibleKeys lpc sec,
        Xml2lpc.sectionChild sec c ((entryNode lib lpc sec key).asRead lib (level + 1)) =
          if lib.Keeps key then some (addAbsent sec key (textOf lib lpc sec key) c) else none := by
      intro c key hkey
      obtain ⟨t, ht⟩ := hsec key hkey
      exact sectionChild_entry ht (level + 1) c
    rw [if_pos hname]
    simp only [Option.bind_eq_bind, Option.bind_some, hname, true_and]
    rw [show List.lookup "name" [("name", sec)] = some sec from rfl]
    simp only
    rw [Node.foldlM_spread (fun _ _ => rfl), Node.asReadList_eq_map, List.map_map,
      List.foldlM_map]
    exact foldlM_guard hstep c
  · simp [hname]

/-- **What a configuration gives.** The entries of its document are applied one by one, where the
document can be read and every name in it has a text. -/
theorem convert_eq_some {c : LpConfig} :
    convert lib lpc = some c ↔ Writable lib lpc ∧ Named lib lpc ∧
      lpc.sectionNames.foldl (fun c sec => addSection lib lpc sec c) ∅ = c := by
  unfold convert
  rw [processDoc_eq]
  simp only [Option.bind_eq_bind, Option.bind_some, Xml.Library.readBack]
  by_cases hw : Writable lib lpc
  · have hsections : ∀ (c : LpConfig), ∀ sec ∈ lpc.sectionNames,
        Xml2lpc.configChild c ((sectionNode lib lpc sec).asRead lib 2) =
          if lib.Keeps sec ∧ ∀ key ∈ visibleKeys lpc sec, lib.Keeps key then
            some (addSection lib lpc sec c) else none := by
      intro c sec hsec
      refine configChild_section (fun key hkey => ?_) 2 c
      obtain ⟨t, ht, -⟩ := ((hw sec hsec).2 key hkey).2
      exact ⟨t, ht⟩
    rw [if_pos ((readable_configNode lib lpc).mpr hw)]
    simp only [Option.bind_some, configNode, Node.asRead, Xml2lpc.processDoc]
    rw [Node.foldlM_spread (fun _ _ => rfl), Node.asReadList_eq_map, List.map_map, List.foldlM_map]
    simp only [Function.comp_apply]
    rw [foldlM_guard hsections]
    simp [hw, Named]
  · rw [if_neg fun h => hw ((readable_configNode lib lpc).mp h)]
    simp [hw]

end

/-! ## The configuration that is given back -/

theorem getString_addAbsent (c : LpConfig) (sec key value sec' key' : String) :
    (addAbsent sec key value c).getString sec' key' =
      if sec' = sec ∧ key' = key ∧ c.getString sec key = none ∧ value ≠ "" then some value
      else c.getString sec' key' := by
  unfold addAbsent
  by_cases hc : c.getString sec key = none
  · rw [if_pos hc, c.getString_setString, LpConfig.map_ofOption_some]
    by_cases hsame : sec' = sec ∧ key' = key
    · obtain ⟨rfl, rfl⟩ := hsame
      by_cases hvalue : value = ""
      · simp [hvalue, hc]
      · simp [hvalue, hc]
    · rw [if_neg hsame, if_neg fun h => hsame ⟨h.1, h.2.1⟩]
  · rw [if_neg hc, if_neg fun h => hc h.2.2.1]

section

variable (lib : Xml.Library) (lpc : LpConfig)

/-- Entries are added where nothing was read. -/
theorem getString_foldl_addAbsent (sec sec' key' : String) (keys : List String) (c : LpConfig) :
    (keys.foldl (fun c key => addAbsent sec key (textOf lib lpc sec key) c) c).getString sec' key' =
      if sec' = sec ∧ key' ∈ keys ∧ c.getString sec key' = none ∧ textOf lib lpc sec key' ≠ "" then
        some (textOf lib lpc sec key')
      else c.getString sec' key' := by
  induction keys generalizing c with
  | nil => simp
  | cons key keys ih =>
    rw [List.foldl_cons, ih, getString_addAbsent, getString_addAbsent]
    by_cases hsec : sec' = sec
    · subst hsec
      by_cases hkey : key' = key
      · subst hkey
        by_cases hc : c.getString sec' key' = none
        · by_cases htext : textOf lib lpc sec' key' = ""
          · simp [htext]
          · simp [hc, htext]
        · simp [hc]
      · simp [hkey]
    · simp [hsec]

/-- Sections are added one after the other. -/
theorem getString_foldl_addSection (names : List String) (c : LpConfig) (sec key : String) :
    (names.foldl (fun c sec => addSection lib lpc sec c) c).getString sec key =
      if sec ∈ names ∧ key ∈ visibleKeys lpc sec ∧ c.getString sec key = none ∧
          textOf lib lpc sec key ≠ "" then some (textOf lib lpc sec key)
      else c.getString sec key := by
  induction names generalizing c with
  | nil => simp
  | cons name names ih =>
    rw [List.foldl_cons, ih]
    simp only [addSection, getString_foldl_addAbsent]
    by_cases hsec : sec = name
    · subst hsec
      by_cases hkey : key ∈ visibleKeys lpc sec
      · by_cases hc : c.getString sec key = none
        · by_cases htext : textOf lib lpc sec key = ""
          · simp [htext]
          · simp [hc, hkey, htext]
        · simp [hc]
      · simp [hkey]
    · simp [hsec]

theorem mem_sectionNames_of_getString {lpc : LpConfig} {sec key value : String}
    (h : lpc.getString sec key = some value) : sec ∈ lpc.sectionNames := by
  unfold LpConfig.getString at h
  cases hs : lpc.lookup sec with
  | none => simp [hs] at h
  | some s =>
    rw [LpConfig.sectionNames, ← AList.mem_keys, ← AList.lookup_isSome, hs]
    rfl

theorem ne_empty_of_getString {lpc : LpConfig} {sec key value : String}
    (h : lpc.getString sec key = some value) : value ≠ "" := by
  unfold LpConfig.getString at h
  cases hs : lpc.lookup sec with
  | none => simp [hs] at h
  | some s =>
    rw [hs] at h
    obtain ⟨v, -, rfl⟩ := Option.map_eq_some_iff.mp h
    exact v.2

/-- The configurations that come through a document: the names are texts of XML, no key is taken
for a comment, and no value has an ampersand. -/
def Portable : Prop :=
  ∀ sec ∈ lpc.sectionNames, Xml.IsText sec ∧ lib.Keeps sec ∧
    ∀ key value, lpc.getString sec key = some value →
      Lpc2xml.isCommented key = false ∧ Xml.IsText key ∧ lib.Keeps key ∧
        Xml.IsText value ∧ '&' ∉ value.toList

variable {lib lpc} in
theorem getString_of_convert {c : LpConfig} (h : convert lib lpc = some c) (sec key : String) :
    c.getString sec key =
      if sec ∈ lpc.sectionNames ∧ key ∈ visibleKeys lpc sec ∧ textOf lib lpc sec key ≠ "" then
        some (textOf lib lpc sec key) else none := by
  obtain ⟨-, -, rfl⟩ := convert_eq_some.mp h
  rw [getString_foldl_addSection]
  simp

/-- **Round trip through a document.** Dumping a configuration and applying the result to an empty
one gives the same values back when the configuration is portable. -/
theorem convert_faithful_iff :
    (∃ c, convert lib lpc = some c ∧
      ∀ sec key, c.getString sec key = lpc.getString sec key) ↔ Portable lib lpc := by
  constructor
  · intro ⟨c, hc, hsame⟩ sec hsec
    obtain ⟨hw, hn, -⟩ := convert_eq_some.mp hc
    refine ⟨(hw sec hsec).1, (hn sec hsec).1, ?_⟩
    intro key value hvalue
    have hread := hsame sec key
    rw [getString_of_convert hc, hvalue] at hread
    split at hread
    · next h =>
      obtain ⟨-, hkey, -⟩ := h
      injection hread with hread
      obtain ⟨htext, t, ht, htt⟩ := (hw sec hsec).2 key hkey
      have hvalueOf : valueOf lpc sec key = value := by simp [valueOf, hvalue]
      rw [hvalueOf] at ht
      have heq : t = value := by
        rw [← hread, textOf, hvalueOf, ht]
        rfl
      subst heq
      refine ⟨?_, htext, (hn sec hsec).2 key hkey, htt, lib.content_eq_self.mp ht⟩
      simpa using (List.mem_filter.mp hkey).2
    · simp at hread
  · intro hportable
    have hvisible : ∀ sec key, key ∈ visibleKeys lpc sec →
        lpc.getString sec key = some (valueOf lpc sec key) := fun sec key hkey =>
      getString_of_mem_visibleKeys hkey
    have hw : Writable lib lpc := by
      intro sec hsec
      refine ⟨(hportable sec hsec).1, fun key hkey => ?_⟩
      obtain ⟨-, hkeyText, -, hvalueText, hamp⟩ :=
        (hportable sec hsec).2.2 key _ (hvisible sec key hkey)
      exact ⟨hkeyText, _, lib.content_eq_self.mpr hamp, hvalueText⟩
    have hn : Named lib lpc := by
      intro sec hsec
      refine ⟨(hportable sec hsec).2.1, fun key hkey => ?_⟩
      exact ((hportable sec hsec).2.2 key _ (hvisible sec key hkey)).2.2.1
    have hc := convert_eq_some.mpr ⟨hw, hn, rfl⟩
    refine ⟨_, hc, fun sec key => ?_⟩
    rw [getString_of_convert hc]
    cases hvalue : lpc.getString sec key with
    | none =>
      rw [if_neg]
      intro ⟨_, hkey, _⟩
      rw [hvisible sec key hkey] at hvalue
      simp at hvalue
    | some value =>
      have hsec := mem_sectionNames_of_getString hvalue
      obtain ⟨hcomment, -, -, -, hamp⟩ := (hportable sec hsec).2.2 key value hvalue
      have hvalueOf : valueOf lpc sec key = value := by simp [valueOf, hvalue]
      have htext : textOf lib lpc sec key = value := by
        rw [textOf, hvalueOf, lib.content_eq_self.mpr hamp]
        rfl
      have hkey : key ∈ visibleKeys lpc sec := by
        refine List.mem_filter.mpr ⟨lpc.mem_entryKeys.mpr (by simp [hvalue]), ?_⟩
        simp [hcomment]
      rw [htext, if_pos ⟨hsec, hkey, ne_empty_of_getString hvalue⟩]

end

/-- A library that reports a malformed reference and reads nothing of it. -/
def strictLibrary : Xml.Library where
  malformed _ := some ""
  malformed_ne s h := by
    intro heq
    injection heq with heq
    subst heq
    exact absurd h (by decide +kernel)
  emptyText := true

/-- A value with an ampersand: another is read back. -/
def ampersandConfig : LpConfig :=
  LpConfig.setString ∅ "sip" "contact" (some "a&amp;b")

theorem textOf_ampersandConfig : textOf strictLibrary ampersandConfig "sip" "contact" = "a&b" := by
  have hvalue : valueOf ampersandConfig "sip" "contact" = "a&amp;b" := by decide +kernel
  have hunescape : Xml.unescape "a&amp;b" = some "a&b" := by decide +kernel
  rw [textOf, hvalue, Xml.Library.content, hunescape]
  rfl

/-- The value `a&amp;b` comes back as `a&b`. -/
theorem ampersand_not_faithful :
    (∀ c, convert strictLibrary ampersandConfig = some c →
        c.getString "sip" "contact" = some "a&b") ∧
      ¬∃ c, convert strictLibrary ampersandConfig = some c ∧
        ∀ sec key, c.getString sec key = ampersandConfig.getString sec key := by
  have hread : ∀ c, convert strictLibrary ampersandConfig = some c →
      c.getString "sip" "contact" = some "a&b" := by
    intro c hc
    have hvisible : "sip" ∈ ampersandConfig.sectionNames ∧
        "contact" ∈ visibleKeys ampersandConfig "sip" := by decide +kernel
    rw [getString_of_convert hc, textOf_ampersandConfig, if_pos]
    exact ⟨hvisible.1, hvisible.2, by decide⟩
  refine ⟨hread, fun ⟨c, hc, hsame⟩ => ?_⟩
  have hvalue := hread c hc
  rw [hsame] at hvalue
  exact absurd hvalue (by decide +kernel)

end Linphone

import Linphone.Lib.Buffer
import Linphone.Lib.Words
import Linphone.Sal.Description

/-!
# The tags of the Supported header

`make_supported_header` prints the tags into one buffer, which grows while they are printed. The
place to write to is never moved on, so each tag is printed over the one before it.

A header is held as the value it was created with.
-/

namespace Linphone

open Buffer
open CString (nul)

/-! ## The value -/

/-- The local variables of `make_supported_header`. -/
structure TagsBuffer where
  alltags : Option (List Char) := none
  buflen : Nat := 64
  written : Nat := 0

namespace TagsBuffer

/-- The buffer is enlarged for the first tag, and for a tag that does not fit. -/
def grow (junk : Nat → Char) (b : TagsBuffer) (tag : List Char) : TagsBuffer :=
  if b.alltags = none ∨ b.buflen ≤ b.written + tag.length + 1 then
    { b with
      alltags := some (Buffer.realloc junk (b.alltags.getD []) (b.buflen * 2))
      buflen := b.buflen * 2 }
  else b

/-- One round of the loop; `next` says that another tag follows. -/
def print (junk : Nat → Char) (b : TagsBuffer) (tag : List Char) (next : Bool) :
    Option TagsBuffer :=
  let b := grow junk b tag
  (Buffer.snprintf (b.alltags.getD []) b.written (b.buflen - b.written)
      (if next then tag ++ ", ".toList else tag)).map fun mem => { b with alltags := some mem }

def printAll (junk : Nat → Char) : TagsBuffer → List CText → Option TagsBuffer
  | b, [] => some b
  | b, tag :: rest => (b.print junk tag.val (!rest.isEmpty)).bind (printAll junk · rest)

end TagsBuffer

/-- `make_supported_header`: the value of the new header, and none without tags. The outer option
is `none` when the buffer is overrun. -/
def makeSupportedHeader (junk : Nat → Char) (tags : List CText) : Option (Option (List Char)) :=
  (TagsBuffer.printAll junk {} tags).bind fun b =>
    match b.alltags with
    | none => some none
    | some mem => (string mem 0).map some

/-! ## The calls -/

/-- The members of `Sal` for the Supported header. -/
structure SalTags where
  supportedTags : List CText := []
  supported : Option (List Char) := none

/-- The words `strtok_r` finds between commas and blanks. -/
def tagWords (tags : CText) : List CText :=
  (Words.words (fun c => c == ',' || c == ' ') tags.val).attach.map fun w =>
    ⟨w.val, fun hmem => tags.property (Words.mem_of_mem_words w.property _ hmem)⟩

/-- The comparison of `ms_list_find_custom`. -/
def sameTag (tag elem : CText) : Bool :=
  strcasecmp (String.ofList elem.val) (String.ofList tag.val)

inductive TagOp where
  | setSupportedTags (tags : Option CText)
  | addSupportedTag (tag : CText)
  | removeSupportedTag (tag : CText)

/-- A call, and what is in the memory it allocates. -/
structure TagCall where
  op : TagOp
  junk : Nat → Char

namespace SalTags

variable (sal : SalTags) (junk : Nat → Char)

def makeHeader : Option SalTags :=
  (makeSupportedHeader junk sal.supportedTags).map fun value => { sal with supported := value }

def setSupportedTags (tags : Option CText) : Option SalTags :=
  makeHeader { sal with supportedTags := (tags.map tagWords).getD [] } junk

def addSupportedTag (tag : CText) : Option SalTags :=
  if sal.supportedTags.any (sameTag tag) then some sal
  else makeHeader { sal with supportedTags := sal.supportedTags ++ [tag] } junk

def removeSupportedTag (tag : CText) : Option SalTags :=
  if sal.supportedTags.any (sameTag tag) then
    makeHeader { sal with supportedTags := sal.supportedTags.eraseP (sameTag tag) } junk
  else some sal

def call (c : TagCall) : Option SalTags :=
  match c.op with
  | .setSupportedTags tags => sal.setSupportedTags c.junk tags
  | .addSupportedTag tag => sal.addSupportedTag c.junk tag
  | .removeSupportedTag tag => sal.removeSupportedTag c.junk tag

/-- Calls one after another; `none` when one of them overruns a buffer. -/
def run (calls : List TagCall) : Option SalTags :=
  calls.foldlM call sal

end SalTags

/-! ## What the header is for -/

/-- The tags that are set after a call. -/
def TagOp.tags (held : List CText) : TagOp → List CText
  | .setSupportedTags tags => (tags.map tagWords).getD []
  | .addSupportedTag tag => if held.any (sameTag tag) then held else held ++ [tag]
  | .removeSupportedTag tag => held.eraseP (sameTag tag)

def tagsSet (calls : List TagCall) : List CText :=
  calls.foldl (fun held c => c.op.tags held) []

/-- The tags with commas between them, and no header without tags. -/
def commaSeparated (tags : List CText) : Option (List Char) :=
  if tags = [] then none else some (", ".toList.intercalate (tags.map (·.val)))

/-- After the calls no buffer was overrun, the header lists the tags that are set, and a tag that
is among them is not added again. -/
def TagsListed (calls : List TagCall) : Prop :=
  ∃ sal, SalTags.run {} calls = some sal ∧
    sal.supported = commaSeparated (tagsSet calls) ∧
    ∀ tag ∈ tagsSet calls, ∀ again junk, sameTag again tag →
      sal.addSupportedTag junk again = some sal

/-! ## What is printed -/

namespace TagsBuffer

/-- The buffer is as long as its length says, and it is written from its start. -/
structure Sized (b : TagsBuffer) : Prop where
  start : b.written = 0
  pos : 1 < b.buflen
  length : ∀ mem ∈ b.alltags, mem.length = b.buflen

/-- The length of the buffer for one more tag. -/
def lengthFor (n : Nat) (tag : CText) : Nat :=
  if n ≤ tag.val.length + 1 then n * 2 else n

variable {b : TagsBuffer} (junk : Nat → Char)

theorem grow_alltags (tag : List Char) (h : b.Sized) :
    ∃ mem, (grow junk b tag).alltags = some mem ∧ mem.length = (grow junk b tag).buflen := by
  unfold grow
  split_ifs with hgrow
  · exact ⟨_, rfl, length_realloc junk⟩
  · have hsome : b.alltags ≠ none := fun hnone => hgrow (.inl hnone)
    obtain ⟨mem, hmem⟩ := Option.ne_none_iff_exists'.mp hsome
    exact ⟨mem, hmem, h.length mem hmem⟩

theorem grow_buflen (tag : CText) (h : b.Sized) :
    (grow junk b tag.val).buflen =
      if b.alltags = none then b.buflen * 2 else lengthFor b.buflen tag := by
  unfold grow lengthFor
  rw [h.start, Nat.zero_add]
  by_cases hnone : b.alltags = none
  · rw [if_pos (.inl hnone), if_pos hnone]
  · rw [if_neg hnone]
    by_cases hlen : b.buflen ≤ tag.val.length + 1
    · rw [if_pos (.inr hlen), if_pos hlen]
    · rw [if_neg (by simp [hnone, hlen]), if_neg hlen]

theorem grow_written (tag : List Char) : (grow junk b tag).written = b.written := by
  unfold grow
  split_ifs <;> rfl

theorem buflen_le_grow (tag : List Char) : b.buflen ≤ (grow junk b tag).buflen := by
  unfold grow
  split_ifs
  · show b.buflen ≤ b.buflen * 2
    omega
  · exact le_rfl

/-- A tag is printed at the start of the buffer, cut to its length. -/
theorem print_spec (tag : CText) (next : Bool) (h : b.Sized) :
    ∃ b' mem, b.print junk tag.val next = some b' ∧ b'.Sized ∧
      b'.buflen = (if b.alltags = none then b.buflen * 2 else lengthFor b.buflen tag) ∧
      b'.alltags = some mem ∧
      string mem 0 =
        some ((if next then tag.val ++ ", ".toList else tag.val).take (b'.buflen - 1)) := by
  obtain ⟨mem, hmem, hlength⟩ := grow_alltags junk tag.val h
  have hstart : (grow junk b tag.val).written = 0 := (grow_written junk tag.val).trans h.start
  have hpos : 1 < (grow junk b tag.val).buflen := lt_of_lt_of_le h.pos (buflen_le_grow junk tag.val)
  have hfits : 0 + (grow junk b tag.val).buflen ≤ mem.length := by
    rw [hlength, Nat.zero_add]
  have hne : (grow junk b tag.val).buflen ≠ 0 := by omega
  obtain ⟨mem', hprint⟩ :=
    exists_snprintf (if next then tag.val ++ ", ".toList else tag.val) hfits
  have hnul : nul ∉ (if next then tag.val ++ ", ".toList else tag.val) := by
    split_ifs
    · intro hin
      rcases List.mem_append.mp hin with htag | hcomma
      · exact tag.property htag
      · exact absurd hcomma (by decide)
    · exact tag.property
  refine ⟨{ grow junk b tag.val with alltags := some mem' }, mem', ?_, ⟨hstart, hpos, ?_⟩,
    grow_buflen junk tag h, rfl, string_snprintf hprint hne hnul⟩
  · unfold print
    simp only [hmem, hstart, Option.getD_some, Nat.sub_zero, hprint, Option.map_some]
  · intro m hm
    rw [← Option.some.inj hm, length_snprintf hprint, hlength]

/-- **The tags are printed over one another, and only the last one stays.** -/
theorem printAll_spec (rest : List CText) : ∀ (tag : CText) (b : TagsBuffer), b.Sized →
    ∃ b' mem, printAll junk b (tag :: rest) = some b' ∧
      b'.buflen = rest.foldl lengthFor
        (if b.alltags = none then b.buflen * 2 else lengthFor b.buflen tag) ∧
      b'.alltags = some mem ∧
      string mem 0 = some (((tag :: rest).getLast (List.cons_ne_nil tag rest)).val.take
        (b'.buflen - 1)) := by
  induction rest with
  | nil =>
    intro tag b h
    obtain ⟨b', mem, hprint, -, hlen, hmem, hstring⟩ := print_spec junk tag false h
    refine ⟨b', mem, ?_, hlen, hmem, hstring⟩
    rw [printAll, List.isEmpty_nil, Bool.not_true, hprint]
    rfl
  | cons tag' rest ih =>
    intro tag b h
    obtain ⟨b₁, mem₁, hprint, hsized, hlen, hmem₁, -⟩ := print_spec junk tag true h
    obtain ⟨b', mem, hrest, hlen', hmem, hstring⟩ := ih tag' b₁ hsized
    refine ⟨b', mem, ?_, ?_, hmem, ?_⟩
    · rw [printAll, List.isEmpty_cons, Bool.not_false, hprint]
      exact hrest
    · rw [hlen', hlen, hmem₁, if_neg (Option.some_ne_none mem₁), List.foldl_cons]
    · rw [List.getLast_cons (List.cons_ne_nil tag' rest)]
      exact hstring

end TagsBuffer

/-- The last tag, cut to the length the buffer has then. -/
def lastTag : List CText → Option (List Char)
  | [] => none
  | tag :: rest => some (((tag :: rest).getLast (List.cons_ne_nil tag rest)).val.take
      (rest.foldl TagsBuffer.lengthFor 128 - 1))

/-- **The buffer is never overrun, and the header has the last tag only.** -/
theorem makeSupportedHeader_eq (junk : Nat → Char) (tags : List CText) :
    makeSupportedHeader junk tags = some (lastTag tags) := by
  cases tags with
  | nil => rfl
  | cons tag rest =>
    have hsized : TagsBuffer.Sized {} := ⟨rfl, by decide, fun mem hmem => by cases hmem⟩
    obtain ⟨b, mem, hprint, hlen, hmem, hstring⟩ :=
      TagsBuffer.printAll_spec junk rest tag {} hsized
    rw [if_pos rfl] at hlen
    rw [makeSupportedHeader, hprint, Option.bind_some, hmem]
    simp only [hstring, Option.map_some, hlen, lastTag]

/-! ## Runs -/

namespace SalTags

variable {sal : SalTags} {junk : Nat → Char}

theorem makeHeader_eq (sal : SalTags) (junk : Nat → Char) :
    sal.makeHeader junk = some { sal with supported := lastTag sal.supportedTags } := by
  rw [makeHeader, makeSupportedHeader_eq, Option.map_some]

theorem eraseP_of_not_any {held : List CText} {tag : CText}
    (h : ¬ held.any (sameTag tag) = true) : held.eraseP (sameTag tag) = held := by
  refine List.eraseP_of_forall_not fun elem helem hsame => h ?_
  exact List.any_eq_true.mpr ⟨elem, helem, hsame⟩

/-- A call keeps the header that the tags have. -/
theorem call_eq (c : TagCall) (h : sal.supported = lastTag sal.supportedTags) :
    sal.call c = some ⟨c.op.tags sal.supportedTags, lastTag (c.op.tags sal.supportedTags)⟩ := by
  obtain ⟨tags, value⟩ := sal
  have hvalue : value = lastTag tags := h
  subst hvalue
  obtain ⟨op, junk⟩ := c
  cases op with
  | setSupportedTags new => exact makeHeader_eq _ junk
  | addSupportedTag tag =>
    simp only [call, addSupportedTag, TagOp.tags]
    split_ifs
    · rfl
    · exact makeHeader_eq _ junk
  | removeSupportedTag tag =>
    simp only [call, removeSupportedTag, TagOp.tags]
    split_ifs with hany
    · exact makeHeader_eq _ junk
    · rw [eraseP_of_not_any hany]

theorem run_eq (calls : List TagCall) : ∀ held,
    run ⟨held, lastTag held⟩ calls =
      some ⟨calls.foldl (fun held c => c.op.tags held) held,
        lastTag (calls.foldl (fun held c => c.op.tags held) held)⟩ := by
  induction calls with
  | nil => exact fun held => rfl
  | cons c calls ih =>
    intro held
    rw [run, List.foldlM_cons, call_eq c rfl]
    exact ih (c.op.tags held)

/-- **Calls do what they say to the tags, and the header has the last tag.** -/
theorem run_nil (calls : List TagCall) :
    run {} calls = some ⟨tagsSet calls, lastTag (tagsSet calls)⟩ := run_eq calls []

theorem addSupportedTag_of_mem {again tag : CText} (hmem : tag ∈ sal.supportedTags)
    (hsame : sameTag again tag) : sal.addSupportedTag junk again = some sal :=
  if_pos (List.any_eq_true.mpr ⟨tag, hmem, hsame⟩)

end SalTags

/-! ## When the list is right -/

theorem length_getLast_le (tag : CText) (rest : List CText) :
    ((tag :: rest).getLast (List.cons_ne_nil tag rest)).val.length ≤
      (", ".toList.intercalate ((tag :: rest).map (·.val))).length := by
  induction rest generalizing tag with
  | nil => simp
  | cons tag' rest ih =>
    rw [List.getLast_cons (List.cons_ne_nil tag' rest), List.map_cons, List.map_cons,
      List.intercalate_cons_cons, List.length_append, List.length_append]
    have hrest := ih tag'
    rw [List.map_cons] at hrest
    omega

theorem length_getLast_lt (tag tag' : CText) (rest : List CText) :
    ((tag :: tag' :: rest).getLast (List.cons_ne_nil tag _)).val.length <
      (", ".toList.intercalate ((tag :: tag' :: rest).map (·.val))).length := by
  have hrest := length_getLast_le tag' rest
  have hcomma : ", ".toList.length = 2 := rfl
  rw [List.map_cons] at hrest
  rw [List.getLast_cons (List.cons_ne_nil tag' rest), List.map_cons, List.map_cons,
    List.intercalate_cons_cons, List.length_append, List.length_append]
  omega

theorem lastTag_eq_iff (tags : List CText) :
    lastTag tags = commaSeparated tags ↔
      tags = [] ∨ ∃ tag, tags = [tag] ∧ tag.val.length ≤ 127 := by
  match tags with
  | [] => simp [lastTag, commaSeparated]
  | [tag] =>
    have hcomma : commaSeparated [tag] = some tag.val := by simp [commaSeparated]
    have hlast : lastTag [tag] = some (tag.val.take 127) := rfl
    rw [hcomma, hlast]
    constructor
    · intro h
      refine .inr ⟨tag, rfl, ?_⟩
      rw [← Option.some.inj h, List.length_take]
      exact min_le_left 127 tag.val.length
    · rintro (h | ⟨tag', htags, hlen⟩)
      · cases h
      · cases htags
        rw [List.take_of_length_le hlen]
  | tag :: tag' :: rest =>
    constructor
    · intro h
      rw [lastTag, commaSeparated, if_neg (List.cons_ne_nil tag _)] at h
      have hlong := length_getLast_lt tag tag' rest
      rw [← Option.some.inj h, List.length_take] at hlong
      exact absurd hlong (by omega)
    · rintro (h | ⟨tag'', htags, -⟩)
      · cases h
      · cases htags

/-- **The header lists the tags exactly when there is one at most, of 127 characters.** -/
theorem tags_listed_iff (calls : List TagCall) :
    TagsListed calls ↔
      tagsSet calls = [] ∨ ∃ tag, tagsSet calls = [tag] ∧ tag.val.length ≤ 127 := by
  rw [← lastTag_eq_iff]
  constructor
  · rintro ⟨sal, hrun, hheader, -⟩
    rw [SalTags.run_nil] at hrun
    rw [← hheader, ← Option.some.inj hrun]
  · intro hheader
    refine ⟨_, SalTags.run_nil calls, hheader, ?_⟩
    intro tag hmem again junk hsame
    exact SalTags.addSupportedTag_of_mem hmem hsame

def defaultTags : CText := ⟨"replaces, outbound".toList, by decide⟩

/-- The tags a core sets when its configuration has none. -/
def setDefaultTags : TagCall := ⟨.setSupportedTags (some defaultTags), fun _ => 'x'⟩

/-- Of the tags every core starts with only the last one is in the header. -/
theorem defaultTags_not_listed :
    (SalTags.run {} [setDefaultTags]).map (·.supported) = some (some "outbound".toList) ∧
      ¬ TagsListed [setDefaultTags] := by
  have hlast : lastTag (tagsSet [setDefaultTags]) = some "outbound".toList := by decide
  have hlist : commaSeparated (tagsSet [setDefaultTags]) ≠ some "outbound".toList := by decide
  constructor
  · rw [SalTags.run_nil, Option.map_some, hlast]
  · rintro ⟨sal, hrun, hheader, -⟩
    rw [SalTags.run_nil] at hrun
    rw [← Option.some.inj hrun] at hheader
    exact hlist (hheader.symm.trans hlast)

end Linphone

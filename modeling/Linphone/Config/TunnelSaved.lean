import Linphone.Lib.Buffer
import Linphone.Lib.Words
import Linphone.Config.Accessors
import Linphone.Sal.IceAttributes

/-!
# Tunnel servers in the configuration

The servers of a tunnel are saved as words `host:port` or `host:port:mirror:delay` in one item, and
read with `sscanf` and `strtok`. A server without a mirror port is read back with the default one,
a host with a colon is taken apart, and a field that is not a number counts as zero.

`tunnel_servers_saved_iff`: which servers are kept, and for which texts only servers that stand
there are added.
-/

namespace Linphone

open Buffer (CText)
open CString (word)
open Scan (isSpace number decimal)

/-! ## The writer and the reader -/

/-- `struct _LinphoneTunnelConfig`, as `linphone_tunnel_config_new` fills it. -/
structure LinphoneTunnelConfig where
  host : Option (List Char) := none
  port : Int32 := 0
  remoteUdpMirrorPort : Int32 := 12345
  delay : Int32 := 1000
deriving DecidableEq

/-- `atoi`, for a variable of type `int`. -/
def atoiInt (s : List Char) : Int32 := Int32.ofInt (storeInt (LpConfig.atoi s))

namespace LinphoneTunnelConfig

def setHost (c : LinphoneTunnelConfig) (host : Option (List Char)) : LinphoneTunnelConfig :=
  { c with host := host.filter (· ≠ []) }

/-- `linphone_tunnel_config_to_string` -/
def toText (c : LinphoneTunnelConfig) : Option (List Char) :=
  c.host.map fun host =>
    if c.remoteUdpMirrorPort ≠ -1 then
      host ++ ':' :: (decimal c.port.toInt ++ ':' ::
        (decimal c.remoteUdpMirrorPort.toInt ++ ':' :: decimal c.delay.toInt))
    else host ++ ':' :: decimal c.port.toInt

end LinphoneTunnelConfig

/-- The local variables of `linphone_tunnel_config_from_string`. -/
structure ItemFields where
  host : Option (List Char) := none
  port : Int32 := -1
  remoteUdpMirrorPort : Int32 := -1
  delay : Int32 := -1
  pos : Nat := 0

/-- One round of the loop over the fields. -/
def ItemFields.take (f : ItemFields) (pch : List Char) : ItemFields :=
  match f.pos with
  | 0 => { f with host := some pch, pos := 1 }
  | 1 => { f with port := atoiInt pch, pos := 2 }
  | 2 => { f with remoteUdpMirrorPort := atoiInt pch, pos := 3 }
  | 3 => { f with delay := atoiInt pch, pos := 4 }
  -- the counter is set back, and counted up behind the switch
  | _ => { f with pos := 1 }

/-- What `strtok` finds between colons. -/
def fields (str : List Char) : List (List Char) := Words.words (· == ':') str

/-- `linphone_tunnel_config_from_string` -/
def LinphoneTunnelConfig.fromString (str : List Char) : Option LinphoneTunnelConfig :=
  let f := (fields str).foldl ItemFields.take {}
  if 2 ≤ f.pos then
    let c := { LinphoneTunnelConfig.setHost {} f.host with port := f.port }
    let c := if 3 ≤ f.pos then { c with remoteUdpMirrorPort := f.remoteUdpMirrorPort } else c
    some (if f.pos = 4 then { c with delay := f.delay } else c)
  else none

open LinphoneTunnelConfig (toText fromString)

/-- One round of the loop of `linphone_tunnel_save_config`. -/
def joinText (tmp : Option (List Char)) (c : LinphoneTunnelConfig) : Option (List Char) :=
  match toText c, tmp with
  | some str, some tmp => some (tmp ++ ' ' :: str)
  | some str, none => some str
  | none, tmp => tmp

/-- `linphone_tunnel_save_config` -/
def saveTunnelConfig (servers : List LinphoneTunnelConfig) (config : LpConfig) : LpConfig :=
  config.setString "tunnel" "server_addresses" ((servers.foldl joinText none).map String.ofList)

theorem word_ne_nil_length {it : List Char} (h : word it ≠ []) :
    0 < (word it).length ∧ (it.takeWhile isSpace).length + (word it).length ≤ it.length := by
  refine ⟨List.length_pos_iff.mpr h, ?_⟩
  have hsplit := congrArg List.length (List.takeWhile_append_dropWhile (p := isSpace) (l := it))
  have hword : (word it).length ≤ (it.dropWhile isSpace).length :=
    (List.takeWhile_sublist _).length_le
  rw [List.length_append] at hsplit
  omega

/-- The loop of `linphone_tunnel_load_config`. -/
def loadTunnelLoop (it : List Char) (servers : List LinphoneTunnelConfig) :
    List LinphoneTunnelConfig :=
  if _hword : word it = [] then servers
  else
    loadTunnelLoop (it.drop ((it.takeWhile isSpace).length + (word it).length))
      (match fromString (word it) with
       | some c => servers ++ [c]
       | none => servers)
termination_by it.length
decreasing_by
  obtain ⟨hpos, hle⟩ := word_ne_nil_length _hword
  rw [List.length_drop]
  omega

/-- `linphone_tunnel_load_config`: the servers of the tunnel after it. -/
def loadTunnelConfig (config : LpConfig) (servers : List LinphoneTunnelConfig) :
    List LinphoneTunnelConfig :=
  match config.getString "tunnel" "server_addresses" with
  | none => servers
  | some confaddress => loadTunnelLoop confaddress.toList servers

/-! ## What is to be kept -/

/-- A server has a host without blanks. -/
def IsServer (c : LinphoneTunnelConfig) : Prop :=
  ∃ h, c.host = some h ∧ h ≠ [] ∧ ∀ x ∈ h, isSpace x = false ∧ x ≠ CString.nul

/-- Servers that are saved are loaded, in their order. -/
def ServersKept (servers : List { c // IsServer c }) : Prop :=
  ∀ config : LpConfig,
    loadTunnelConfig (saveTunnelConfig (servers.map (·.val)) config) [] = servers.map (·.val)

/-- A text is a number. -/
def Denotes (s : List Char) (n : Int32) : Prop := number s = some (n.toInt, [])

/-- `host:port[:mirror[:delay]]`, and the server it stands for. -/
inductive ItemForm : List Char → LinphoneTunnelConfig → Prop
  | port {h p : List Char} {port : Int32} (hh : h ≠ []) (hp : Denotes p port) :
      ItemForm (h ++ ':' :: p) { host := some h, port := port }
  | mirror {h p m : List Char} {port mirror : Int32} (hh : h ≠ []) (hp : Denotes p port)
      (hm : Denotes m mirror) :
      ItemForm (h ++ ':' :: (p ++ ':' :: m))
        { host := some h, port := port, remoteUdpMirrorPort := mirror }
  | delay {h p m d : List Char} {port mirror delay : Int32} (hh : h ≠ []) (hp : Denotes p port)
      (hm : Denotes m mirror) (hd : Denotes d delay) :
      ItemForm (h ++ ':' :: (p ++ ':' :: (m ++ ':' :: d)))
        { host := some h, port := port, remoteUdpMirrorPort := mirror, delay := delay }

/-- The items of a text. -/
def items (text : List Char) : List (List Char) := Words.words isSpace text

/-- Loading goes through the items of the text in their order, and an item adds the server that
stands there, or none. -/
def ItemsLoaded (text : CText) : Prop :=
  ∀ config : LpConfig,
    config.getString "tunnel" "server_addresses" = some (String.ofList text.val) →
    ∀ servers, loadTunnelConfig config servers =
        servers ++ (items text.val).filterMap fromString ∧
      ∀ item ∈ items text.val, ∀ c ∈ fromString item, ItemForm item c

/-! ## The condition -/

/-- A server with a mirror port and no colon in its host. -/
def PlainServer (c : LinphoneTunnelConfig) : Prop :=
  c.remoteUdpMirrorPort ≠ -1 ∧ ∀ h ∈ c.host, ':' ∉ h

/-- The loop over the fields of an item ends at the second, third or fourth, counted from the start
again behind each fourth one. -/
def CountedItem (item : List Char) : Prop :=
  2 ≤ (fields item).length ∧ (fields item).length % 4 ≠ 1

/-- An item in the form, with no colon in its host. -/
def PlainItem (item : List Char) : Prop :=
  ∃ c h, ItemForm item c ∧ c.host = some h ∧ ':' ∉ h

/-! ## Fields -/

theorem take_pos {f : ItemFields} (hpos : 1 ≤ f.pos) (hmax : f.pos ≤ 4) (pch : List Char) :
    (f.take pch).host = f.host ∧ (f.take pch).pos = f.pos % 4 + 1 := by
  obtain ⟨host, port, mirror, delay, pos⟩ := f
  obtain rfl | rfl | rfl | rfl : pos = 1 ∨ pos = 2 ∨ pos = 3 ∨ pos = 4 := by
    simp only at hpos hmax
    omega
  all_goals simp [ItemFields.take]

/-- Behind the first field the counter goes around, and the host stays. -/
theorem foldl_take_pos (pchs : List (List Char)) : ∀ f : ItemFields, 1 ≤ f.pos → f.pos ≤ 4 →
    (pchs.foldl ItemFields.take f).host = f.host ∧
      (pchs.foldl ItemFields.take f).pos = (f.pos - 1 + pchs.length) % 4 + 1 := by
  induction pchs with
  | nil =>
    intro f hpos hmax
    refine ⟨rfl, ?_⟩
    rw [List.foldl_nil, List.length_nil]
    omega
  | cons pch pchs ih =>
    intro f hpos hmax
    obtain ⟨hhost, hnext⟩ := take_pos hpos hmax pch
    obtain ⟨hhost', hpos'⟩ := ih (f.take pch) (by omega) (by omega)
    refine ⟨hhost'.trans hhost, ?_⟩
    rw [List.foldl_cons, hpos', hnext, List.length_cons]
    omega

theorem foldl_take_cons (host : List Char) (pchs : List (List Char)) :
    ((host :: pchs).foldl ItemFields.take {}).host = some host ∧
      ((host :: pchs).foldl ItemFields.take {}).pos = pchs.length % 4 + 1 := by
  have hmax : (ItemFields.take {} host).pos ≤ 4 := show 1 ≤ 4 by decide
  obtain ⟨hhost, hpos⟩ := foldl_take_pos pchs (ItemFields.take {} host) le_rfl hmax
  refine ⟨hhost, ?_⟩
  rw [List.foldl_cons, hpos]
  show (1 - 1 + pchs.length) % 4 + 1 = _
  rw [Nat.sub_self, Nat.zero_add]

theorem fields_ne_colon {str w : List Char} (hw : w ∈ fields str) : w ≠ [] ∧ ':' ∉ w := by
  obtain ⟨hne, hsep⟩ := Words.not_sep_of_mem_words hw
  exact ⟨hne, fun hmem => absurd (hsep ':' hmem) (by decide)⟩

/-- A server is made of an item when its fields are so many, and its host has no colon. -/
theorem fromString_isSome_iff (item : List Char) :
    (fromString item).isSome ↔ CountedItem item := by
  unfold fromString CountedItem
  cases hfields : fields item with
  | nil => simp
  | cons host pchs =>
    obtain ⟨-, hpos⟩ := foldl_take_cons host pchs
    simp only [hpos, List.length_cons]
    constructor
    · intro h
      split_ifs at h with hle <;> first | omega | cases h
    · rintro ⟨hlen, hmod⟩
      rw [if_pos (by omega)]
      rfl

theorem host_of_fromString {item : List Char} {c : LinphoneTunnelConfig}
    (h : fromString item = some c) : ∃ host, c.host = some host ∧ ':' ∉ host := by
  unfold fromString at h
  cases hfields : fields item with
  | nil => simp [hfields] at h
  | cons host pchs =>
    obtain ⟨hne, hcolon⟩ := fields_ne_colon (hfields.symm ▸ List.mem_cons_self)
    obtain ⟨hhost, -⟩ := foldl_take_cons host pchs
    have hset : (LinphoneTunnelConfig.setHost {} (some host)).host = some host := by
      simp [LinphoneTunnelConfig.setHost, hne]
    refine ⟨host, ?_, hcolon⟩
    simp only [hfields, hhost] at h
    split_ifs at h <;> cases h <;> exact hset

/-! ## Items in the form -/

theorem atoiInt_of_denotes {s : List Char} {n : Int32} (h : Denotes s n) : atoiInt s = n := by
  have hint : IsInt n.toInt := ⟨n.le_toInt, n.toInt_lt⟩
  have hatoi : LpConfig.atoi s = n.toInt := by
    rw [LpConfig.atoi, h]
    rfl
  rw [atoiInt, hatoi, storeInt_of_isInt hint, Int32.ofInt_toInt]

theorem denotes_decimal (n : Int32) : Denotes (decimal n.toInt) n := by
  have h := Scan.number_decimal n.toInt Scan.ends_nil
  rwa [List.append_nil] at h

theorem ne_colon_of_denotes {s : List Char} {n : Int32} (h : Denotes s n) :
    s ≠ [] ∧ ∀ c ∈ s, (c == ':') = false := by
  constructor
  · rintro rfl
    cases h
  · intro c hc
    have hkind := Scan.mem_of_number h hc
    by_contra hcolon
    rw [Bool.not_eq_false, beq_iff_eq] at hcolon
    subst hcolon
    exact absurd hkind (by decide)

theorem fields_append_cons {h : List Char} (hne : h ≠ []) (hcolon : ':' ∉ h) (s : List Char) :
    fields (h ++ ':' :: s) = h :: fields s := by
  refine Words.words_append_cons (fun c hc => ?_) hne rfl s
  have hc' : c ≠ ':' := fun heq => hcolon (heq ▸ hc)
  simpa using hc'

theorem fields_denotes_cons {p : List Char} {n : Int32} (hp : Denotes p n) (s : List Char) :
    fields (p ++ ':' :: s) = p :: fields s :=
  Words.words_append_cons (ne_colon_of_denotes hp).2 (ne_colon_of_denotes hp).1 rfl s

theorem fields_denotes {p : List Char} {n : Int32} (hp : Denotes p n) : fields p = [p] :=
  Words.words_eq_singleton (ne_colon_of_denotes hp).2 (ne_colon_of_denotes hp).1

/-- **An item in the form is read as it stands**, when its host has no colon. -/
theorem fromString_of_itemForm {item : List Char} {c : LinphoneTunnelConfig}
    (hform : ItemForm item c) {host : List Char} (hhost : c.host = some host)
    (hcolon : ':' ∉ host) : fromString item = some c := by
  cases hform with
  | port hh hp =>
    cases hhost
    simp [fromString, fields_append_cons hh hcolon, fields_denotes hp, ItemFields.take,
      LinphoneTunnelConfig.setHost, hh, atoiInt_of_denotes hp]
  | mirror hh hp hm =>
    cases hhost
    simp [fromString, fields_append_cons hh hcolon, fields_denotes_cons hp, fields_denotes hm,
      ItemFields.take, LinphoneTunnelConfig.setHost, hh, atoiInt_of_denotes hp,
      atoiInt_of_denotes hm]
  | delay hh hp hm hd =>
    cases hhost
    simp [fromString, fields_append_cons hh hcolon, fields_denotes_cons hp,
      fields_denotes_cons hm, fields_denotes hd, ItemFields.take, LinphoneTunnelConfig.setHost, hh,
      atoiInt_of_denotes hp, atoiInt_of_denotes hm, atoiInt_of_denotes hd]

theorem last_of_denotes {p : List Char} {n : Int32} (hp : Denotes p n) (a : List Char) :
    ∃ x, (a ++ ':' :: p).getLast? = some x ∧
      (isSpace x = true ∨ x = '-' ∨ x = '+' ∨ Scan.digitValue x < 10) := by
  have hne := (ne_colon_of_denotes hp).1
  refine ⟨p.getLast hne, ?_, Scan.mem_of_number hp (List.getLast_mem hne)⟩
  have hcons : ':' :: p ≠ [] := List.cons_ne_nil _ _
  rw [List.getLast?_eq_getLast_of_ne_nil (List.append_ne_nil_of_right_ne_nil a hcons),
    List.getLast_append_of_ne_nil _ hcons, List.getLast_cons hne]

/-- An item in the form ends like a number. -/
theorem last_of_itemForm {item : List Char} {c : LinphoneTunnelConfig} (h : ItemForm item c) :
    ∃ x, item.getLast? = some x ∧
      (isSpace x = true ∨ x = '-' ∨ x = '+' ∨ Scan.digitValue x < 10) := by
  cases h with
  | @port h p _ hh hp => exact last_of_denotes hp h
  | @mirror h p m _ _ hh hp hm =>
    have hlast := last_of_denotes hm (h ++ ':' :: p)
    rwa [List.append_assoc, List.cons_append] at hlast
  | @delay h p m d _ _ _ hh hp hm hd =>
    have hlast := last_of_denotes hd (h ++ ':' :: (p ++ ':' :: m))
    simpa using hlast

/-- An item adds the server that stands there exactly when it is in the form, or adds none. -/
theorem fromString_itemForm_iff (item : List Char) :
    (∀ c ∈ fromString item, ItemForm item c) ↔ (CountedItem item → PlainItem item) := by
  constructor
  · intro h hcounted
    obtain ⟨c, hc⟩ := Option.isSome_iff_exists.mp ((fromString_isSome_iff item).mpr hcounted)
    obtain ⟨host, hhost, hcolon⟩ := host_of_fromString hc
    exact ⟨c, host, h c hc, hhost, hcolon⟩
  · intro h c hc
    have hsome : (fromString item).isSome := by
      rw [hc]
      rfl
    obtain ⟨c', host, hform, hhost, hcolon⟩ := h ((fromString_isSome_iff item).mp hsome)
    have heq := (fromString_of_itemForm hform hhost hcolon).symm.trans hc
    exact Option.some.inj heq ▸ hform

/-! ## Servers -/

/-- A server comes back from its item exactly when it has a mirror port and a plain host. -/
theorem fromString_toText_iff {c : LinphoneTunnelConfig} (hc : IsServer c) :
    (toText c).bind fromString = some c ↔ PlainServer c := by
  obtain ⟨h, hhost, hne, -⟩ := hc
  obtain ⟨host, port, mirror, delay⟩ := c
  have hhost' : host = some h := hhost
  subst hhost'
  have hplain : PlainServer ⟨some h, port, mirror, delay⟩ ↔ mirror ≠ -1 ∧ ':' ∉ h := by
    simp [PlainServer]
  rw [hplain]
  constructor
  · intro hback
    obtain ⟨str, htext, hread⟩ := Option.bind_eq_some_iff.mp hback
    obtain ⟨host', heq, hcolon⟩ := host_of_fromString hread
    cases heq
    refine ⟨fun hmirror => ?_, hcolon⟩
    subst hmirror
    have hform := ItemForm.port hne (denotes_decimal port)
    have hread' := fromString_of_itemForm hform rfl hcolon
    have hstr : str = h ++ ':' :: decimal port.toInt := (Option.some.inj htext).symm
    rw [hstr, hread'] at hread
    have hmirror : (12345 : Int32) = -1 :=
      congrArg LinphoneTunnelConfig.remoteUdpMirrorPort (Option.some.inj hread)
    exact absurd hmirror (by decide)
  · rintro ⟨hmirror, hcolon⟩
    have hform := ItemForm.delay hne (denotes_decimal port) (denotes_decimal mirror)
      (denotes_decimal delay)
    have htext : toText ⟨some h, port, mirror, delay⟩ = some (h ++ ':' :: (decimal port.toInt ++
        ':' :: (decimal mirror.toInt ++ ':' :: decimal delay.toInt))) := by
      rw [toText, Option.map_some, if_pos hmirror]
    rw [htext]
    exact fromString_of_itemForm hform rfl hcolon

/-! ## The text between them -/

theorem items_eq_nil {it : List Char} (h : word it = []) : items it = [] := by
  have hdrop : it.dropWhile isSpace = [] :=
    List.dropWhile_eq_nil_iff.mpr (CString.word_eq_nil h)
  rw [items, ← Words.words_dropWhile, hdrop, Words.words, List.splitOnP_nil]
  rfl

theorem items_of_word {it : List Char} (h : word it ≠ []) :
    items it = word it :: items (it.drop ((it.takeWhile isSpace).length + (word it).length)) := by
  have hfirst : Words.first isSpace (it.dropWhile isSpace) = word it := rfl
  have hskip : it.drop (it.takeWhile isSpace).length = it.dropWhile isSpace := by
    have hall := List.takeWhile_append_dropWhile (p := isSpace) (l := it)
    exact (congrArg (List.drop _) hall.symm).trans List.drop_left
  have hrest : (it.dropWhile isSpace).drop (word it).length =
      (it.dropWhile isSpace).dropWhile (!isSpace ·) := by
    have hall := List.takeWhile_append_dropWhile (p := (!isSpace ·)) (l := it.dropWhile isSpace)
    exact (congrArg (List.drop (word it).length) hall.symm).trans List.drop_left
  rw [← List.drop_drop, hskip, hrest]
  conv_lhs => rw [items, ← Words.words_dropWhile, Words.words_eq, hfirst]
  rw [List.filter_cons_of_pos (by simpa using h), List.filter_nil, List.singleton_append,
    Words.rest, Words.words_dropWhile, items]

/-- **Loading goes through the words of the text.** -/
theorem loadTunnelLoop_eq (it : List Char) (servers : List LinphoneTunnelConfig) :
    loadTunnelLoop it servers = servers ++ (items it).filterMap fromString := by
  induction it, servers using loadTunnelLoop.induct with
  | case1 it servers hword =>
    rw [loadTunnelLoop, dif_pos hword, items_eq_nil hword, List.filterMap_nil, List.append_nil]
  | case2 it servers hword ih =>
    rw [loadTunnelLoop, dif_neg hword, ih, items_of_word hword, List.filterMap_cons]
    cases fromString (word it) with
    | none => rfl
    | some c => simp

theorem intercalate_join (tmp str : List Char) (strs : List (List Char)) :
    [' '].intercalate ((tmp ++ ' ' :: str) :: strs) = [' '].intercalate (tmp :: str :: strs) := by
  cases strs with
  | nil => simp
  | cons s strs => simp [List.intercalate_cons_cons]

theorem foldl_joinText (servers : List LinphoneTunnelConfig) : ∀ tmp,
    servers.foldl joinText (some tmp) =
      some ([' '].intercalate (tmp :: servers.filterMap toText)) := by
  induction servers with
  | nil => simp
  | cons c servers ih =>
    intro tmp
    rw [List.foldl_cons, List.filterMap_cons]
    cases htext : toText c with
    | none =>
      simp only [joinText, htext]
      exact ih tmp
    | some str =>
      simp only [joinText, htext]
      exact (ih _).trans (congrArg some (intercalate_join tmp str _))

theorem foldl_joinText_none (servers : List LinphoneTunnelConfig) :
    servers.foldl joinText none =
      if servers.filterMap toText = [] then none
      else some ([' '].intercalate (servers.filterMap toText)) := by
  induction servers with
  | nil => rfl
  | cons c servers ih =>
    rw [List.foldl_cons, List.filterMap_cons]
    cases htext : toText c with
    | none =>
      simp only [joinText, htext]
      exact ih
    | some str =>
      simp only [joinText, htext]
      exact foldl_joinText servers str

theorem toText_of_isServer {c : LinphoneTunnelConfig} (hc : IsServer c) {str : List Char}
    (h : toText c = some str) : str ≠ [] ∧ ∀ x ∈ str, isSpace x = false := by
  obtain ⟨host, hhost, hne, hhostChars⟩ := hc
  have hdecimal : ∀ (n : Int), ∀ x ∈ decimal n, isSpace x = false := by
    intro n x hx
    rcases Scan.mem_decimal hx with hdigit | rfl
    · exact (Scan.isSpace_of_isDigit hdigit).1
    · rfl
  have hcolon : isSpace ':' = false := rfl
  rw [toText, hhost, Option.map_some] at h
  cases h
  split_ifs
  · refine ⟨by simp, fun x hx => ?_⟩
    simp only [List.mem_append, List.mem_cons] at hx
    rcases hx with hx | rfl | hx | rfl | hx | rfl | hx
    · exact (hhostChars x hx).1
    all_goals first | exact hcolon | exact hdecimal _ x hx
  · refine ⟨by simp, fun x hx => ?_⟩
    simp only [List.mem_append, List.mem_cons] at hx
    rcases hx with hx | rfl | hx
    · exact (hhostChars x hx).1
    · exact hcolon
    · exact hdecimal _ x hx

/-- What is loaded of servers that were saved. -/
theorem load_save (servers : List LinphoneTunnelConfig) (h : ∀ c ∈ servers, IsServer c)
    (config : LpConfig) :
    loadTunnelConfig (saveTunnelConfig servers config) [] =
      servers.filterMap fun c => (toText c).bind fromString := by
  have hitems : ∀ str ∈ servers.filterMap toText, str ≠ [] ∧ ∀ x ∈ str, isSpace x = false := by
    intro str hstr
    obtain ⟨c, hc, htext⟩ := List.mem_filterMap.mp hstr
    exact toText_of_isServer (h c hc) htext
  have hwords : Words.words isSpace ([' '].intercalate (servers.filterMap toText)) =
      servers.filterMap toText := Words.words_intercalate rfl hitems
  rw [← List.filterMap_filterMap, loadTunnelConfig, saveTunnelConfig, foldl_joinText_none]
  by_cases hnil : servers.filterMap toText = []
  · rw [if_pos hnil, hnil, LpConfig.getString_setString, if_pos ⟨rfl, rfl⟩]
    rfl
  · have hne : [' '].intercalate (servers.filterMap toText) ≠ [] := by
      intro hempty
      rw [hempty] at hwords
      rw [← hwords] at hnil
      exact hnil (items_eq_nil rfl)
    rw [if_neg hnil, Option.map_some, LpConfig.getString_setString_self hne]
    simp only [String.toList_ofList]
    rw [loadTunnelLoop_eq, List.nil_append, items, hwords]

/-- A list comes back from a partial function only when each member does. -/
theorem filterMap_eq_self_iff {α : Type} (f : α → Option α) (l : List α) :
    l.filterMap f = l ↔ ∀ a ∈ l, f a = some a := by
  induction l with
  | nil => simp
  | cons a l ih =>
    rw [List.forall_mem_cons, ← ih, List.filterMap_cons]
    cases hfa : f a with
    | none =>
      have hlen := List.length_filterMap_le f l
      constructor
      · intro h
        have hlong := congrArg List.length h
        rw [List.length_cons] at hlong
        dsimp only at hlong
        omega
      · rintro ⟨h, -⟩
        cases h
    | some b => simp

theorem getString_addresses {text : List Char} (h : text ≠ []) :
    (LpConfig.setString ∅ "tunnel" "server_addresses" (some (String.ofList text))).getString
      "tunnel" "server_addresses" = some (String.ofList text) :=
  LpConfig.getString_setString_self h

/-- **Servers are kept exactly when each has a mirror port and a host without colons, and only
servers of a text are added exactly when each of its items that is counted is in the form.** -/
theorem tunnel_servers_saved_iff (servers : List { c // IsServer c }) (text : CText) :
    (ServersKept servers ↔ ∀ c ∈ servers, PlainServer c.val) ∧
      (ItemsLoaded text ↔ ∀ item ∈ items text.val, CountedItem item → PlainItem item) := by
  constructor
  · have hservers : ∀ c ∈ servers.map (·.val), IsServer c := by
      intro c hc
      obtain ⟨s, -, rfl⟩ := List.mem_map.mp hc
      exact s.property
    have hplain : (servers.map (·.val)).filterMap (fun c => (toText c).bind fromString) =
        servers.map (·.val) ↔ ∀ c ∈ servers, PlainServer c.val := by
      rw [filterMap_eq_self_iff, List.forall_mem_map]
      exact forall₂_congr fun c _ => fromString_toText_iff c.property
    rw [← hplain]
    constructor
    · intro hkept
      rw [← load_save _ hservers ∅]
      exact hkept ∅
    · intro hback config
      rw [load_save _ hservers config, hback]
  · have hitems : (∀ item ∈ items text.val, ∀ c ∈ fromString item, ItemForm item c) ↔
        ∀ item ∈ items text.val, CountedItem item → PlainItem item :=
      forall₂_congr fun item _ => fromString_itemForm_iff item
    rw [← hitems]
    constructor
    · intro hloaded
      by_cases hempty : text.val = []
      · intro item hitem
        rw [hempty, items_eq_nil rfl] at hitem
        cases hitem
      · exact (hloaded _ (getString_addresses hempty) []).2
    · intro hforms config hconfig servers
      refine ⟨?_, hforms⟩
      simp only [loadTunnelConfig, hconfig, String.toList_ofList]
      exact loadTunnelLoop_eq text.val servers

/-! ## A server without a mirror port -/

def webServer : { c // IsServer c } :=
  ⟨{ host := some "tunnel".toList, port := 443, remoteUdpMirrorPort := -1 },
    "tunnel".toList, rfl, by decide, by decide⟩

def wordPort : CText := ⟨"tunnel:https".toList, by decide⟩

/-- A server without a mirror port is loaded with the default one, and a word that is no number
makes a server too. -/
theorem webServer_not_kept :
    loadTunnelConfig (saveTunnelConfig [webServer.val] ∅) [] =
        [{ host := some "tunnel".toList, port := 443 }] ∧
      ¬ ServersKept [webServer] ∧ ¬ ItemsLoaded wordPort := by
  have hloaded : loadTunnelConfig (saveTunnelConfig [webServer.val] ∅) [] =
      [{ host := some "tunnel".toList, port := 443 }] := by
    rw [load_save [webServer.val] (by simpa using webServer.property)]
    decide
  refine ⟨hloaded, fun hkept => ?_, fun hitems => ?_⟩
  · have hsame := (hkept ∅).symm.trans hloaded
    exact absurd hsame (by decide)
  · have hset : wordPort.val ≠ [] := by decide
    have hform := (hitems _ (getString_addresses hset) []).2 wordPort.val (by decide)
      { host := some "tunnel".toList } (by decide)
    obtain ⟨x, hlast, hkind⟩ := last_of_itemForm hform
    cases hlast
    exact absurd hkind (by decide)

end Linphone

import Linphone.Lib.Buffer
import Linphone.Sal.IceAttributes

/-!
# Hosts with a port

`linphone_parse_host_port` tells four forms apart with `sscanf` and two searches for a colon. A
host in brackets is read up to 64 characters, but a name in front of a colon without a limit, and
`strncpy` to the caller's buffer gives no NUL to a host that fills it.

`host_port_parsed_iff`: for which texts and buffers the host and the port come out right.
-/

namespace Linphone

open Buffer
open CString (nul)
open Scan (literal field number decimal)

/-! ## The parser -/

/-- `NI_MAXHOST` -/
def niMaxhost : Nat := 1025

/-- `"[%64[^]]]:%d"`: how much is assigned, and the variables after it. -/
def scanBracketedPort (input tmphost : List Char) (port : Int) :
    Option (Nat × List Char × Int) :=
  match (literal '[' input).bind (field 64 (· ≠ ']')) with
  | none => some (0, tmphost, port)
  | some (f, rest) =>
      (write tmphost 0 (f ++ [nul])).map fun tmphost =>
        match ((literal ']' rest).bind (literal ':')).bind number with
        | none => (1, tmphost, port)
        | some (n, _) => (2, tmphost, storeInt n)

/-- `"[%64[^]]]"` -/
def scanBracketed (input tmphost : List Char) : Option (Nat × List Char) :=
  match (literal '[' input).bind (field 64 (· ≠ ']')) with
  | none => some (0, tmphost)
  | some (f, _) => (write tmphost 0 (f ++ [nul])).map fun tmphost => (1, tmphost)

/-- `"%[^:]:%d"` -/
def scanHostPort (input tmphost : List Char) (port : Int) : Option (Nat × List Char × Int) :=
  match field input.length (· ≠ ':') input with
  | none => some (0, tmphost, port)
  | some (f, rest) =>
      (write tmphost 0 (f ++ [nul])).map fun tmphost =>
        match (literal ':' rest).bind number with
        | none => (1, tmphost, port)
        | some (n, _) => (2, tmphost, storeInt n)

def strchr (s : List Char) (c : Char) : Option Nat :=
  if c ∈ s then some (s.idxOf c) else none

def strrchr (s : List Char) (c : Char) : Option Nat :=
  if c ∈ s then some (s.length - 1 - s.reverse.idxOf c) else none

/-- The two colons of an IPv6 address without port. -/
def twoColons (input : List Char) : Bool :=
  match strchr input ':', strrchr input ':' with
  | some p1, some p2 => p1 != p2
  | _, _ => false

/-- The variables `tmphost` and `port` before the host is copied to the caller. -/
def readHostPort (input : List Char) (port : Int) : Option (List Char × Int) :=
  (scanBracketedPort input (List.replicate niMaxhost nul) port).bind fun r =>
    if r.1 = 2 then some r.2
    else
      (scanBracketed input r.2.1).bind fun r' =>
        if r'.1 = 1 then some (r'.2, r.2.2)
        else if twoColons input then
          (strncpy r'.2 0 input (niMaxhost - 1)).map fun tmphost => (tmphost, r.2.2)
        else
          (scanHostPort input r'.2 r.2.2).bind fun r'' =>
            if r''.1 ≠ 2 then
              (strncpy r''.2.1 0 input (niMaxhost - 1)).map fun tmphost => (tmphost, r''.2.2)
            else some r''.2

/-- `linphone_parse_host_port`; `none` when a buffer is overrun. -/
def linphoneParseHostPort (input host : List Char) (hostlen : Nat) (port : Int) :
    Option (List Char × Int) :=
  (readHostPort input port).bind fun r =>
    (string r.1 0).bind fun tmphost =>
      (strncpy host 0 tmphost hostlen).map fun host => (host, r.2)

/-! ## The forms of a host with a port -/

def IsHostName (host : List Char) : Prop :=
  host ≠ [] ∧ ∀ c ∈ host, c ≠ ':' ∧ c ≠ '[' ∧ c ≠ ']'

/-- An IPv6 address, with its zone. -/
def IsIpv6 (host : List Char) : Prop :=
  2 ≤ host.count ':' ∧ ∀ c ∈ host, c ≠ '[' ∧ c ≠ ']'

/-- A host and a port, in the form they are written in. -/
inductive HostPort where
  | name (host : { h : List Char // IsHostName h }) (port : Option UInt16)
  | bracketed (host : { h : List Char // IsIpv6 h }) (port : Option UInt16)
  | bare (host : { h : List Char // IsIpv6 h })

namespace HostPort

def portText : Option UInt16 → List Char
  | none => []
  | some p => ':' :: decimal p.toNat

def text : HostPort → List Char
  | name host port => host.val ++ portText port
  | bracketed host port => '[' :: (host.val ++ ']' :: portText port)
  | bare host => host.val

def host : HostPort → List Char
  | name host _ | bracketed host _ | bare host => host.val

def port : HostPort → Option Int
  | name _ port | bracketed _ port => port.map fun p => (p.toNat : Int)
  | bare _ => none

end HostPort

/-- No buffer is overrun, the host has its NUL, and a host with a port in one of the forms comes
out as it is. -/
def HostPortParsed (input : CText) (hostlen : Nat) : Prop :=
  ∀ (host : List Char) (port : Int), host.length = hostlen →
    ∃ host' port' h, linphoneParseHostPort input.val host hostlen port = some (host', port') ∧
      string host' 0 = some h ∧
      ∀ f : HostPort, f.text = input.val → h = f.host ∧ port' = f.port.getD port

/-! ## The condition -/

/-- What stands in the brackets a text starts with. -/
def inBrackets (input : List Char) : List Char := (input.drop 1).takeWhile (· ≠ ']')

def Bracketed (input : List Char) : Prop := input.head? = some '[' ∧ inBrackets input ≠ []

instance (input : List Char) : Decidable (Bracketed input) :=
  inferInstanceAs (Decidable (_ ∧ _))

/-- What stands before the first colon. -/
def beforeColon (input : List Char) : List Char := input.takeWhile (· ≠ ':')

/-- Some text, a colon and a number. -/
def HasPort (input : List Char) : Prop :=
  beforeColon input ≠ [] ∧ (number (input.drop ((beforeColon input).length + 1))).isSome

instance (input : List Char) : Decidable (HasPort input) :=
  inferInstanceAs (Decidable (_ ∧ _))

/-- A text is one of the forms. -/
def IsForm (input : List Char) : Prop := ∃ f : HostPort, f.text = input

/-- The lengths for which the buffers are long enough. -/
def HostPortFits (input : List Char) (hostlen : Nat) : Prop :=
  if Bracketed input then
    min 64 (inBrackets input).length < hostlen ∧
      (IsForm input → (inBrackets input).length ≤ 64)
  else if 2 ≤ input.count ':' then
    min 1024 input.length < hostlen ∧ (IsForm input → input.length ≤ 1024)
  else
    (beforeColon input).length ≤ 1024 ∧
      if HasPort input then (beforeColon input).length < hostlen
      else min 1024 input.length < hostlen

/-! ## Scanning -/

theorem twoColons_iff (input : List Char) : twoColons input = true ↔ 2 ≤ input.count ':' := by
  unfold twoColons strchr strrchr
  by_cases hmem : ':' ∈ input
  · rw [if_pos hmem, if_pos hmem]
    obtain ⟨a, rest, rfl, ha⟩ := List.eq_append_cons_of_mem hmem
    have hp1 : (a ++ ':' :: rest).idxOf ':' = a.length := by
      rw [List.idxOf_append_of_notMem ha, List.idxOf_cons_self, Nat.add_zero]
    have hreverse : (a ++ ':' :: rest).reverse = rest.reverse ++ ':' :: a.reverse := by simp
    have hcount : (a ++ ':' :: rest).count ':' = rest.count ':' + 1 := by
      rw [List.count_append, List.count_eq_zero_of_not_mem ha, List.count_cons_self, Nat.zero_add]
    have hlength : (a ++ ':' :: rest).length = a.length + rest.length + 1 := by
      rw [List.length_append, List.length_cons]
      omega
    simp only [hp1, hreverse, hcount, hlength, bne_iff_ne, ne_eq]
    by_cases hrest : ':' ∈ rest
    · have hback : ':' ∈ rest.reverse := List.mem_reverse.mpr hrest
      have hlt := List.idxOf_lt_length_of_mem hback
      have hpos := List.count_pos_iff.mpr hrest
      rw [List.length_reverse] at hlt
      rw [List.idxOf_append_of_mem hback]
      constructor <;> intro _ <;> omega
    · have hback : ':' ∉ rest.reverse := fun h => hrest (List.mem_reverse.mp h)
      rw [List.idxOf_append_of_notMem hback, List.idxOf_cons_self, List.length_reverse,
        List.count_eq_zero_of_not_mem hrest]
      constructor <;> intro _ <;> omega
  · rw [if_neg hmem, List.count_eq_zero_of_not_mem hmem]
    simp

/-- The variable `port` after a conversion that may not have happened. -/
def portAfter (port : Int) (r : Option (Int × List Char)) : Int :=
  match r with
  | none => port
  | some (n, _) => storeInt n

theorem bracketField_of_not {input : List Char} (h : ¬ Bracketed input) :
    (literal '[' input).bind (field 64 (· ≠ ']')) = none := by
  cases input with
  | nil => rfl
  | cons c s =>
    by_cases hc : c = '['
    · have hempty : s.takeWhile (· ≠ ']') = [] := by
        by_contra hne
        exact h ⟨by rw [hc]; rfl, hne⟩
      rw [literal, if_pos hc, Option.bind_some]
      exact if_pos (by rw [hempty, List.take_nil])
    · rw [literal, if_neg hc, Option.bind_none]

theorem bracketField {input : List Char} (h : Bracketed input) :
    (literal '[' input).bind (field 64 (· ≠ ']')) =
      some ((inBrackets input).take 64,
        input.drop (1 + ((inBrackets input).take 64).length)) := by
  obtain ⟨hhead, hne⟩ := h
  cases input with
  | nil => cases hhead
  | cons c s =>
    have hc : c = '[' := Option.some.inj hhead
    have htake : (inBrackets (c :: s)).take 64 ≠ [] := by
      rw [ne_eq, List.take_eq_nil_iff, not_or]
      exact ⟨by decide, hne⟩
    rw [literal, if_pos hc, Option.bind_some, field, Nat.add_comm 1, List.drop_succ_cons]
    exact if_neg htake

theorem not_nul_mem_inBrackets {input : List Char} (hnul : nul ∉ input) :
    nul ∉ (inBrackets input).take 64 := fun hmem =>
  hnul (List.mem_of_mem_drop ((List.takeWhile_sublist _).subset (List.mem_of_mem_take hmem)))

/-- The brackets are found by both patterns, whatever follows them. -/
theorem readHostPort_of_bracketed {input : List Char} (hnul : nul ∉ input)
    (h : Bracketed input) (port : Int) :
    ∃ tmphost, readHostPort input port = some (tmphost, portAfter port
        (((literal ']' (input.drop (1 + ((inBrackets input).take 64).length))).bind
          (literal ':')).bind number)) ∧
      string tmphost 0 = some ((inBrackets input).take 64) := by
  have hlen : ((inBrackets input).take 64).length < (List.replicate niMaxhost nul).length := by
    rw [List.length_take, List.length_replicate]
    exact lt_of_le_of_lt (min_le_left _ _) (by decide)
  obtain ⟨mem, hwrite, hmem, hstring⟩ :=
    exists_write_string hlen (not_nul_mem_inBrackets hnul)
  rw [← hmem] at hlen
  obtain ⟨mem', hwrite', -, hstring'⟩ :=
    exists_write_string hlen (not_nul_mem_inBrackets hnul)
  unfold readHostPort scanBracketedPort scanBracketed
  simp only [bracketField h, hwrite, Option.map_some, Option.bind_some]
  cases ((literal ']' (input.drop (1 + ((inBrackets input).take 64).length))).bind
      (literal ':')).bind number with
  | none => exact ⟨mem', by simp [hwrite', portAfter], hstring'⟩
  | some r => exact ⟨mem, by simp [portAfter], hstring⟩

/-- Without brackets nothing is written before the colons are looked for. -/
theorem readHostPort_of_not_bracketed {input : List Char} (h : ¬ Bracketed input) (port : Int) :
    readHostPort input port =
      if twoColons input then
        (strncpy (List.replicate niMaxhost nul) 0 input (niMaxhost - 1)).map fun tmphost =>
          (tmphost, port)
      else
        (scanHostPort input (List.replicate niMaxhost nul) port).bind fun r =>
          if r.1 ≠ 2 then
            (strncpy r.2.1 0 input (niMaxhost - 1)).map fun tmphost => (tmphost, r.2.2)
          else some r.2 := by
  unfold readHostPort scanBracketedPort scanBracketed
  simp only [bracketField_of_not h, Option.bind_some]
  rfl

theorem strncpy_tmphost {input mem : List Char} (hnul : nul ∉ input)
    (hlen : mem.length = niMaxhost) (hlast : mem.drop 1024 = [nul]) :
    ∃ tmphost, strncpy mem 0 input (niMaxhost - 1) = some tmphost ∧
      string tmphost 0 = some (input.take 1024) := by
  have hfits : 0 + (niMaxhost - 1) ≤ mem.length := by
    rw [hlen]
    decide
  obtain ⟨tmphost, hcopy⟩ := exists_strncpy input hfits
  exact ⟨tmphost, hcopy, string_strncpy_cut hcopy hnul hlast⟩

theorem drop_zeroed : (List.replicate niMaxhost nul).drop 1024 = [nul] := by
  rw [List.drop_replicate]
  rfl

theorem readHostPort_of_colons {input : List Char} (hnul : nul ∉ input)
    (h : ¬ Bracketed input) (hcolons : 2 ≤ input.count ':') (port : Int) :
    ∃ tmphost, readHostPort input port = some (tmphost, port) ∧
      string tmphost 0 = some (input.take 1024) := by
  obtain ⟨tmphost, hcopy, hstring⟩ := strncpy_tmphost hnul List.length_replicate drop_zeroed
  refine ⟨tmphost, ?_, hstring⟩
  rw [readHostPort_of_not_bracketed h, if_pos ((twoColons_iff input).mpr hcolons), hcopy]
  rfl

theorem readHostPort_of_few_colons {input : List Char} (h : ¬ Bracketed input)
    (hcolons : ¬ 2 ≤ input.count ':') (port : Int) :
    readHostPort input port =
      (scanHostPort input (List.replicate niMaxhost nul) port).bind fun r =>
        if r.1 ≠ 2 then
          (strncpy r.2.1 0 input (niMaxhost - 1)).map fun tmphost => (tmphost, r.2.2)
        else some r.2 := by
  rw [readHostPort_of_not_bracketed h, if_neg fun htwo => hcolons ((twoColons_iff input).mp htwo)]

theorem hostField (input : List Char) :
    field input.length (· ≠ ':') input =
      if beforeColon input = [] then none
      else some (beforeColon input, input.drop (beforeColon input).length) := by
  have hall : (beforeColon input).take input.length = beforeColon input :=
    List.take_of_length_le (List.takeWhile_sublist _).length_le
  unfold field
  show (if (beforeColon input).take input.length = [] then none
    else some ((beforeColon input).take input.length,
      input.drop ((beforeColon input).take input.length).length)) = _
  rw [hall]

theorem readHostPort_of_overrun {input : List Char} (h : ¬ Bracketed input)
    (hcolons : ¬ 2 ≤ input.count ':') (hlen : 1024 < (beforeColon input).length) (port : Int) :
    readHostPort input port = none := by
  have hne : beforeColon input ≠ [] := List.ne_nil_of_length_pos (by omega)
  have hwrite : write (List.replicate niMaxhost nul) 0 (beforeColon input ++ [nul]) = none := by
    refine write_eq_none ?_
    rw [List.length_replicate, List.length_append, List.length_singleton, Nat.zero_add]
    show 1025 < _
    omega
  rw [readHostPort_of_few_colons h hcolons, scanHostPort, hostField, if_neg hne]
  simp only [hwrite, Option.map_none, Option.bind_none]

/-- Behind what stands before the first colon there is nothing, or the colon. -/
theorem literal_colon (input : List Char) :
    (literal ':' (input.drop (beforeColon input).length)).bind number =
      number (input.drop ((beforeColon input).length + 1)) := by
  have hsplit : input.drop (beforeColon input).length = input.dropWhile (· ≠ ':') := by
    have hall : beforeColon input ++ input.dropWhile (· ≠ ':') = input :=
      List.takeWhile_append_dropWhile
    exact (congrArg (List.drop _) hall.symm).trans List.drop_left
  rw [← List.drop_drop, hsplit]
  cases hbehind : input.dropWhile (· ≠ ':') with
  | nil => rfl
  | cons c s =>
    have hc : c = ':' := by
      have hhead := List.head?_dropWhile_not (· ≠ ':') input
      rw [hbehind] at hhead
      simpa using hhead
    rw [literal, if_pos hc]
    rfl

theorem not_nul_mem_beforeColon {input : List Char} (hnul : nul ∉ input) :
    nul ∉ beforeColon input := fun hmem => hnul ((List.takeWhile_sublist _).subset hmem)

theorem readHostPort_of_port {input : List Char} (hnul : nul ∉ input)
    (h : ¬ Bracketed input) (hcolons : ¬ 2 ≤ input.count ':')
    (hlen : (beforeColon input).length ≤ 1024) (hport : HasPort input) (port : Int) :
    ∃ tmphost, readHostPort input port = some (tmphost, portAfter port
        (number (input.drop ((beforeColon input).length + 1)))) ∧
      string tmphost 0 = some (beforeColon input) := by
  obtain ⟨hne, hnumber⟩ := hport
  obtain ⟨r, hr⟩ := Option.isSome_iff_exists.mp hnumber
  have hfits : (beforeColon input).length < (List.replicate niMaxhost nul).length := by
    rw [List.length_replicate]
    exact Nat.lt_succ_of_le hlen
  obtain ⟨mem, hwrite, -, hstring⟩ := exists_write_string hfits (not_nul_mem_beforeColon hnul)
  refine ⟨mem, ?_, hstring⟩
  rw [readHostPort_of_few_colons h hcolons, scanHostPort, hostField, if_neg hne]
  simp only [hwrite, Option.map_some, Option.bind_some, literal_colon, hr]
  rfl

theorem readHostPort_of_no_port {input : List Char} (hnul : nul ∉ input)
    (h : ¬ Bracketed input) (hcolons : ¬ 2 ≤ input.count ':')
    (hlen : (beforeColon input).length ≤ 1024) (hport : ¬ HasPort input) (port : Int) :
    ∃ tmphost, readHostPort input port = some (tmphost, port) ∧
      string tmphost 0 = some (input.take 1024) := by
  rw [readHostPort_of_few_colons h hcolons, scanHostPort, hostField]
  by_cases hempty : beforeColon input = []
  · obtain ⟨tmphost, hcopy, hstring⟩ := strncpy_tmphost hnul List.length_replicate drop_zeroed
    refine ⟨tmphost, ?_, hstring⟩
    rw [if_pos hempty]
    simp only [Option.bind_some, hcopy]
    rfl
  · have hfits : (beforeColon input).length < (List.replicate niMaxhost nul).length := by
      rw [List.length_replicate]
      exact Nat.lt_succ_of_le hlen
    obtain ⟨mem, hwrite, hmem, -⟩ := exists_write_string hfits (not_nul_mem_beforeColon hnul)
    rw [List.length_replicate] at hmem
    obtain ⟨tmphost, hcopy, hstring⟩ :=
      strncpy_tmphost hnul hmem (drop_write_string hwrite hlen drop_zeroed)
    have hnone : number (input.drop ((beforeColon input).length + 1)) = none := by
      cases hnumber : number (input.drop ((beforeColon input).length + 1)) with
      | none => rfl
      | some r => exact absurd ⟨hempty, by rw [hnumber]; rfl⟩ hport
    refine ⟨tmphost, ?_, hstring⟩
    rw [if_neg hempty]
    simp only [hwrite, Option.map_some, Option.bind_some, literal_colon, hnone, hcopy]
    rfl

/-! ## The forms -/

theorem inBrackets_append {host rest : List Char} (h : ']' ∉ host) :
    inBrackets ('[' :: (host ++ ']' :: rest)) = host := by
  show (host ++ ']' :: rest).takeWhile (· ≠ ']') = host
  refine Scan.takeWhile_append_of_ends (fun c hc => ?_) fun c hc => ?_
  · have hne : c ≠ ']' := fun heq => h (heq ▸ hc)
    simpa using hne
  · cases hc
    simp

theorem beforeColon_append {host rest : List Char} (h : ':' ∉ host)
    (hrest : ∀ c ∈ rest.head?, c = ':') : beforeColon (host ++ rest) = host := by
  refine Scan.takeWhile_append_of_ends (fun c hc => ?_) fun c hc => ?_
  · have hne : c ≠ ':' := fun heq => h (heq ▸ hc)
    simpa using hne
  · rw [hrest c hc]
    decide

namespace HostPort

theorem head_portText (port : Option UInt16) : ∀ c ∈ (portText port).head?, c = ':' := by
  intro c hc
  cases port with
  | none => cases hc
  | some p => exact (Option.some.inj hc).symm

theorem count_portText (port : Option UInt16) : (portText port).count ':' ≤ 1 := by
  cases port with
  | none => exact Nat.zero_le 1
  | some p =>
    have hdecimal : ':' ∉ decimal p.toNat := by
      intro hmem
      rcases Scan.mem_decimal hmem with hdigit | hminus
      · exact absurd hdigit (by decide)
      · exact absurd hminus (by decide)
    rw [portText, List.count_cons_self, List.count_eq_zero_of_not_mem hdecimal]

/-- The number behind a colon is the port. -/
theorem portAfter_portText (port : Int) (p : Option UInt16) :
    portAfter port ((literal ':' (portText p)).bind number) =
      (p.map fun p => (p.toNat : Int)).getD port := by
  cases p with
  | none => rfl
  | some p =>
    have hread : number (decimal p.toNat) = some ((p.toNat : Int), []) := by
      have h := Scan.number_decimal (p.toNat : Int) Scan.ends_nil
      rwa [List.append_nil] at h
    have hlt : p.toNat < 2 ^ 16 := p.toNat_lt
    have hint : IsInt (p.toNat : Int) := ⟨by omega, by omega⟩
    rw [portText, literal, if_pos rfl, Option.bind_some, hread]
    exact storeInt_of_isInt hint

theorem ne_nil_of_isIpv6 {host : List Char} (h : IsIpv6 host) : host ≠ [] := by
  rintro rfl
  exact absurd h.1 (by decide)

theorem not_bracketed_append {host rest : List Char} (hne : host ≠ []) (h : '[' ∉ host) :
    ¬ Bracketed (host ++ rest) := by
  rintro ⟨hhead, -⟩
  obtain ⟨c, s, rfl⟩ := List.exists_cons_of_ne_nil hne
  exact h (Option.some.inj hhead ▸ List.mem_cons_self)

theorem not_bracketed_name (host : { h : List Char // IsHostName h }) (port : Option UInt16) :
    ¬ Bracketed (name host port).text :=
  not_bracketed_append host.property.1 fun hmem => (host.property.2 _ hmem).2.1 rfl

theorem not_bracketed_bare (host : { h : List Char // IsIpv6 h }) :
    ¬ Bracketed (bare host).text := by
  have h : '[' ∉ host.val := fun hmem => (host.property.2 _ hmem).1 rfl
  have hbare : ¬ Bracketed (host.val ++ []) :=
    not_bracketed_append (ne_nil_of_isIpv6 host.property) h
  rwa [List.append_nil] at hbare

theorem inBrackets_bracketed (host : { h : List Char // IsIpv6 h }) (port : Option UInt16) :
    inBrackets (bracketed host port).text = host.val :=
  inBrackets_append fun hmem => (host.property.2 _ hmem).2 rfl

theorem bracketed_text (host : { h : List Char // IsIpv6 h }) (port : Option UInt16) :
    Bracketed (bracketed host port).text :=
  ⟨rfl, by rw [inBrackets_bracketed]; exact ne_nil_of_isIpv6 host.property⟩

theorem not_colon_mem_name (host : { h : List Char // IsHostName h }) : ':' ∉ host.val :=
  fun hmem => (host.property.2 _ hmem).1 rfl

theorem count_name (host : { h : List Char // IsHostName h }) (port : Option UInt16) :
    (name host port).text.count ':' ≤ 1 := by
  rw [text, List.count_append, List.count_eq_zero_of_not_mem (not_colon_mem_name host),
    Nat.zero_add]
  exact count_portText port

theorem beforeColon_name (host : { h : List Char // IsHostName h }) (port : Option UInt16) :
    beforeColon (name host port).text = host.val :=
  beforeColon_append (not_colon_mem_name host) (head_portText port)

end HostPort

/-! ## What comes out -/

/-- The host is copied to the caller, and has a NUL when it is shorter than the caller's buffer. -/
theorem parse_of_read {input host tmphost h : List Char} {hostlen : Nat} {port port' : Int}
    (hread : readHostPort input port = some (tmphost, port'))
    (hstring : string tmphost 0 = some h) (hlen : host.length = hostlen) :
    ∃ host', linphoneParseHostPort input host hostlen port = some (host', port') ∧
      string host' 0 = if h.length < hostlen then some h else none := by
  have hfits : 0 + hostlen ≤ host.length := by omega
  have hnul := not_nul_mem_string hstring
  obtain ⟨host', hcopy⟩ := exists_strncpy h hfits
  refine ⟨host', ?_, ?_⟩
  · simp only [linphoneParseHostPort, hread, Option.bind_some, hstring, hcopy, Option.map_some]
  · split_ifs with hshort
    · exact string_strncpy hcopy hnul hshort
    · subst hlen
      exact string_strncpy_eq_none hcopy hnul (Nat.not_lt.mp hshort)

theorem parsed_iff {input : CText} {h : List Char} {portOf : Int → Int} (hostlen : Nat)
    (hread : ∀ port, ∃ tmphost, readHostPort input.val port = some (tmphost, portOf port) ∧
      string tmphost 0 = some h) :
    HostPortParsed input hostlen ↔
      h.length < hostlen ∧
        ∀ f : HostPort, f.text = input.val →
          h = f.host ∧ ∀ port, portOf port = f.port.getD port := by
  constructor
  · intro hparsed
    have hlen : (List.replicate hostlen nul).length = hostlen := List.length_replicate
    have hresult : ∀ port, h.length < hostlen ∧
        ∀ f : HostPort, f.text = input.val → h = f.host ∧ portOf port = f.port.getD port := by
      intro port
      obtain ⟨host', port', h', hparse, hstring', hforms⟩ := hparsed _ port hlen
      obtain ⟨tmphost, htmp, hstring⟩ := hread port
      obtain ⟨host'', hparse', hcopied⟩ := parse_of_read htmp hstring hlen
      rw [hparse] at hparse'
      obtain ⟨rfl, rfl⟩ := Prod.mk.inj (Option.some.inj hparse')
      rw [hstring'] at hcopied
      split_ifs at hcopied with hshort
      cases hcopied
      exact ⟨hshort, hforms⟩
    refine ⟨(hresult 0).1, fun f htext => ⟨((hresult 0).2 f htext).1, fun port => ?_⟩⟩
    exact ((hresult port).2 f htext).2
  · rintro ⟨hshort, hforms⟩ host port hlen
    obtain ⟨tmphost, htmp, hstring⟩ := hread port
    obtain ⟨host', hparse, hcopied⟩ := parse_of_read htmp hstring hlen
    rw [if_pos hshort] at hcopied
    exact ⟨host', portOf port, h, hparse, hcopied,
      fun f htext => ⟨(hforms f htext).1, (hforms f htext).2 port⟩⟩

theorem parsed_iff_of_bracketed (input : CText) (hostlen : Nat) (h : Bracketed input.val) :
    HostPortParsed input hostlen ↔
      min 64 (inBrackets input.val).length < hostlen ∧
        (IsForm input.val → (inBrackets input.val).length ≤ 64) := by
  rw [parsed_iff hostlen (readHostPort_of_bracketed input.property h), List.length_take]
  refine and_congr_right fun _ => ⟨fun hforms => ?_, fun hfits f htext => ?_⟩
  · rintro ⟨f, htext⟩
    rw [← htext] at h
    cases f with
    | name host port => exact absurd h (HostPort.not_bracketed_name host port)
    | bare host => exact absurd h (HostPort.not_bracketed_bare host)
    | bracketed host port =>
      have hhost := (hforms _ htext).1
      rw [← htext, HostPort.inBrackets_bracketed] at hhost ⊢
      have hlength := congrArg List.length hhost
      rw [List.length_take] at hlength
      show host.val.length ≤ 64
      have hsame : (HostPort.bracketed host port).host.length = host.val.length := rfl
      omega
  · have hlen := hfits ⟨f, htext⟩
    rw [← htext] at h hlen ⊢
    cases f with
    | name host port => exact absurd h (HostPort.not_bracketed_name host port)
    | bare host => exact absurd h (HostPort.not_bracketed_bare host)
    | bracketed host p =>
      rw [HostPort.inBrackets_bracketed] at hlen ⊢
      rw [List.take_of_length_le hlen]
      refine ⟨rfl, fun port => ?_⟩
      have hbehind : (HostPort.bracketed host p).text.drop (1 + host.val.length) =
          ']' :: HostPort.portText p := by
        rw [HostPort.text, Nat.add_comm, List.drop_succ_cons]
        exact List.drop_left
      rw [Nat.min_eq_right hlen, hbehind, literal, if_pos rfl, Option.bind_some]
      exact HostPort.portAfter_portText port p

theorem parsed_iff_of_colons (input : CText) (hostlen : Nat) (h : ¬ Bracketed input.val)
    (hcolons : 2 ≤ input.val.count ':') :
    HostPortParsed input hostlen ↔
      min 1024 input.val.length < hostlen ∧ (IsForm input.val → input.val.length ≤ 1024) := by
  rw [parsed_iff hostlen (readHostPort_of_colons input.property h hcolons), List.length_take]
  refine and_congr_right fun _ => ⟨fun hforms => ?_, fun hfits f htext => ?_⟩
  · rintro ⟨f, htext⟩
    have hhost := (hforms f htext).1
    rw [← htext] at h hcolons hhost ⊢
    cases f with
    | name host port => exact absurd hcolons (by have := HostPort.count_name host port; omega)
    | bracketed host port => exact absurd (HostPort.bracketed_text host port) h
    | bare host =>
      have hlength := congrArg List.length hhost
      rw [List.length_take] at hlength
      have hsame : (HostPort.bare host).host.length = (HostPort.bare host).text.length := rfl
      omega
  · have hlen := hfits ⟨f, htext⟩
    rw [← htext] at h hcolons hlen ⊢
    cases f with
    | name host port => exact absurd hcolons (by have := HostPort.count_name host port; omega)
    | bracketed host port => exact absurd (HostPort.bracketed_text host port) h
    | bare host =>
      rw [List.take_of_length_le hlen]
      exact ⟨rfl, fun port => rfl⟩

theorem name_of_form {input : List Char} (h : ¬ Bracketed input)
    (hcolons : ¬ 2 ≤ input.count ':') {f : HostPort} (htext : f.text = input) :
    ∃ host port, f = .name host port := by
  rw [← htext] at h hcolons
  cases f with
  | name host port => exact ⟨host, port, rfl⟩
  | bracketed host port => exact absurd (HostPort.bracketed_text host port) h
  | bare host => exact absurd host.property.1 hcolons

theorem number_name (host : { h : List Char // IsHostName h }) (p : Option UInt16) :
    number ((HostPort.name host p).text.drop
        ((beforeColon (HostPort.name host p).text).length + 1)) =
      (literal ':' (HostPort.portText p)).bind number := by
  rw [← literal_colon, HostPort.beforeColon_name, HostPort.text, List.drop_left]

theorem hasPort_name_iff (host : { h : List Char // IsHostName h }) (p : Option UInt16) :
    HasPort (HostPort.name host p).text ↔ p ≠ none := by
  rw [HasPort, number_name, HostPort.beforeColon_name]
  cases p with
  | none => simp [HostPort.portText, literal]
  | some p =>
    have hread := Scan.number_decimal (p.toNat : Int) Scan.ends_nil
    rw [List.append_nil] at hread
    simp [HostPort.portText, literal, hread, host.property.1]

theorem parsed_iff_of_few_colons (input : CText) (hostlen : Nat) (h : ¬ Bracketed input.val)
    (hcolons : ¬ 2 ≤ input.val.count ':') (hlen : (beforeColon input.val).length ≤ 1024) :
    HostPortParsed input hostlen ↔
      if HasPort input.val then (beforeColon input.val).length < hostlen
      else min 1024 input.val.length < hostlen := by
  by_cases hport : HasPort input.val
  · rw [parsed_iff hostlen (readHostPort_of_port input.property h hcolons hlen hport),
      if_pos hport, and_iff_left_iff_imp]
    intro _ f htext
    obtain ⟨host, p, rfl⟩ := name_of_form h hcolons htext
    rw [← htext, HostPort.beforeColon_name, ← HostPort.beforeColon_name host p, number_name,
      HostPort.beforeColon_name]
    exact ⟨rfl, fun port => HostPort.portAfter_portText port p⟩
  · rw [parsed_iff hostlen (readHostPort_of_no_port input.property h hcolons hlen hport),
      if_neg hport, List.length_take, and_iff_left_iff_imp]
    intro _ f htext
    obtain ⟨host, p, rfl⟩ := name_of_form h hcolons htext
    rw [← htext, hasPort_name_iff, not_not] at hport
    subst hport
    have hhost : host.val = input.val := by
      rw [← htext, HostPort.text, HostPort.portText, List.append_nil]
    rw [← htext, HostPort.beforeColon_name, hhost] at hlen
    rw [List.take_of_length_le hlen]
    exact ⟨hhost.symm, fun port => rfl⟩

/-- **A host and a port come out right exactly when the buffers are long enough.** -/
theorem host_port_parsed_iff (input : CText) (hostlen : Nat) :
    HostPortParsed input hostlen ↔ HostPortFits input.val hostlen := by
  unfold HostPortFits
  by_cases h : Bracketed input.val
  · rw [if_pos h]
    exact parsed_iff_of_bracketed input hostlen h
  · rw [if_neg h]
    by_cases hcolons : 2 ≤ input.val.count ':'
    · rw [if_pos hcolons]
      exact parsed_iff_of_colons input hostlen h hcolons
    · rw [if_neg hcolons]
      by_cases hlen : (beforeColon input.val).length ≤ 1024
      · rw [parsed_iff_of_few_colons input hostlen h hcolons hlen, and_iff_right hlen]
      · refine iff_of_false (fun hparsed => ?_) fun hfits => hlen hfits.1
        obtain ⟨host', port', h', hparse, -⟩ :=
          hparsed (List.replicate hostlen nul) 0 List.length_replicate
        rw [linphoneParseHostPort, readHostPort_of_overrun h hcolons (Nat.not_le.mp hlen)] at hparse
        cases hparse

/-! ## A name without end -/

def longName : CText :=
  ⟨List.replicate 1025 'a', fun h => absurd (List.eq_of_mem_replicate h) (by decide)⟩

/-- A text of 1025 characters without a colon is written behind the end of `tmphost`. -/
theorem longName_overruns :
    linphoneParseHostPort longName.val (List.replicate niMaxhost nul) niMaxhost 3478 = none ∧
      ¬ HostPortParsed longName niMaxhost := by
  have hbracket : ¬ Bracketed longName.val := fun h => absurd h.1 (by decide)
  have hcolons : ¬ 2 ≤ longName.val.count ':' := by
    have hzero : longName.val.count ':' = 0 :=
      List.count_eq_zero_of_not_mem fun h => absurd (List.eq_of_mem_replicate h) (by decide)
    omega
  have hbefore : beforeColon longName.val = longName.val := by
    rw [beforeColon, List.takeWhile_eq_self_iff]
    intro c hc
    rw [List.eq_of_mem_replicate hc]
    decide
  have hlen : 1024 < (beforeColon longName.val).length := by
    rw [hbefore]
    exact (List.length_replicate).symm ▸ Nat.lt_succ_self 1024
  have hnone : ∀ host port, linphoneParseHostPort longName.val host niMaxhost port = none := by
    intro host port
    rw [linphoneParseHostPort, readHostPort_of_overrun hbracket hcolons hlen, Option.bind_none]
  refine ⟨hnone _ _, fun hparsed => ?_⟩
  obtain ⟨host', port', h', hparse, -⟩ :=
    hparsed (List.replicate niMaxhost nul) 3478 List.length_replicate
  rw [hnone] at hparse
  cases hparse

end Linphone

import Linphone.Config.LpConfig
import Mathlib.Data.List.Perm.Subperm
import Mathlib.Data.Nat.Find

/-!
# Lists in numbered sections

A list is written to the sections `name_0`, `name_1` and so on, each entry to its own; then some of
the sections behind it are cleaned. It is read from the first section on, up to the one where the
loop stops.

`Keeps.saved_iff`: a list is read back, and nothing is left behind its end, exactly if each of its
entries is kept in its section and the sections behind the end were cleaned or were not there.
-/

namespace Linphone

/-! ## Names of sections -/

/-- The name of a section, as `sprintf` gives it. -/
def numbered (name : String) (i : Nat) : String := name ++ String.ofList (Scan.decimal (i : Int))

theorem toList_numbered (name : String) (i : Nat) :
    (numbered name i).toList = name.toList ++ Scan.decimal (i : Int) := by
  rw [numbered, String.toList_append, String.toList_ofList]

theorem numbered_inj {name : String} {i j : Nat} (h : numbered name i = numbered name j) :
    i = j := by
  have hlist := congrArg String.toList h
  rw [toList_numbered, toList_numbered, List.append_cancel_left_eq] at hlist
  exact Int.ofNat_inj.mp (Scan.decimal_inj hlist)

theorem head?_numbered {name : String} {c : Char} (h : name.toList.head? = some c) (i : Nat) :
    (numbered name i).toList.head? = some c := by
  rw [toList_numbered, List.head?_append, h, Option.some_or]

theorem numbered_ne {name : String} {sec : String} {c : Char} (hname : name.toList.head? = some c)
    (hsec : sec.toList.head? ≠ some c) (i : Nat) : sec ≠ numbered name i := by
  rintro rfl
  exact hsec (head?_numbered hname i)

/-! ## Lists -/

/-- How a list is written and read. -/
structure NumberedList (α : Type) where
  name : String
  write : LpConfig → α → Nat → LpConfig
  /-- The sections that are cleaned behind so many entries. -/
  cleaned : Nat → List Nat
  read : LpConfig → Nat → Option α
  /-- The loop that reads stops at a section. -/
  stops : LpConfig → Nat → Bool
  lookup_write : ∀ config e i sec, sec ≠ numbered name i →
    (write config e i).lookup sec = config.lookup sec
  le_cleaned : ∀ n, ∀ m ∈ cleaned n, n ≤ m
  stops_of_missing : ∀ config i, numbered name i ∉ config → stops config i = true
  read_of_stops : ∀ config i, stops config i = true → read config i = none

theorem le_of_mem_cleaned : ∀ n : Nat, ∀ m ∈ [n], n ≤ m := by
  intro n m hm
  rw [List.mem_singleton.mp hm]

namespace NumberedList

variable {α : Type} (L : NumberedList α)

/-- The sections behind the last entry. -/
def clean (config : LpConfig) (n : Nat) : LpConfig :=
  (L.cleaned n).foldl (fun config m => config.cleanSection (numbered L.name m)) config

/-- The loop that writes. -/
def writeFrom : LpConfig → Nat → List α → LpConfig
  | config, i, [] => L.clean config i
  | config, i, e :: l => writeFrom (L.write config e i) (i + 1) l

def writeAll (config : LpConfig) (l : List α) : LpConfig := L.writeFrom config 0 l

/-- There are less sections than numbers. -/
theorem exists_stops (config : LpConfig) : ∃ i, L.stops config i = true := by
  by_contra hnone
  have hmem : ∀ i, numbered L.name i ∈ config.keys := by
    intro i
    by_contra hi
    exact hnone ⟨i, L.stops_of_missing config i hi⟩
  have hnodup : ((List.range (config.keys.length + 1)).map (numbered L.name)).Nodup :=
    List.nodup_range.map fun i j hij => numbered_inj hij
  have hsub : (List.range (config.keys.length + 1)).map (numbered L.name) ⊆ config.keys := by
    intro sec hsec
    obtain ⟨i, -, rfl⟩ := List.mem_map.mp hsec
    exact hmem i
  have hle := (List.subperm_of_subset hnodup hsub).length_le
  rw [List.length_map, List.length_range] at hle
  omega

/-- The number of the section where the loop that reads stops. -/
def stop (config : LpConfig) : Nat := Nat.find (L.exists_stops config)

/-- The entries that are read. -/
def readAll (config : LpConfig) : List α := (List.range (L.stop config)).filterMap (L.read config)

/-! ## What is expected -/

/-- A list is read, and there is nothing behind it. -/
structure Saved (config : LpConfig) (l : List α) : Prop where
  read : L.readAll config = l
  behind : ∀ m, l.length ≤ m → numbered L.name m ∉ config

/-- What is read of an entry depends on its section and on some settings, and is the entry itself
exactly if it is kept. -/
structure Keeps (settings : String → String → Prop) (Kept : LpConfig → α → Nat → Prop) :
    Prop where
  settings_ne : ∀ sec key, settings sec key → ∀ i, sec ≠ numbered L.name i
  read_iff : ∀ config config' e i,
    config'.lookup (numbered L.name i) = (L.write config e i).lookup (numbered L.name i) →
    (∀ sec key, settings sec key → config'.getString sec key = config.getString sec key) →
    (L.read config' i = some e ↔ Kept config e i)
  congr : ∀ config config' e i,
    config'.lookup (numbered L.name i) = config.lookup (numbered L.name i) →
    (∀ sec key, settings sec key → config'.getString sec key = config.getString sec key) →
    (Kept config' e i ↔ Kept config e i)

/-! ## Reading -/

variable {L} {config config' : LpConfig} {l : List α} {i m : Nat} {sec : String}

theorem stop_le (h : numbered L.name i ∉ config) : L.stop config ≤ i :=
  Nat.find_min' _ (L.stops_of_missing config i h)

/-- What is found at each of the first places. -/
theorem getElem?_filterMap_range {f : Nat → Option α} {n : Nat}
    (hlength : ((List.range n).filterMap f).length = n) :
    ∀ k < n, ((List.range n).filterMap f)[k]? = f k := by
  induction n with
  | zero => exact fun k hk => absurd hk (Nat.not_lt_zero k)
  | succ n ih =>
    rw [List.range_succ, List.filterMap_append] at hlength ⊢
    have hle : ((List.range n).filterMap f).length ≤ n :=
      Nat.le_trans (List.length_filterMap_le f _) (Nat.le_of_eq List.length_range)
    cases hf : f n with
    | none =>
      rw [List.filterMap_cons, hf, List.filterMap_nil, List.append_nil] at hlength
      omega
    | some a =>
      rw [List.filterMap_cons, hf, List.filterMap_nil, List.length_append,
        List.length_singleton] at hlength
      have hn : ((List.range n).filterMap f).length = n := Nat.succ_injective hlength
      intro k hk
      rw [List.filterMap_cons, hf, List.filterMap_nil]
      rcases Nat.lt_succ_iff_lt_or_eq.mp hk with hk | rfl
      · rw [List.getElem?_append_left (by omega), ih hn k hk]
      · rw [List.getElem?_append_right (by omega), hn, Nat.sub_self, hf]
        rfl

/-- A list is read exactly if each of its entries is, when there is nothing behind it. -/
theorem readAll_eq_iff (hbehind : ∀ m, l.length ≤ m → numbered L.name m ∉ config) :
    L.readAll config = l ↔ ∀ k (hk : k < l.length), L.read config k = some l[k] := by
  have hstop : L.stop config ≤ l.length := stop_le (hbehind l.length (Nat.le_refl _))
  constructor
  · intro hread k hk
    have hle : (L.readAll config).length ≤ L.stop config :=
      Nat.le_trans (List.length_filterMap_le _ _) (Nat.le_of_eq List.length_range)
    have hlength : (L.readAll config).length = L.stop config := by
      rw [hread] at hle ⊢
      omega
    have hentry := getElem?_filterMap_range hlength k (by rw [← hlength, hread]; exact hk)
    rw [← hentry]
    exact (congrArg (·[k]?) hread).trans (List.getElem?_eq_getElem hk)
  · intro hread
    have heq : L.stop config = l.length := by
      refine Nat.le_antisymm hstop (Nat.le_of_not_lt fun hlt => ?_)
      have hnone := L.read_of_stops config _ (Nat.find_spec (L.exists_stops config))
      have hsome := hread (L.stop config) hlt
      exact absurd (hnone.symm.trans hsome) (by simp)
    have hsome : ∀ k ∈ List.range l.length, (L.read config k).isSome = true := by
      intro k hk
      rw [hread k (List.mem_range.mp hk)]
      rfl
    have hlength := (List.filterMap_length_eq_length.mpr hsome).trans List.length_range
    rw [readAll, heq]
    refine List.ext_getElem hlength fun k hk hk' => ?_
    have hentry := getElem?_filterMap_range hlength k hk'
    rw [hread k hk', List.getElem?_eq_getElem hk] at hentry
    exact Option.some.inj hentry

/-! ## Writing -/

theorem lookup_clean_of_ne (h : ∀ j, i ≤ j → sec ≠ numbered L.name j) :
    (L.clean config i).lookup sec = config.lookup sec := by
  have hall : ∀ (ms : List Nat) (config : LpConfig), (∀ m ∈ ms, i ≤ m) →
      (ms.foldl (fun config m => config.cleanSection (numbered L.name m)) config).lookup sec =
        config.lookup sec := by
    intro ms
    induction ms with
    | nil => exact fun config _ => rfl
    | cons m ms ih =>
      intro config hms
      rw [List.foldl_cons, ih _ fun m' h' => hms m' (List.mem_cons_of_mem m h')]
      exact AList.lookup_erase_ne (h m (hms m List.mem_cons_self))
  exact hall (L.cleaned i) config (L.le_cleaned i)

theorem mem_clean_iff : numbered L.name m ∈ L.clean config i ↔
    numbered L.name m ∈ config ∧ m ∉ L.cleaned i := by
  have hall : ∀ (ms : List Nat) (config : LpConfig), numbered L.name m ∈
      ms.foldl (fun config m => config.cleanSection (numbered L.name m)) config ↔
        numbered L.name m ∈ config ∧ m ∉ ms := by
    intro ms
    induction ms with
    | nil => exact fun config => by simp
    | cons m' ms ih =>
      intro config
      have hinj : numbered L.name m = numbered L.name m' ↔ m = m' :=
        ⟨numbered_inj, fun h => by rw [h]⟩
      rw [List.foldl_cons, ih, LpConfig.cleanSection, AList.mem_erase, ne_eq, hinj,
        List.mem_cons, not_or]
      exact ⟨fun h => ⟨h.1.2, h.1.1, h.2⟩, fun h => ⟨⟨h.2.1, h.1⟩, h.2.2⟩⟩
  exact hall (L.cleaned i) config

theorem lookup_writeFrom_of_ne (h : ∀ j, i ≤ j → sec ≠ numbered L.name j) :
    (L.writeFrom config i l).lookup sec = config.lookup sec := by
  induction l generalizing config i with
  | nil => exact lookup_clean_of_ne h
  | cons e l ih =>
    rw [writeFrom, ih fun j hj => h j (Nat.le_of_succ_le hj)]
    exact L.lookup_write config e i sec (h i (Nat.le_refl i))

theorem lookup_writeAll_of_head {c : Char} (hname : L.name.toList.head? = some c)
    (hsec : sec.toList.head? ≠ some c) : (L.writeAll config l).lookup sec = config.lookup sec :=
  lookup_writeFrom_of_ne fun j _ => numbered_ne hname hsec j

/-- What was behind the end stays unless it is cleaned. -/
theorem mem_writeFrom_iff (hm : i + l.length ≤ m) : numbered L.name m ∈ L.writeFrom config i l ↔
    numbered L.name m ∈ config ∧ m ∉ L.cleaned (i + l.length) := by
  induction l generalizing config i with
  | nil => exact mem_clean_iff
  | cons e l ih =>
    rw [List.length_cons] at hm
    have hne : numbered L.name m ≠ numbered L.name i := fun h => by
      have := numbered_inj h
      omega
    have hlength : i + 1 + l.length = i + (e :: l).length := by
      rw [List.length_cons]
      omega
    rw [writeFrom, ih (by omega), hlength, ← AList.lookup_isSome,
      L.lookup_write config e i _ hne, AList.lookup_isSome]

/-- An entry is written to its section, over a configuration that differs in sections before it. -/
theorem exists_lookup_writeFrom (config : LpConfig) {k : Nat} (hk : k < l.length) :
    ∃ before : LpConfig,
      (∀ sec, (∀ j, i ≤ j → j < i + k → sec ≠ numbered L.name j) →
        before.lookup sec = config.lookup sec) ∧
      (L.writeFrom config i l).lookup (numbered L.name (i + k)) =
        (L.write before l[k] (i + k)).lookup (numbered L.name (i + k)) := by
  induction l generalizing config i k with
  | nil => exact absurd hk (Nat.not_lt_zero k)
  | cons e l ih =>
    cases k with
    | zero =>
      refine ⟨config, fun _ _ => rfl, ?_⟩
      rw [writeFrom, Nat.add_zero]
      exact lookup_writeFrom_of_ne fun j hj h => by
        have := numbered_inj h
        omega
    | succ k =>
      obtain ⟨before, hbefore, hlookup⟩ := ih (i := i + 1) (L.write config e i)
        (Nat.lt_of_succ_lt_succ hk)
      rw [show i + 1 + k = i + (k + 1) by omega] at hbefore hlookup
      refine ⟨before, fun sec hsec => ?_, hlookup⟩
      rw [hbefore sec fun j hj hj' => hsec j (by omega) hj']
      exact L.lookup_write config e i sec (hsec i (Nat.le_refl i) (by omega))

/-! ## A list that is kept -/

variable {settings : String → String → Prop} {Kept : LpConfig → α → Nat → Prop}

/-- **A list is saved exactly if each of its entries is kept, and what was behind it is cleaned.**
The configuration that is read may differ in what does not concern the list. -/
theorem Keeps.saved_iff (h : L.Keeps settings Kept)
    (hlookup : ∀ m, config'.lookup (numbered L.name m) =
      (L.writeAll config l).lookup (numbered L.name m))
    (hsettings : ∀ sec key, settings sec key →
      config'.getString sec key = config.getString sec key) :
    L.Saved config' l ↔ (∀ k (hk : k < l.length), Kept config l[k] k) ∧
      ∀ m, l.length ≤ m → numbered L.name m ∈ config → m ∈ L.cleaned l.length := by
  have hbehind : (∀ m, l.length ≤ m → numbered L.name m ∉ config') ↔
      ∀ m, l.length ≤ m → numbered L.name m ∈ config → m ∈ L.cleaned l.length := by
    refine forall₂_congr fun m hm => ?_
    have hmem : numbered L.name m ∈ L.writeFrom config 0 l ↔
        numbered L.name m ∈ config ∧ m ∉ L.cleaned (0 + l.length) :=
      mem_writeFrom_iff (by rwa [Nat.zero_add])
    rw [Nat.zero_add] at hmem
    rw [← AList.lookup_isSome, hlookup m, AList.lookup_isSome, writeAll, hmem, not_and_not_right]
  have hentry : ∀ k (hk : k < l.length),
      L.read config' k = some l[k] ↔ Kept config l[k] k := by
    intro k hk
    obtain ⟨before, hbefore, hwritten⟩ := exists_lookup_writeFrom (L := L) (i := 0) config hk
    rw [Nat.zero_add] at hbefore hwritten
    have hset : ∀ sec key, settings sec key →
        before.getString sec key = config.getString sec key := fun sec key hs =>
      LpConfig.getString_of_lookup_eq (hbefore sec fun j _ _ => h.settings_ne sec key hs j) key
    refine (h.read_iff before config' l[k] k ((hlookup k).trans hwritten) fun sec key hs =>
      (hsettings sec key hs).trans (hset sec key hs).symm).trans ?_
    refine h.congr config before l[k] k (hbefore _ fun j _ hj heq => ?_) hset
    have := numbered_inj heq
    omega
  constructor
  · rintro ⟨hread, hnone⟩
    have hall := (readAll_eq_iff hnone).mp hread
    exact ⟨fun k hk => (hentry k hk).mp (hall k hk), hbehind.mp hnone⟩
  · rintro ⟨hall, hclean⟩
    have hnone := hbehind.mpr hclean
    exact ⟨(readAll_eq_iff hnone).mpr fun k hk => (hentry k hk).mpr (hall k hk), hnone⟩

/-- The same of a list that is written over a configuration which differs in what does not concern
the list. -/
theorem Keeps.saved_over_iff (h : L.Keeps settings Kept) {before : LpConfig}
    (hbefore : ∀ m, before.lookup (numbered L.name m) = config.lookup (numbered L.name m))
    (hsame : ∀ sec key, settings sec key → before.getString sec key = config.getString sec key)
    (hlookup : ∀ m, config'.lookup (numbered L.name m) =
      (L.writeAll before l).lookup (numbered L.name m))
    (hsettings : ∀ sec key, settings sec key →
      config'.getString sec key = before.getString sec key) :
    L.Saved config' l ↔ (∀ k (hk : k < l.length), Kept config l[k] k) ∧
      ∀ m, l.length ≤ m → numbered L.name m ∈ config → m ∈ L.cleaned l.length := by
  have hmem : ∀ m, numbered L.name m ∈ before ↔ numbered L.name m ∈ config := fun m => by
    rw [← AList.lookup_isSome, hbefore, AList.lookup_isSome]
  have hkept : ∀ e k, Kept before e k ↔ Kept config e k :=
    fun e k => h.congr config before e k (hbefore k) hsame
  rw [h.saved_iff hlookup hsettings]
  simp only [hmem, hkept]

end NumberedList

end Linphone

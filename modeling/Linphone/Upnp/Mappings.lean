import Linphone.Upnp.Config
import Mathlib.Data.List.Nodup

/-!
# What the configuration lists

Additions and removals of mappings on any number of devices, interleaved with flushes.

`listed_of_run`: as long as what an addition or a removal finds in the queues is for the same
mapping, and keys fit into their buffer, a flush leaves the keys of what is mapped, and a device
reads back its own. `cancelled_elsewhere`: a removal on one device cancels the addition of the same
ports on another.
-/

namespace Linphone

/-! ## Runs -/

/-- What routers have done, and the iterations of the core. -/
inductive MappingEvent
  | added (device : List Char) (port : UpnpPortBinding)
  | removed (device : List Char) (port : UpnpPortBinding)
  | flush

/-- The configuration, and the mappings that there are. -/
structure MappingRun where
  configs : UpnpConfigs := {}
  mapped : List PortMapping := []

namespace UpnpPortBinding

variable (port : UpnpPortBinding) (device : List Char)

def on : UpnpPortBinding := { port with deviceId := some device }

def mappingOn : PortMapping := ⟨device, port.protocol, port.externalPort, port.localPort⟩

@[simp] theorem on_mapping : (port.on device).mapping = some (port.mappingOn device) := rfl

end UpnpPortBinding

/-- The keys are those of the mappings, and each device reads back its own mappings. -/
def UpnpConfigs.Lists (c : UpnpConfigs) (mapped : List PortMapping) : Prop :=
  c.keys.Perm (mapped.map PortMapping.key) ∧
    ∀ deviceId id, formatDeviceId deviceId = some id →
      ∃ ports, listPortBindings c.keys deviceId = some ports ∧
        (ports.map UpnpPortBinding.mapping).Perm ((mapped.filter (·.device = id)).map some)

namespace MappingRun

def step (s : MappingRun) : MappingEvent → MappingRun
  | .added device port =>
      { configs := s.configs.addPortBinding (port.on device)
        mapped := s.mapped.insert (port.mappingOn device) }
  | .removed device port =>
      { configs := s.configs.removePortBinding (port.on device)
        mapped := s.mapped.erase (port.mappingOn device) }
  | .flush => { s with configs := s.configs.updateConfig }

def run (s : MappingRun) (events : List MappingEvent) : MappingRun := events.foldl step s

/-- What is queued for a binding is for its own mapping; what it cancels was queued for a reason. -/
def FindsOwn (opposite queue : List UpnpPortBinding) (port : UpnpPortBinding) (due : Prop) : Prop :=
  (∀ p ∈ opposite.find? (·.equal port), p.mapping = port.mapping ∧ due) ∧
    (opposite.find? (·.equal port) = none →
      ∀ p ∈ queue.find? (·.equal port), p.mapping = port.mapping)

instance (opposite queue : List UpnpPortBinding) (port : UpnpPortBinding) (due : Prop)
    [Decidable due] : Decidable (FindsOwn opposite queue port due) :=
  inferInstanceAs (Decidable (_ ∧ _))

/-- An addition that cancels a removal finds the key written, a removal that cancels an addition
does not. -/
def Clean (s : MappingRun) : MappingEvent → Prop
  | .added device port => (port.mappingOn device).Fits ∧
      FindsOwn s.configs.removing s.configs.adding (port.on device)
        ((port.mappingOn device).key ∈ s.configs.keys)
  | .removed device port => (port.mappingOn device).Fits ∧
      FindsOwn s.configs.adding s.configs.removing (port.on device)
        ((port.mappingOn device).key ∉ s.configs.keys)
  | .flush => True

/-- All steps of a run are. -/
def CleanRun (s : MappingRun) : List MappingEvent → Prop
  | [] => True
  | e :: events => s.Clean e ∧ CleanRun (s.step e) events

/-- What a core starts with: the keys that an earlier run has left. -/
structure Starts (s : MappingRun) : Prop where
  adding : s.configs.adding = []
  removing : s.configs.removing = []
  keys : s.configs.keys.Perm (s.mapped.map PortMapping.key)
  nodup : s.mapped.Nodup
  fits : ∀ m ∈ s.mapped, m.Fits

end MappingRun

/-! ## Queues -/

/-- The mappings of a queue. -/
def queued (queue : List UpnpPortBinding) : List (Option PortMapping) :=
  queue.map UpnpPortBinding.mapping

section queues

variable {opposite queue : List UpnpPortBinding} {port p : UpnpPortBinding} {m : PortMapping}

theorem equal_of_mapping (hm : port.mapping = some m) (h : p.mapping = some m) :
    p.equal port = true := by
  obtain ⟨_, _, rfl⟩ := Option.map_eq_some_iff.mp hm
  obtain ⟨_, _, heq⟩ := Option.map_eq_some_iff.mp h
  obtain ⟨_, hprotocol, hexternal, hlocal⟩ := (PortMapping.mk.injEq ..).mp heq
  simp [UpnpPortBinding.equal, hprotocol, hexternal, hlocal]

theorem copy_mapping (hm : port.mapping = some m) (hfits : m.Fits) :
    port.copy.mapping = some m := by
  obtain ⟨id, hid, rfl⟩ := Option.map_eq_some_iff.mp hm
  have hformatted : formatDeviceId id = some id := hfits.formatted
  simp [UpnpPortBinding.mapping, UpnpPortBinding.copy, hid, hformatted]

/-- A binding takes one mapping with it. -/
theorem mem_queued_erase (hnodup : (queued queue).Nodup) (hp : p ∈ queue) (x : Option PortMapping) :
    x ∈ queued (queue.erase p) ↔ x ∈ queued queue ∧ x ≠ p.mapping := by
  have hperm : (queued queue).Perm (p.mapping :: queued (queue.erase p)) :=
    (List.perm_cons_erase hp).map _
  have hnot : p.mapping ∉ queued (queue.erase p) := (List.nodup_cons.mp (hperm.nodup hnodup)).1
  rw [hperm.mem_iff, List.mem_cons]
  constructor
  · intro hx
    exact ⟨.inr hx, fun heq => hnot (heq ▸ hx)⟩
  · rintro ⟨heq | hx, hne⟩
    · exact absurd heq hne
    · exact hx

theorem not_mem_queued_of_find? (hm : port.mapping = some m)
    (h : queue.find? (·.equal port) = none) : some m ∉ queued queue := by
  intro hmem
  obtain ⟨p, hp, hpm⟩ := List.mem_map.mp hmem
  exact absurd (equal_of_mapping hm hpm) (by simpa using List.find?_eq_none.mp h p hp)

/-- What a binding does to the two lists, when what it finds is its own. -/
structure Queues (opposite queue : List UpnpPortBinding) (m : PortMapping) (due : Prop)
    (after : List UpnpPortBinding × List UpnpPortBinding) : Prop where
  mem₁ : ∀ x, x ∈ queued after.1 ↔ x ∈ queued opposite ∧ x ≠ some m
  mem₂ : ∀ x, x ∈ queued after.2 ↔
    x ∈ queued queue ∨ x = some m ∧ some m ∉ queued opposite
  nodup₁ : (queued after.1).Nodup
  nodup₂ : (queued after.2).Nodup
  due : some m ∈ queued opposite → due

/-- **`linphone_upnp_config_add_port_binding`** and **`linphone_upnp_config_remove_port_binding`**
-/
theorem queuePortBinding_queues {due : Prop} (hm : port.mapping = some m) (hfits : m.Fits)
    (hopposite : (queued opposite).Nodup) (hqueue : (queued queue).Nodup)
    (hfinds : MappingRun.FindsOwn opposite queue port due) :
    Queues opposite queue m due (queuePortBinding opposite queue port) := by
  have hid : port.deviceId ≠ none := by
    intro hnone
    simp [UpnpPortBinding.mapping, hnone] at hm
  unfold queuePortBinding
  rw [if_neg hid]
  cases hfind : opposite.find? (·.equal port) with
  | some p =>
      obtain ⟨hown, hdue⟩ := hfinds.1 p hfind
      have hp := List.mem_of_find?_eq_some hfind
      have hmem : some m ∈ queued opposite := List.mem_map.mpr ⟨p, hp, hown.trans hm⟩
      refine ⟨fun x => ?_, fun x => ?_, ?_, hqueue, fun _ => hdue⟩
      · rw [mem_queued_erase hopposite hp, hown, hm]
      · simp [hmem]
      · exact hopposite.sublist (List.erase_sublist.map _)
  | none =>
      have hnot := not_mem_queued_of_find? hm hfind
      have hopp : ∀ x, x ∈ queued opposite ↔ x ∈ queued opposite ∧ x ≠ some m := by
        intro x
        exact ⟨fun hx => ⟨hx, fun heq => hnot (heq ▸ hx)⟩, And.left⟩
      dsimp only
      split
      · rename_i hany
        obtain ⟨p, hp⟩ : ∃ p, queue.find? (·.equal port) = some p := by
          rw [← Option.isSome_iff_exists, List.find?_isSome]
          simpa using hany
        have hmem : some m ∈ queued queue :=
          List.mem_map.mpr ⟨p, List.mem_of_find?_eq_some hp, (hfinds.2 hfind p hp).trans hm⟩
        refine ⟨hopp, fun x => ?_, hopposite, hqueue, fun h => absurd h hnot⟩
        constructor
        · exact .inl
        · rintro (hx | ⟨rfl, -⟩)
          · exact hx
          · exact hmem
      · rename_i hany
        have hnone : queue.find? (·.equal port) = none := by
          rw [List.find?_eq_none]
          simpa using hany
        have hqueued : queued (queue ++ [port.copy]) = queued queue ++ [some m] := by
          rw [queued, List.map_append, List.map_singleton, copy_mapping hm hfits]
          rfl
        refine ⟨hopp, fun x => ?_, hopposite, ?_, fun h => absurd h hnot⟩
        · rw [hqueued]
          simp [hnot]
        · rw [hqueued, List.nodup_append]
          refine ⟨hqueue, by simp, fun x hx y hy heq => ?_⟩
          rw [List.mem_singleton.mp hy] at heq
          exact not_mem_queued_of_find? hm hnone (heq ▸ hx)

end queues

/-! ## Invariant -/

/-- What is mapped is what is listed or about to be, less what is about to be removed. -/
structure MappingRun.Inv (s : MappingRun) : Prop where
  mapped : s.mapped.Nodup
  keys : s.configs.keys.Nodup
  adding : (queued s.configs.adding).Nodup
  removing : (queued s.configs.removing).Nodup
  known : ∀ x, x ∈ queued s.configs.adding ∨ x ∈ queued s.configs.removing →
    ∃ m : PortMapping, x = some m ∧ m.Fits
  fits : ∀ m ∈ s.mapped, m.Fits
  written : ∀ k ∈ s.configs.keys, ∃ m : PortMapping, m.Fits ∧ m.key = k
  disjoint : ∀ x ∈ queued s.configs.adding, x ∉ queued s.configs.removing
  mem : ∀ m : PortMapping, m.Fits → (m ∈ s.mapped ↔ some m ∈ queued s.configs.adding ∨
    m.key ∈ s.configs.keys ∧ some m ∉ queued s.configs.removing)

section inv

variable {s : MappingRun} {m : PortMapping}

open MappingRun

theorem mem_map_key_iff {l : List PortMapping} (hl : ∀ x ∈ l, x.Fits) (hm : m.Fits) :
    m.key ∈ l.map PortMapping.key ↔ m ∈ l := by
  constructor
  · intro h
    obtain ⟨x, hx, heq⟩ := List.mem_map.mp h
    exact eq_of_key_eq (hl x hx) hm heq ▸ hx
  · exact List.mem_map_of_mem

theorem nodup_map_key {l : List PortMapping} (hl : ∀ x ∈ l, x.Fits) (hnodup : l.Nodup) :
    (l.map PortMapping.key).Nodup :=
  List.Nodup.map_on (fun _ hx _ hy heq => eq_of_key_eq (hl _ hx) (hl _ hy) heq) hnodup

theorem inv_of_starts (h : s.Starts) : s.Inv where
  mapped := h.nodup
  keys := h.keys.nodup_iff.mpr (nodup_map_key h.fits h.nodup)
  adding := by simp [h.adding, queued]
  removing := by simp [h.removing, queued]
  known := by simp [h.adding, h.removing, queued]
  fits := h.fits
  written := fun k hk => by
    obtain ⟨m, hm, rfl⟩ := List.mem_map.mp (h.keys.mem_iff.mp hk)
    exact ⟨m, h.fits m hm, rfl⟩
  disjoint := by simp [h.adding, queued]
  mem := fun m hm => by
    rw [h.keys.mem_iff, mem_map_key_iff h.fits hm]
    simp [h.adding, h.removing, queued]

theorem added_configs (device : List Char) (port : UpnpPortBinding) :
    (s.step (.added device port)).configs = { s.configs with
      adding := (queuePortBinding s.configs.removing s.configs.adding (port.on device)).2
      removing := (queuePortBinding s.configs.removing s.configs.adding (port.on device)).1 } := rfl

theorem removed_configs (device : List Char) (port : UpnpPortBinding) :
    (s.step (.removed device port)).configs = { s.configs with
      adding := (queuePortBinding s.configs.adding s.configs.removing (port.on device)).1
      removing := (queuePortBinding s.configs.adding s.configs.removing (port.on device)).2 } := rfl

theorem inv_added (h : s.Inv) {device : List Char} {port : UpnpPortBinding}
    (hclean : s.Clean (.added device port)) : (s.step (.added device port)).Inv := by
  obtain ⟨hfits, hfinds⟩ := hclean
  have hq := queuePortBinding_queues (port.on_mapping device) hfits h.removing h.adding hfinds
  have hknown : ∀ x, x ∈ queued (s.step (.added device port)).configs.adding ∨
      x ∈ queued (s.step (.added device port)).configs.removing →
      ∃ m : PortMapping, x = some m ∧ m.Fits := by
    intro x hx
    rcases hx with hx | hx
    · rcases (hq.mem₂ x).mp hx with hx | ⟨rfl, -⟩
      · exact h.known x (.inl hx)
      · exact ⟨_, rfl, hfits⟩
    · exact h.known x (.inr ((hq.mem₁ x).mp hx).1)
  refine ⟨h.mapped.insert, h.keys, hq.nodup₂, hq.nodup₁, hknown, fun m hm => ?_, h.written,
    fun x hx hx' => ?_, fun m hm => ?_⟩
  · rcases List.mem_insert_iff.mp hm with rfl | hm
    · exact hfits
    · exact h.fits m hm
  · obtain ⟨hremoving, hne⟩ := (hq.mem₁ x).mp hx'
    rcases (hq.mem₂ x).mp hx with hx | ⟨rfl, -⟩
    · exact h.disjoint x hx hremoving
    · exact hne rfl
  · have hadding := hq.mem₂ (some m)
    have hremoving := hq.mem₁ (some m)
    refine List.mem_insert_iff.trans ?_
    rw [added_configs]
    dsimp only
    rw [hadding, hremoving, h.mem m hm]
    by_cases heq : m = port.mappingOn device
    · subst heq
      by_cases hcancels : some (port.mappingOn device) ∈ queued s.configs.removing
      · simp [hq.due hcancels]
      · simp [hcancels]
    · have hne : some m ≠ some (port.mappingOn device) := fun hsome => heq (Option.some.inj hsome)
      simp [heq]

theorem inv_removed (h : s.Inv) {device : List Char} {port : UpnpPortBinding}
    (hclean : s.Clean (.removed device port)) : (s.step (.removed device port)).Inv := by
  obtain ⟨hfits, hfinds⟩ := hclean
  have hq := queuePortBinding_queues (port.on_mapping device) hfits h.adding h.removing hfinds
  have hknown : ∀ x, x ∈ queued (s.step (.removed device port)).configs.adding ∨
      x ∈ queued (s.step (.removed device port)).configs.removing →
      ∃ m : PortMapping, x = some m ∧ m.Fits := by
    intro x hx
    rcases hx with hx | hx
    · exact h.known x (.inl ((hq.mem₁ x).mp hx).1)
    · rcases (hq.mem₂ x).mp hx with hx | ⟨rfl, -⟩
      · exact h.known x (.inr hx)
      · exact ⟨_, rfl, hfits⟩
  refine ⟨h.mapped.erase _, h.keys, hq.nodup₁, hq.nodup₂, hknown,
    fun m hm => h.fits m (List.mem_of_mem_erase hm), h.written, fun x hx hx' => ?_, fun m hm => ?_⟩
  · obtain ⟨hadding, hne⟩ := (hq.mem₁ x).mp hx
    rcases (hq.mem₂ x).mp hx' with hx' | ⟨rfl, -⟩
    · exact h.disjoint x hadding hx'
    · exact hne rfl
  · have hadding := hq.mem₁ (some m)
    have hremoving := hq.mem₂ (some m)
    refine h.mapped.mem_erase_iff.trans ?_
    rw [removed_configs]
    dsimp only
    rw [hadding, hremoving, h.mem m hm]
    by_cases heq : m = port.mappingOn device
    · subst heq
      by_cases hcancels : some (port.mappingOn device) ∈ queued s.configs.adding
      · simp [hq.due hcancels]
      · simp [hcancels]
    · have hne : some m ≠ some (port.mappingOn device) := fun hsome => heq (Option.some.inj hsome)
      simp [heq]

/-! ## Flushes -/

theorem mem_foldl_setKey {keys ks : List (List Char)} {k : List Char} :
    k ∈ ks.foldl UpnpConfigs.setKey keys ↔ k ∈ keys ∨ k ∈ ks := by
  induction ks generalizing keys with
  | nil => simp
  | cons x ks ih =>
      rw [List.foldl_cons, ih, UpnpConfigs.setKey]
      split
      · rename_i hx
        rw [List.mem_cons]
        constructor
        · rintro (h | h)
          · exact .inl h
          · exact .inr (.inr h)
        · rintro (h | rfl | h)
          · exact .inl h
          · exact .inl hx
          · exact .inr h
      · simp [or_assoc]

theorem nodup_foldl_setKey {keys ks : List (List Char)} (h : keys.Nodup) :
    (ks.foldl UpnpConfigs.setKey keys).Nodup := by
  induction ks generalizing keys with
  | nil => exact h
  | cons x ks ih =>
      refine ih ?_
      unfold UpnpConfigs.setKey
      split
      · exact h
      · rename_i hx
        rw [List.nodup_append]
        refine ⟨h, by simp, fun a ha b hb heq => ?_⟩
        rw [List.mem_singleton.mp hb] at heq
        exact hx (heq ▸ ha)

theorem mem_foldl_erase {keys ks : List (List Char)} {k : List Char} (h : keys.Nodup) :
    k ∈ ks.foldl List.erase keys ↔ k ∈ keys ∧ k ∉ ks := by
  induction ks generalizing keys with
  | nil => simp
  | cons x ks ih =>
      rw [List.foldl_cons, ih (h.erase x), h.mem_erase_iff]
      simp only [List.mem_cons, not_or]
      constructor
      · rintro ⟨⟨hne, hk⟩, hks⟩
        exact ⟨hk, hne, hks⟩
      · rintro ⟨hk, hne, hks⟩
        exact ⟨⟨hne, hk⟩, hks⟩

theorem nodup_foldl_erase {keys ks : List (List Char)} (h : keys.Nodup) :
    (ks.foldl List.erase keys).Nodup := by
  induction ks generalizing keys with
  | nil => exact h
  | cons x ks ih => exact ih (h.erase x)

theorem mem_map_configKey {queue : List UpnpPortBinding}
    (hknown : ∀ x ∈ queued queue, ∃ m : PortMapping, x = some m ∧ m.Fits) (hm : m.Fits) :
    m.key ∈ queue.map configKey ↔ some m ∈ queued queue := by
  constructor
  · intro h
    obtain ⟨p, hp, heq⟩ := List.mem_map.mp h
    obtain ⟨m', hm', hfits⟩ := hknown p.mapping (List.mem_map_of_mem hp)
    rw [configKey_eq hm' hfits] at heq
    obtain rfl := eq_of_key_eq hfits hm heq
    exact List.mem_map.mpr ⟨p, hp, hm'⟩
  · intro h
    obtain ⟨p, hp, hpm⟩ := List.mem_map.mp h
    exact List.mem_map.mpr ⟨p, hp, configKey_eq hpm hm⟩

theorem mem_updateConfig (h : s.Inv) (hm : m.Fits) :
    m.key ∈ s.configs.updateConfig.keys ↔ m ∈ s.mapped := by
  change m.key ∈ (s.configs.removing.map configKey).foldl List.erase
    ((s.configs.adding.map configKey).foldl UpnpConfigs.setKey s.configs.keys) ↔ _
  rw [mem_foldl_erase (nodup_foldl_setKey h.keys), mem_foldl_setKey,
    mem_map_configKey (fun x hx => h.known x (.inl hx)) hm,
    mem_map_configKey (fun x hx => h.known x (.inr hx)) hm, h.mem m hm]
  constructor
  · rintro ⟨hk | hadding, hremoving⟩
    · exact .inr ⟨hk, hremoving⟩
    · exact .inl hadding
  · rintro (hadding | ⟨hk, hremoving⟩)
    · exact ⟨.inr hadding, h.disjoint _ hadding⟩
    · exact ⟨.inl hk, hremoving⟩

theorem inv_flush (h : s.Inv) : (s.step .flush).Inv where
  mapped := h.mapped
  keys := nodup_foldl_erase (nodup_foldl_setKey h.keys)
  adding := by simp [step, UpnpConfigs.updateConfig, queued]
  removing := by simp [step, UpnpConfigs.updateConfig, queued]
  known := by simp [step, UpnpConfigs.updateConfig, queued]
  fits := h.fits
  written := fun k hk => by
    have hk' := (mem_foldl_erase (nodup_foldl_setKey h.keys)).mp hk
    rcases mem_foldl_setKey.mp hk'.1 with hk | hk
    · exact h.written k hk
    · obtain ⟨p, hp, rfl⟩ := List.mem_map.mp hk
      obtain ⟨m, hm, hfits⟩ := h.known p.mapping (.inl (List.mem_map_of_mem hp))
      exact ⟨m, hfits, (configKey_eq hm hfits).symm⟩
  disjoint := by simp [step, UpnpConfigs.updateConfig, queued]
  mem := fun m hm => by
    rw [show (s.step .flush).configs = s.configs.updateConfig from rfl, mem_updateConfig h hm]
    simp [step, UpnpConfigs.updateConfig, queued]

theorem inv_step (h : s.Inv) {e : MappingEvent} (hclean : s.Clean e) : (s.step e).Inv := by
  cases e with
  | added device port => exact inv_added h hclean
  | removed device port => exact inv_removed h hclean
  | flush => exact inv_flush h

theorem inv_run (h : s.Inv) {events : List MappingEvent} (hclean : s.CleanRun events) :
    (s.run events).Inv := by
  induction events generalizing s with
  | nil => exact h
  | cons e events ih => exact ih (inv_step h hclean.1) hclean.2

/-! ## Reading back -/

theorem perm_of_flush (h : s.Inv) :
    s.configs.updateConfig.keys.Perm (s.mapped.map PortMapping.key) := by
  refine (List.perm_ext_iff_of_nodup (inv_flush h).keys (nodup_map_key h.fits h.mapped)).mpr
    fun k => ?_
  constructor
  · intro hk
    obtain ⟨m, hm, rfl⟩ := (inv_flush h).written k hk
    exact List.mem_map_of_mem ((mem_updateConfig h hm).mp hk)
  · intro hk
    obtain ⟨m, hm, rfl⟩ := List.mem_map.mp hk
    exact (mem_updateConfig h (h.fits m hm)).mpr hm

theorem filterMap_listed {l : List PortMapping} (hl : ∀ x ∈ l, x.Fits) (id : List Char) :
    ((l.map PortMapping.key).filterMap (listPortBindingsCb id)).map UpnpPortBinding.mapping =
      (l.filter (·.device = id)).map some := by
  induction l with
  | nil => rfl
  | cons x l ih =>
      have hx := listPortBindingsCb_key (hl x (by simp)) id
      have ih := ih fun y hy => hl y (List.mem_cons_of_mem x hy)
      by_cases hid : x.device = id
      · rw [if_pos hid] at hx
        obtain ⟨p, hp, hpm⟩ := Option.map_eq_some_iff.mp hx
        rw [List.map_cons, List.filterMap_cons_some hp, List.map_cons, hpm, ih]
        simp [hid]
      · rw [if_neg hid] at hx
        rw [List.map_cons, List.filterMap_cons_none (Option.map_eq_none_iff.mp hx), ih]
        simp [hid]

theorem lists_of_perm {c : UpnpConfigs} {l : List PortMapping} (hl : ∀ x ∈ l, x.Fits)
    (hperm : c.keys.Perm (l.map PortMapping.key)) : c.Lists l := by
  refine ⟨hperm, fun deviceId id hid => ?_⟩
  refine ⟨listedOn c.keys id, by rw [listPortBindings, hid]; rfl, ?_⟩
  rw [← filterMap_listed hl]
  exact (hperm.filterMap _).map _

/-- **A flush leaves the keys of what is mapped, and each device reads back its own mappings**, in
runs whose additions and removals find their own entries in the queues. -/
theorem listed_of_run (h : s.Starts) {events : List MappingEvent} (hclean : s.CleanRun events) :
    ((s.run events).step .flush).configs.Lists (s.run events).mapped := by
  have hinv := inv_run (inv_of_starts h) hclean
  exact lists_of_perm hinv.fits (perm_of_flush hinv)

end inv

section runs

open MappingRun

/-- The SIP port of a core. -/
def sipMapping : UpnpPortBinding := { localPort := 5060, externalPort := 5060 }

theorem sipMapping_fits : (sipMapping.mappingOn "router".toList).Fits :=
  ⟨⟨"router".toList, by decide⟩, by decide, by decide, by decide⟩

theorem listed_of_sipMapping :
    ((run {} [.added "router".toList sipMapping, .flush, .removed "router".toList sipMapping,
      .added "router".toList sipMapping]).step .flush).configs.Lists
        [sipMapping.mappingOn "router".toList] := by
  have hclean : CleanRun {} [.added "router".toList sipMapping, .flush,
      .removed "router".toList sipMapping, .added "router".toList sipMapping] :=
    ⟨⟨sipMapping_fits, by decide⟩, trivial, ⟨sipMapping_fits, by decide⟩,
      ⟨sipMapping_fits, by decide⟩, trivial⟩
  have hstarts : Starts {} := ⟨rfl, rfl, by decide, by decide, by simp⟩
  exact listed_of_run hstarts hclean

/-- A binding moves from one router to another, and its removal on the first comes last: it cancels
the addition on the second, and the key of the first stays. -/
theorem cancelled_elsewhere :
    ¬((run {} [.added "first".toList sipMapping, .flush, .added "second".toList sipMapping,
      .removed "first".toList sipMapping]).step .flush).configs.Lists
        [sipMapping.mappingOn "second".toList] := by
  intro h
  exact absurd h.1 (by decide)

end runs

end Linphone

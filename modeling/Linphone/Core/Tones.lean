import Linphone.Chat.Incoming
import Linphone.Lib.LastWrite

/-!
# Tones

The tones of a core and the setters of `coreapi/misc.c`. The tones to be played upon a call failure
and the telephony tones share one list, and `_linphone_core_set_tone` looks for the entry to be
replaced by its reason alone. The tones of the second kind all have `LinphoneReasonNone`, so at most
one of them is in the list.

`tones_kept_iff`: each tone is the last one set exactly as long as no telephony tone that has a file
is followed by other telephony tones without being set again.
-/

namespace Linphone

inductive LinphoneToneID
  | undefined | busy | callWaiting | callOnHold | callLost
deriving DecidableEq

structure LinphoneToneDescription where
  reason : LinphoneReason
  toneid : LinphoneToneID
  audiofile : Option String
deriving DecidableEq

/-- `lc->tones` -/
abbrev Tones := List LinphoneToneDescription

namespace Tones

/-! ## The list -/

/-- `linphone_core_get_call_error_tone` -/
def getCallErrorTone (tones : Tones) (reason : LinphoneReason) : Option LinphoneToneDescription :=
  match tones with
  | [] => none
  | tone :: elem => if tone.reason = reason then some tone else getCallErrorTone elem reason

/-- `linphone_core_get_tone_file` -/
def getToneFile (tones : Tones) (id : LinphoneToneID) : Option String :=
  match tones with
  | [] => none
  | tone :: elem =>
    if tone.toneid = id ∧ tone.reason = .none ∧ tone.audiofile ≠ none then tone.audiofile
    else getToneFile elem id

/-- `_linphone_core_set_tone` -/
def setToneOf (tones : Tones) (reason : LinphoneReason) (id : LinphoneToneID)
    (audiofile : Option String) : Tones :=
  let tones := match getCallErrorTone tones reason with
    | some tone => tones.erase tone
    | none => tones
  tones ++ [⟨reason, id, audiofile⟩]

def setCallErrorTone (tones : Tones) (reason : LinphoneReason) (audiofile : Option String) :
    Tones :=
  setToneOf tones reason .undefined audiofile

def setTone (tones : Tones) (id : LinphoneToneID) (audiofile : Option String) : Tones :=
  setToneOf tones .none id audiofile

/-- What `sound_config_read` leaves. -/
def initial : Tones := setToneOf [] .busy .busy none

end Tones

/-- A call of one of the two setters. -/
inductive ToneCall
  | setCallErrorTone (reason : LinphoneReason) (audiofile : Option String)
  | setTone (id : LinphoneToneID) (audiofile : Option String)

namespace ToneCall

def run (tones : Tones) : ToneCall → Tones
  | setCallErrorTone reason audiofile => tones.setCallErrorTone reason audiofile
  | setTone id audiofile => tones.setTone id audiofile

/-- What the call sets. -/
def description : ToneCall → LinphoneToneDescription
  | setCallErrorTone reason audiofile => ⟨reason, .undefined, audiofile⟩
  | setTone id audiofile => ⟨.none, id, audiofile⟩

end ToneCall

/-- The tones after some calls. -/
def Tones.after (calls : List ToneCall) : Tones := calls.foldl ToneCall.run Tones.initial

/-! ## What was set last -/

/-- The descriptions set so far, the one of `sound_config_read` first. -/
def tonesSet (calls : List ToneCall) : List LinphoneToneDescription :=
  ⟨.busy, .busy, none⟩ :: calls.map ToneCall.description

def LinphoneToneDescription.plainKey (tone : LinphoneToneDescription) :
    LinphoneReason × LinphoneToneID :=
  (tone.reason, tone.toneid)

/-- The file last set for a tone id. -/
def lastToneFile (calls : List ToneCall) (id : LinphoneToneID) : Option String :=
  (LastWrite.last LinphoneToneDescription.plainKey (.none, id) (tonesSet calls)).bind (·.audiofile)

/-- The description last set for a reason. -/
def lastCallErrorTone (calls : List ToneCall) (reason : LinphoneReason) :
    Option LinphoneToneDescription :=
  LastWrite.last LinphoneToneDescription.reason reason (tonesSet calls)

/-- Every tone is the one set last. -/
structure TonesKept (calls : List ToneCall) : Prop where
  files : ∀ id, (Tones.after calls).getToneFile id = lastToneFile calls id
  errors : ∀ reason, reason ≠ .none →
    (Tones.after calls).getCallErrorTone reason = lastCallErrorTone calls reason

/-- A telephony tone with a file that is followed by other telephony tones is set again. -/
def TonesSetAgain (calls : List ToneCall) : Prop :=
  ∀ before call after, calls = before ++ call :: after →
    call.description.reason = .none → call.description.audiofile ≠ none →
    (∃ other ∈ after, other.description.reason = .none ∧
      other.description.toneid ≠ call.description.toneid) →
    ∃ again ∈ after, again.description.reason = .none ∧
      again.description.toneid = call.description.toneid

/-! ## The setters write by reason -/

namespace Tones

theorem getCallErrorTone_eq (tones : Tones) (reason : LinphoneReason) :
    tones.getCallErrorTone reason = LastWrite.find LinphoneToneDescription.reason reason tones := by
  induction tones with
  | nil => rfl
  | cons tone elem ih =>
    rw [getCallErrorTone, LastWrite.find, List.find?_cons]
    by_cases h : tone.reason = reason
    · rw [if_pos h, decide_eq_true h]
    · rw [if_neg h, decide_eq_false h]
      exact ih

/-- The entry that is taken out is the first of its reason. -/
theorem setToneOf_eq (tones : Tones) (reason : LinphoneReason) (id : LinphoneToneID)
    (audiofile : Option String) :
    tones.setToneOf reason id audiofile =
      LastWrite.put LinphoneToneDescription.reason tones ⟨reason, id, audiofile⟩ := by
  have herase : (match tones.getCallErrorTone reason with
      | some tone => tones.erase tone
      | none => tones) = tones.eraseP (·.reason = reason) := by
    induction tones with
    | nil => rfl
    | cons tone elem ih =>
      by_cases h : tone.reason = reason
      · rw [getCallErrorTone, if_pos h, List.eraseP_cons_of_pos (by simpa using h)]
        exact List.erase_cons_head tone elem
      · rw [getCallErrorTone, if_neg h, List.eraseP_cons_of_neg (by simpa using h), ← ih]
        cases hfound : getCallErrorTone elem reason with
        | none => rfl
        | some found =>
          rw [getCallErrorTone_eq] at hfound
          have hreason : found.reason = reason := by simpa using List.find?_some hfound
          refine List.erase_cons_tail fun heq => h ?_
          rw [← hreason, eq_of_beq heq]
  rw [setToneOf, LastWrite.put]
  exact congrArg (· ++ _) herase

theorem run_eq (tones : Tones) (call : ToneCall) :
    call.run tones = LastWrite.put LinphoneToneDescription.reason tones call.description := by
  cases call with
  | setCallErrorTone reason audiofile => exact setToneOf_eq _ _ _ _
  | setTone id audiofile => exact setToneOf_eq _ _ _ _

theorem after_eq (calls : List ToneCall) :
    after calls = LastWrite.run LinphoneToneDescription.reason [] (tonesSet calls) := by
  have hrun : ∀ tones : Tones, calls.foldl ToneCall.run tones =
      LastWrite.run LinphoneToneDescription.reason tones (calls.map ToneCall.description) := by
    induction calls with
    | nil => intro tones; rfl
    | cons call calls ih =>
      intro tones
      rw [List.foldl_cons, ih, run_eq]
      rfl
  rw [after, hrun, initial, setToneOf_eq]
  rfl

theorem nodup_after (calls : List ToneCall) :
    ((after calls).map LinphoneToneDescription.reason).Nodup := by
  rw [after_eq]
  exact LastWrite.nodup_run (l := []) List.nodup_nil _

/-- **The tones upon a failure are the last ones set.** -/
theorem getCallErrorTone_after (calls : List ToneCall) (reason : LinphoneReason) :
    (after calls).getCallErrorTone reason = lastCallErrorTone calls reason := by
  rw [getCallErrorTone_eq, after_eq, LastWrite.find_run (l := []) List.nodup_nil, lastCallErrorTone]
  exact Option.or_none

/-- There is at most one telephony tone. -/
theorem getToneFile_eq {tones : Tones} (id : LinphoneToneID)
    (h : (tones.map LinphoneToneDescription.reason).Nodup) :
    tones.getToneFile id =
      (tones.getCallErrorTone .none).bind fun tone =>
        if tone.toneid = id then tone.audiofile else none := by
  induction tones with
  | nil => rfl
  | cons tone elem ih =>
    rw [List.map_cons, List.nodup_cons] at h
    by_cases hreason : tone.reason = .none
    · -- no other entry has this reason
      have hnone : getCallErrorTone elem .none = none := by
        rw [getCallErrorTone_eq]
        refine List.find?_eq_none.mpr fun y hy => ?_
        simp only [decide_eq_true_eq]
        exact fun hy' => h.1 (hreason.trans hy'.symm ▸ List.mem_map_of_mem hy)
      have helem : getToneFile elem id = none := by rw [ih h.2, hnone]; rfl
      rw [getToneFile, getCallErrorTone, if_pos hreason, helem, Option.bind_some]
      by_cases hid : tone.toneid = id
      · cases hfile : tone.audiofile with
        | none => simp
        | some file => simp [hid, hreason]
      · rw [if_neg (fun hc => hid hc.1), if_neg hid]
    · rw [getToneFile, getCallErrorTone, if_neg (fun hc => hreason hc.2.1), if_neg hreason, ih h.2]

theorem getToneFile_after (calls : List ToneCall) (id : LinphoneToneID) :
    (after calls).getToneFile id =
      (lastCallErrorTone calls .none).bind fun tone =>
        if tone.toneid = id then tone.audiofile else none := by
  rw [getToneFile_eq id (nodup_after calls), getCallErrorTone_after]

end Tones

/-! ## When every tone is kept -/

variable {calls : List ToneCall} {tone : LinphoneToneDescription} {id : LinphoneToneID}

/-- What `sound_config_read` sets is no telephony tone. -/
theorem last_tonesSet {κ : Type} [DecidableEq κ] {key : LinphoneToneDescription → κ} {k : κ}
    (h : key ⟨.busy, .busy, none⟩ ≠ k) :
    LastWrite.last key k (tonesSet calls) =
      LastWrite.last key k (calls.map ToneCall.description) := by
  rw [tonesSet, LastWrite.last, if_neg h, Option.or_none]

/-- The call a telephony tone comes from. -/
theorem last_plain_split
    (h : LastWrite.last LinphoneToneDescription.plainKey (.none, id) (tonesSet calls) =
      some tone) :
    tone.reason = .none ∧ tone.toneid = id ∧ ∃ before call after,
      calls = before ++ call :: after ∧ call.description = tone ∧
      ∀ other ∈ after, other.description.reason = .none → other.description.toneid ≠ id := by
  rw [last_tonesSet (by simp [LinphoneToneDescription.plainKey]), LastWrite.last_eq_some_iff] at h
  obtain ⟨hkey, before, after, hsplit, hafter⟩ := h
  obtain ⟨before', rest, rfl, rfl, hrest⟩ := List.map_eq_append_iff.mp hsplit
  obtain ⟨call, after', rfl, rfl, rfl⟩ := List.map_eq_cons_iff.mp hrest
  rw [LinphoneToneDescription.plainKey, Prod.mk.injEq] at hkey
  refine ⟨hkey.1, hkey.2, before', call, after', rfl, rfl, fun other hother hreason hid => ?_⟩
  exact hafter _ (List.mem_map_of_mem hother) (Prod.ext hreason hid)

theorem last_plain_of_last (h : lastCallErrorTone calls .none = some tone) :
    LastWrite.last LinphoneToneDescription.plainKey (.none, tone.toneid) (tonesSet calls) =
      some tone := by
  obtain ⟨hreason, before, after, hsplit, hafter⟩ := LastWrite.last_eq_some_iff.mp h
  refine LastWrite.last_eq_some_iff.mpr
    ⟨Prod.ext hreason rfl, before, after, hsplit, fun other hother hkey => ?_⟩
  exact hafter other hother (Prod.ext_iff.mp hkey).1

theorem files_of_setAgain (h : TonesSetAgain calls) (id : LinphoneToneID) :
    (Tones.after calls).getToneFile id = lastToneFile calls id := by
  rw [Tones.getToneFile_after, lastToneFile]
  cases hid : LastWrite.last LinphoneToneDescription.plainKey (.none, id) (tonesSet calls) with
  | none =>
    cases hlast : lastCallErrorTone calls .none with
    | none => rfl
    | some last =>
      have hne : last.toneid ≠ id := by
        rintro rfl
        rw [last_plain_of_last hlast] at hid
        exact absurd hid (by simp)
      rw [Option.bind_some, if_neg hne]
      rfl
  | some tone =>
    obtain ⟨hreason, rfl, before, call, after, hsplit, hcall, hafter⟩ := last_plain_split hid
    by_cases hother : ∃ other ∈ after, other.description.reason = .none
    · -- another telephony tone was set since: this one has no file
      obtain ⟨other, hmem, hplain⟩ := hother
      have hfile : tone.audiofile = none := by
        by_contra hfile
        subst hcall
        obtain ⟨again, hagain, hagain'⟩ := h before call after hsplit hreason hfile
          ⟨other, hmem, hplain, hafter other hmem hplain⟩
        exact hafter again hagain hagain'.1 hagain'.2
      rw [Option.bind_some, hfile]
      cases hlast : lastCallErrorTone calls .none with
      | none => rfl
      | some last =>
        rw [Option.bind_some]
        split
        · next hsame =>
          have := last_plain_of_last hlast
          rw [hsame, hid, Option.some.injEq] at this
          rw [← this, hfile]
        · rfl
    · have hlast : lastCallErrorTone calls .none = some tone := by
        rw [lastCallErrorTone, last_tonesSet (by simp)]
        refine LastWrite.last_eq_some_iff.mpr ⟨hreason,
          before.map ToneCall.description, after.map ToneCall.description, ?_, ?_⟩
        · rw [hsplit, List.map_append, List.map_cons, hcall]
        · intro y hy hplain
          obtain ⟨other, hmem, rfl⟩ := List.mem_map.mp hy
          exact hother ⟨other, hmem, hplain⟩
      rw [hlast, Option.bind_some, Option.bind_some, if_pos rfl]

theorem setAgain_of_files
    (h : ∀ id, (Tones.after calls).getToneFile id = lastToneFile calls id) :
    TonesSetAgain calls := by
  intro before call after hsplit hreason hfile hother
  by_contra hagain
  have hid : LastWrite.last LinphoneToneDescription.plainKey (.none, call.description.toneid)
      (tonesSet calls) = some call.description := by
    rw [last_tonesSet (by simp [LinphoneToneDescription.plainKey])]
    refine LastWrite.last_eq_some_iff.mpr
      ⟨Prod.ext hreason rfl, before.map ToneCall.description,
        after.map ToneCall.description, ?_, ?_⟩
    · rw [hsplit, List.map_append, List.map_cons]
    · intro y hy hkey
      obtain ⟨again, hmem, rfl⟩ := List.mem_map.mp hy
      exact hagain ⟨again, hmem, Prod.ext_iff.mp hkey⟩
  have hkept := h call.description.toneid
  rw [Tones.getToneFile_after, lastToneFile, hid, Option.bind_some] at hkept
  cases hlast : lastCallErrorTone calls .none with
  | none =>
    rw [hlast] at hkept
    exact hfile hkept.symm
  | some last =>
    rw [hlast, Option.bind_some] at hkept
    split at hkept
    · -- the last telephony tone comes after this call
      next hsame =>
        obtain ⟨other, hmem, hplain, -⟩ := hother
        rw [lastCallErrorTone, last_tonesSet (by simp), hsplit, List.map_append, List.map_cons,
          LastWrite.last_append, LastWrite.last] at hlast
        cases hafter : LastWrite.last LinphoneToneDescription.reason .none
            (after.map ToneCall.description) with
        | none =>
          exact LastWrite.last_eq_none_iff.mp hafter _ (List.mem_map_of_mem hmem) hplain
        | some tone =>
          rw [hafter, Option.some_or, Option.some_or, Option.some.injEq] at hlast
          obtain ⟨hmem', hreason'⟩ := LastWrite.mem_of_last hafter
          obtain ⟨again, hagain', rfl⟩ := List.mem_map.mp hmem'
          exact hagain ⟨again, hagain', hreason', hlast ▸ hsame⟩
    · exact hfile hkept.symm

/-- **Every tone is the last one set exactly as long as a telephony tone with a file is set again
after others.** -/
theorem tones_kept_iff (calls : List ToneCall) : TonesKept calls ↔ TonesSetAgain calls := by
  constructor
  · exact fun h => setAgain_of_files h.files
  · intro h
    exact ⟨files_of_setAgain h, fun reason _ => Tones.getCallErrorTone_after calls reason⟩

/-- The tone of a call on hold takes the place of that of a waiting call. -/
theorem call_waiting_tone_lost :
    ¬TonesKept
      [.setTone .callWaiting (some "waiting.wav"), .setTone .callOnHold (some "hold.wav")] :=
  fun h => absurd (h.files .callWaiting) (by decide)

end Linphone

import Linphone.Lib.Conformance
import Mathlib.Algebra.BigOperators.Group.List.Basic
import Mathlib.Algebra.GroupWithZero.Nat

/-!
# The two log files

`linphone_core_log_collection_handler` writes a line to the first file until the file is over the
limit, and then to the second one. When both are over it the second file takes the place of the
first. Which file a line goes to is decided anew for each line: after the limit has been raised the
first file may get lines again while the second one still has older ones.

`log_collection_in_order_iff`: as long as that does not happen the files have the latest lines in
their order, and as many bytes as the limit asks for.
-/

namespace Linphone

open Conformance (Conforms Allowed)

/-! ## The handler -/

/-- A line as it is printed. The number tells lines with the same text apart. -/
structure LogLine where
  number : Nat
  text : List Char
deriving DecidableEq

def fileSize (file : List LogLine) : Nat := (file.map (·.text.length)).sum

/-- The log files, `liblinphone_log_collection_max_file_size`, and how many lines were logged. -/
structure LogCollection where
  file1 : List LogLine := []
  file2 : List LogLine := []
  maxFileSize : Int
  count : Nat := 0
deriving DecidableEq

inductive LogEvent where
  | log (text : List Char)
  | setMaxFileSize (size : Int)

namespace LogCollection

variable (c : LogCollection)

/-- `linphone_core_log_collection_handler` -/
def handler (text : List Char) : LogCollection :=
  let line : LogLine := ⟨c.count, text⟩
  let c := { c with count := c.count + 1 }
  if c.maxFileSize < (fileSize c.file1 : Int) then
    if c.maxFileSize < (fileSize c.file2 : Int) then { c with file1 := c.file2, file2 := [line] }
    else { c with file2 := c.file2 ++ [line] }
  else { c with file1 := c.file1 ++ [line] }

/-- The order of `prepare_log_collection_file_to_upload`. -/
def uploaded : List LogLine := c.file1 ++ c.file2

/-- A message, or `linphone_core_set_log_collection_max_file_size`. -/
def step : LogEvent → Option LogCollection
  | .log text => some (c.handler text)
  | .setMaxFileSize size => some { c with maxFileSize := size }

end LogCollection

/-! ## What the files are for -/

/-- All lines logged so far, and how many of them since the limit was set. -/
structure LogHistory where
  logged : List LogLine := []
  recent : Nat := 0

def LogHistory.step (h : LogHistory) : LogEvent → LogHistory
  | .log text => ⟨h.logged ++ [⟨h.logged.length, text⟩], h.recent + 1⟩
  | .setMaxFileSize _ => { h with recent := 0 }

/-- The files have the end of what was logged; and as many bytes as the limit, or everything that
was logged since it was set. -/
structure LogCollection.InOrder (c : LogCollection) (h : LogHistory) : Prop where
  count : c.count = h.logged.length
  numbered : ∀ line ∈ h.logged, line.number < c.count
  latest : c.uploaded <:+ h.logged
  kept : h.recent ≤ c.uploaded.length ∨ c.maxFileSize ≤ (fileSize c.uploaded : Int)

/-- A line is logged while the second file is empty or the first one is over the limit. -/
def LogCollection.Fresh (c : LogCollection) : LogEvent → Prop
  | .log _ => c.file2 = [] ∨ c.maxFileSize < (fileSize c.file1 : Int)
  | .setMaxFileSize _ => True

/-! ## One line -/

theorem fileSize_append (l l' : List LogLine) : fileSize (l ++ l') = fileSize l + fileSize l' := by
  rw [fileSize, List.map_append, List.sum_append]
  rfl

namespace LogCollection

variable {c : LogCollection} {h : LogHistory}

/-- What a line does to the files: it goes behind what is kept, the first file is given up for it,
or it goes between the files. -/
theorem handler_cases (c : LogCollection) (text : List Char) :
    (c.handler text).maxFileSize = c.maxFileSize ∧ (c.handler text).count = c.count + 1 ∧
      ((c.Fresh (.log text) ∧ (c.handler text).uploaded = c.uploaded ++ [⟨c.count, text⟩]) ∨
        (c.Fresh (.log text) ∧ c.maxFileSize < (fileSize c.file2 : Int) ∧
          (c.handler text).uploaded = c.file2 ++ [⟨c.count, text⟩]) ∨
        (¬ c.Fresh (.log text) ∧
          (c.handler text).uploaded = c.file1 ++ ⟨c.count, text⟩ :: c.file2)) := by
  unfold handler Fresh uploaded
  by_cases hfirst : c.maxFileSize < (fileSize c.file1 : Int)
  · by_cases hsecond : c.maxFileSize < (fileSize c.file2 : Int)
    · simp [hfirst, hsecond]
    · simp [hfirst, hsecond]
  · by_cases hempty : c.file2 = []
    · simp [hfirst, hempty]
    · simp [hfirst, hempty]

/-- A line behind what is kept keeps the order. -/
theorem inOrder_append {c' : LogCollection} {text : List Char} (hin : c.InOrder h)
    (hmax : c'.maxFileSize = c.maxFileSize) (hcount : c'.count = c.count + 1) {kept : List LogLine}
    (hkept : kept <:+ c.uploaded) (huploaded : c'.uploaded = kept ++ [⟨c.count, text⟩])
    (hsize : kept = c.uploaded ∨ c.maxFileSize < (fileSize kept : Int)) :
    c'.InOrder (h.step (.log text)) := by
  have hline : (⟨c.count, text⟩ : LogLine) = ⟨h.logged.length, text⟩ := by rw [hin.count]
  refine ⟨?_, ?_, ?_, ?_⟩
  · rw [hcount, hin.count, LogHistory.step, List.length_append, List.length_singleton]
  · intro line hmem
    rw [hcount]
    rcases List.mem_append.mp hmem with hold | hnew
    · exact (hin.numbered line hold).trans (Nat.lt_succ_self _)
    · rw [List.mem_singleton.mp hnew, hin.count]
      exact Nat.lt_succ_self _
  · obtain ⟨dropped, hdropped⟩ := hkept.trans hin.latest
    refine ⟨dropped, ?_⟩
    rw [huploaded, hline, LogHistory.step, ← List.append_assoc, hdropped]
  · rw [huploaded, hmax, fileSize_append, List.length_append, List.length_singleton]
    rcases hsize with hall | hlarge
    · rw [hall]
      rcases hin.kept with hrecent | hbytes
      · exact .inl (Nat.succ_le_succ hrecent)
      · exact .inr (by omega)
    · exact .inr (by omega)

/-- A line between the files is not in the order of what was logged. -/
theorem not_inOrder_between {text : List Char} (hin : c.InOrder h) {c' : LogCollection}
    (huploaded : c'.uploaded = c.file1 ++ ⟨c.count, text⟩ :: c.file2) (hne : c.file2 ≠ []) :
    ¬ c'.InOrder (h.step (.log text)) := by
  intro hin'
  obtain ⟨dropped, hdropped⟩ := hin'.latest
  have hlast := congrArg List.getLast? hdropped
  have hcons : (⟨c.count, text⟩ : LogLine) :: c.file2 ≠ [] := List.cons_ne_nil _ _
  rw [huploaded, LogHistory.step, List.getLast?_append_of_ne_nil _ (by simp),
    List.getLast?_append_of_ne_nil _ hcons, List.getLast?_concat,
    List.getLast?_eq_getLast_of_ne_nil hcons, List.getLast_cons hne] at hlast
  have hmem : c.file2.getLast hne ∈ h.logged :=
    hin.latest.subset (List.mem_append_right _ (List.getLast_mem hne))
  have hnumber := hin.numbered _ hmem
  rw [Option.some.inj hlast, hin.count] at hnumber
  exact absurd hnumber (lt_irrefl _)

theorem inOrder_step_iff (hin : c.InOrder h) (e : LogEvent) :
    (∃ c', c.step e = some c' ∧ c'.InOrder (h.step e)) ↔ c.Fresh e := by
  cases e with
  | setMaxFileSize size =>
    refine ⟨fun _ => trivial, fun _ => ⟨_, rfl, hin.count, hin.numbered, hin.latest, ?_⟩⟩
    exact .inl (Nat.zero_le _)
  | log text =>
    obtain ⟨hmax, hcount, hcases⟩ := handler_cases c text
    rcases hcases with ⟨hfresh, hall⟩ | ⟨hfresh, hlarge, hsecond⟩ | ⟨hnot, hbetween⟩
    · exact iff_of_true ⟨_, rfl, inOrder_append hin hmax hcount List.suffix_rfl hall (.inl rfl)⟩
        hfresh
    · exact iff_of_true ⟨_, rfl, inOrder_append hin hmax hcount (List.suffix_append _ _) hsecond
        (.inr hlarge)⟩ hfresh
    · refine iff_of_false ?_ hnot
      rintro ⟨c', hc', hin'⟩
      cases hc'
      exact not_inOrder_between hin hbetween (fun hempty => hnot (.inl hempty)) hin'

end LogCollection

/-! ## Runs -/

/-- **The files have the latest lines in their order exactly as long as no line is logged into the
first file behind which the second one has older lines.** -/
theorem log_collection_in_order_iff (limit : Int) (events : List LogEvent) :
    Conforms LogCollection.step LogHistory.step LogCollection.InOrder { maxFileSize := limit } {}
        events ↔
      Allowed LogCollection.step LogCollection.Fresh { maxFileSize := limit } events :=
  Conformance.conforms_iff (fun _ _ e hin => LogCollection.inOrder_step_iff hin e)
    ⟨rfl, (fun _ hmem => nomatch hmem), List.suffix_rfl, .inl le_rfl⟩

def raisedLimit : List LogEvent :=
  [.log "one\n".toList, .log "two\n".toList, .setMaxFileSize 100, .log "three\n".toList]

/-- After the limit is raised the third line stands before the second one. -/
theorem raisedLimit_not_in_order :
    (Conformance.run LogCollection.step { maxFileSize := 3 } raisedLimit).map
        (fun c => c.uploaded.map (·.number)) = some [0, 2, 1] ∧
      ¬ Conforms LogCollection.step LogHistory.step LogCollection.InOrder { maxFileSize := 3 } {}
        raisedLimit := by
  refine ⟨by decide, fun h => ?_⟩
  obtain ⟨c', hrun, hin⟩ := h _ List.prefix_rfl
  obtain rfl := Option.some.inj hrun
  exact absurd hin.latest (by decide)

end Linphone

import Linphone.Lib.Scan
import Mathlib.Logic.Function.Iterate

/-!
# The upgrade of the message database

`linphone_create_table` and `linphone_update_table` (`coreapi/message_storage.c`) bring a database
of an earlier version to the present schema. Each column is added by a statement of its own; that
it succeeds is what triggers the migration of textual times, and the creation of the table
`content`. Here they are a sequence of statements, so that they can stop between any two.

`resumed_iff`: the next run ends as an uninterrupted one would have, unless the run stopped between
the column `utc` and the migration, with a time to migrate, or between the column `content` and its
table. `stopped_before_migration` is the first of these.

The heart of it is `rerun_eq`: a rerun goes on where the last run stopped, without the work that the
last statement has triggered.
-/

namespace Linphone

/-! ## Data -/

/-- The columns that later versions have added, in this order. -/
inductive HistoryColumn
  | url | utc | appdata | content
deriving DecidableEq

structure HistoryRow where
  id : Nat
  localContact : String
  remoteContact : String
  direction : Option Int
  message : Option String
  time : String
  read : Option Int
  status : Option Int
  url : Option String := none
  utc : Option Int := none
  appdata : Option String := none
  content : Option Int := none
deriving DecidableEq

/-- The table `history`; rows are `NULL` in a column that it does not have. -/
structure HistoryTable where
  columns : List HistoryColumn := []
  rows : List HistoryRow := []
deriving DecidableEq

structure MessageDb where
  history : Option HistoryTable := none
  /-- There is a table `content`. -/
  content : Bool := false
deriving DecidableEq

/-- `struct tm` -/
structure Tm where
  tmMday : Int := 0
  tmHour : Int := 0
  tmMin : Int := 0
  tmSec : Int := 0
  tmYear : Int := 0
  tmWday : Nat := 0
  tmMon : Nat := 0
  tmIsdst : Int := 0

/-! ## Textual times -/

def days : List String := ["Sun", "Mon", "Tue", "Wed", "Thu", "Fri", "Sat"]

def months : List String :=
  ["Jan", "Feb", "Mar", "Apr", "May", "Jun", "Jul", "Aug", "Sep", "Oct", "Nov", "Dec"]

/-- The last index of a name in a table, or 0. -/
def indexIn (names : List String) (name : List Char) : Nat :=
  (names.zipIdx.filter fun x => x.1.toList = name).foldl (fun _ x => x.2) 0

/-- What `sscanf` finds in a time. -/
def scanTime (time : List Char) : Option (List Char × List Char × Tm) := do
  let (tmp1, s) ← Scan.chars 3 time
  let (tmp2, s) ← Scan.chars 3 (s.dropWhile Scan.isSpace)
  let (mday, s) ← Scan.number s
  let (hour, s) ← Scan.number s
  let s ← Scan.literal ':' s
  let (min, s) ← Scan.number s
  let s ← Scan.literal ':' s
  let (sec, s) ← Scan.number s
  let (year, _) ← Scan.number s
  pure (tmp1, tmp2, { tmMday := mday, tmHour := hour, tmMin := min, tmSec := sec, tmYear := year })

/-- `parse_time_from_db`, with the `mktime` of the time zone. -/
def parseTimeFromDb (mktime : Tm → Int) (time : String) : Int :=
  match scanTime time.toList with
  | some (tmp1, tmp2, ret) =>
      mktime { ret with
        tmYear := ret.tmYear - 1900
        tmWday := indexIn days tmp1
        tmMon := indexIn months tmp2
        tmIsdst := -1 }
  | none => 0

/-! ## Statements -/

/-- `migrate_messages_timestamp`, for the rows that are selected. -/
def migrateRow (mktime : Tm → Int) (row : HistoryRow) : HistoryRow :=
  if row.time = "-1" then row
  else
    let newTime := parseTimeFromDb mktime row.time
    if newTime ≠ 0 then { row with utc := some newTime, time := "-1" } else row

namespace MessageDb

variable (mktime : Tm → Int) (db : MessageDb)

def rows : List HistoryRow := (db.history.getD {}).rows

def columns : List HistoryColumn := (db.history.getD {}).columns

/-- `linphone_create_table` -/
def createTable : MessageDb := { db with history := some (db.history.getD {}) }

/-- `ALTER TABLE history ADD COLUMN` -/
def addColumn (column : HistoryColumn) : Option MessageDb :=
  match db.history with
  | some table =>
      if column ∈ table.columns then none
      else some { db with history := some { table with columns := table.columns ++ [column] } }
  | none => none

/-- `linphone_migrate_timestamps` -/
def migrateTimestamps : MessageDb :=
  { db with history := db.history.map fun table =>
      { table with rows := table.rows.map (migrateRow mktime) } }

end MessageDb

/-- The statement that comes next. -/
inductive UpgradePoint
  | createTable | url | utc | migrate | appdata | content | contentTable | done
deriving DecidableEq

/-- One statement of `linphone_create_table` and `linphone_update_table`. -/
def upgradeStep (mktime : Tm → Int) : UpgradePoint × MessageDb → UpgradePoint × MessageDb
  | (.createTable, db) => (.url, db.createTable)
  | (.url, db) => (.utc, (db.addColumn .url).getD db)
  | (.utc, db) =>
      match db.addColumn .utc with
      | some db => (.migrate, db)
      | none => (.appdata, db)
  | (.migrate, db) => (.appdata, db.migrateTimestamps mktime)
  | (.appdata, db) => (.content, (db.addColumn .appdata).getD db)
  | (.content, db) =>
      match db.addColumn .content with
      | some db => (.contentTable, db)
      | none => (.done, db)
  | (.contentTable, db) => (.done, { db with content := true })
  | (.done, db) => (.done, db)

/-- A run that stops after a number of statements. -/
def interrupted (mktime : Tm → Int) (n : Nat) (db : MessageDb) : UpgradePoint × MessageDb :=
  (upgradeStep mktime)^[n] (.createTable, db)

/-- A run to the end. -/
def completed (mktime : Tm → Int) (db : MessageDb) : MessageDb := (interrupted mktime 8 db).2

/-! ## What is claimed -/

def historyColumns : List HistoryColumn := [.url, .utc, .appdata, .content]

/-- A database of an earlier version has the columns up to one of them, and the table `content`
came with the last one. -/
structure EarlierVersion (db : MessageDb) (v : Nat) : Prop where
  le : v ≤ historyColumns.length
  columns : db.columns = historyColumns.take v
  content : db.content = true ↔ v = historyColumns.length

/-- The present schema, with every time that can be parsed converted. -/
def upgraded (mktime : Tm → Int) (db : MessageDb) : MessageDb where
  history := some ⟨historyColumns, db.rows.map (migrateRow mktime)⟩
  content := true

/-! ## Runs -/

namespace UpgradePoint

/-- How many columns there are at least. -/
def stage : UpgradePoint → Nat
  | createTable | url => 0
  | utc => 1
  | migrate | appdata => 2
  | content => 3
  | contentTable | done => 4

/-- The times have had their chance to be converted. -/
def migrated : UpgradePoint → Bool
  | createTable | url | utc | migrate => false
  | appdata | content | contentTable | done => true

end UpgradePoint

section runs

variable {mktime : Tm → Int} {db : MessageDb} {v : Nat}

/-- The database when a run from version `v` is at some statement. -/
def databaseAt (mktime : Tm → Int) (db : MessageDb) (v : Nat) (p : UpgradePoint) : MessageDb where
  history := some ⟨historyColumns.take (max v p.stage),
    if v < 2 ∧ p.migrated then db.rows.map (migrateRow mktime) else db.rows⟩
  content := if v < 4 ∧ p = .done then true else db.content

/-- The statement that a run from version `v` comes to. -/
def pointAfter (v : Nat) : Nat → UpgradePoint
  | 0 => .createTable
  | 1 => .url
  | 2 => .utc
  | 3 => if v < 2 then .migrate else .appdata
  | 4 => if v < 2 then .appdata else .content
  | 5 => if v < 2 then .content else if v < 4 then .contentTable else .done
  | 6 => if v < 2 then .contentTable else .done
  | _ => .done

theorem databaseAt_url (hcolumns : db.columns = historyColumns.take v) :
    db.createTable = databaseAt mktime db v .url := by
  have hcolumns' : (db.history.getD {}).columns = historyColumns.take v := hcolumns
  unfold MessageDb.createTable databaseAt
  rw [show max v UpgradePoint.url.stage = v from Nat.max_zero v, ← hcolumns']
  simp [UpgradePoint.migrated, MessageDb.rows]

/-- One statement of a run: for each version, what the statement finds there. -/
theorem upgradeStep_databaseAt (hle : v ≤ 4) {n : Nat} (hn : n ≠ 0) :
    upgradeStep mktime (pointAfter v n, databaseAt mktime db v (pointAfter v n)) =
      (pointAfter v (n + 1), databaseAt mktime db v (pointAfter v (n + 1))) := by
  obtain rfl | rfl | rfl | rfl | rfl : v = 0 ∨ v = 1 ∨ v = 2 ∨ v = 3 ∨ v = 4 := by omega
  all_goals
    match n, hn with
    | 1, _ => rfl
    | 2, _ => rfl
    | 3, _ => rfl
    | 4, _ => rfl
    | 5, _ => rfl
    | 6, _ => rfl
    | n + 7, _ => rfl

theorem interrupted_eq (hle : v ≤ 4) (hcolumns : db.columns = historyColumns.take v) {n : Nat}
    (hn : n ≠ 0) :
    interrupted mktime n db = (pointAfter v n, databaseAt mktime db v (pointAfter v n)) := by
  induction n with
  | zero => exact absurd rfl hn
  | succ n ih =>
      unfold interrupted
      rw [Function.iterate_succ_apply']
      by_cases hzero : n = 0
      · subst hzero
        exact congrArg (Prod.mk UpgradePoint.url) (databaseAt_url hcolumns)
      · change upgradeStep mktime (interrupted mktime n db) = _
        rw [ih hzero]
        exact upgradeStep_databaseAt hle hzero

/-- **A run to the end**, from any version. -/
theorem completed_eq (hle : v ≤ 4) (hcolumns : db.columns = historyColumns.take v) :
    completed mktime db =
      ⟨some ⟨historyColumns, if v < 2 then db.rows.map (migrateRow mktime) else db.rows⟩,
        if v < 4 then true else db.content⟩ := by
  unfold completed
  rw [interrupted_eq hle hcolumns (by decide)]
  obtain rfl | rfl | rfl | rfl | rfl : v = 0 ∨ v = 1 ∨ v = 2 ∨ v = 3 ∨ v = 4 := by omega
  all_goals rfl

theorem map_migrateRow_eq_iff {rows : List HistoryRow} :
    rows = rows.map (migrateRow mktime) ↔ ∀ row ∈ rows, migrateRow mktime row = row := by
  constructor
  · intro h row hrow
    obtain ⟨i, hi, rfl⟩ := List.getElem_of_mem hrow
    have hget := List.getElem_of_eq h hi
    rw [List.getElem_map] at hget
    exact hget.symm
  · intro h
    exact ((List.map_congr_left h).trans (List.map_id' rows)).symm

/-- The rows after a rerun. -/
theorem rerun_rows_iff (p : UpgradePoint) (hmigrate : p = .migrate → v < 2) :
    (if max v p.stage < 2 then (databaseAt mktime db v p).rows.map (migrateRow mktime)
      else (databaseAt mktime db v p).rows) = db.rows.map (migrateRow mktime) ↔
    (2 ≤ v ∨ p = .migrate → db.rows = db.rows.map (migrateRow mktime)) := by
  have hrows : (databaseAt mktime db v p).rows =
      if v < 2 ∧ p.migrated then db.rows.map (migrateRow mktime) else db.rows := rfl
  simp only [hrows, Nat.max_lt]
  by_cases hv : v < 2
  · have hle : ¬2 ≤ v := Nat.not_le.mpr hv
    cases p with
    | createTable | url | utc => simp [UpgradePoint.stage, UpgradePoint.migrated, hv, hle]
    | migrate => simp [UpgradePoint.stage, UpgradePoint.migrated]
    | appdata | content | contentTable | done =>
        simp [UpgradePoint.stage, UpgradePoint.migrated, hv, hle]
  · have hle : 2 ≤ v := Nat.not_lt.mp hv
    simp [hv, hle]

/-- The table `content` after a rerun. -/
theorem rerun_content_iff (mktime : Tm → Int) (h : EarlierVersion db v) (p : UpgradePoint) :
    (if max v p.stage < 4 then true else (databaseAt mktime db v p).content) = true ↔
      ¬(v < 4 ∧ p = .contentTable) := by
  have hle : v ≤ 4 := h.le
  have hcontent : db.content = true ↔ v = 4 := h.content
  have hdatabase : (databaseAt mktime db v p).content =
      if v < 4 ∧ p = .done then true else db.content := rfl
  simp only [hdatabase, Nat.max_lt]
  by_cases hv : v < 4
  · have hnone : db.content = false := by
      cases hdb : db.content with
      | false => rfl
      | true => exact absurd (hcontent.mp hdb) (Nat.ne_of_lt hv)
    cases p with
    | contentTable => simp [UpgradePoint.stage, hv, hnone]
    | done => simp [hv]
    | createTable | url | utc | migrate | appdata | content => simp [UpgradePoint.stage, hv]
  · simp [hv, hcontent.mpr (by omega)]

theorem rerun_eq_upgraded_iff (mktime : Tm → Int) (h : EarlierVersion db v) (p : UpgradePoint)
    (hmigrate : p = .migrate → v < 2) :
    completed mktime (databaseAt mktime db v p) = upgraded mktime db ↔
      (2 ≤ v ∨ p = .migrate → ∀ row ∈ db.rows, migrateRow mktime row = row) ∧
        ¬(v < 4 ∧ p = .contentTable) := by
  have hle : v ≤ 4 := h.le
  have hstage : p.stage ≤ 4 := by cases p <;> decide
  rw [completed_eq (v := max v p.stage) (by omega) rfl, ← map_migrateRow_eq_iff,
    ← rerun_rows_iff p hmigrate, ← rerun_content_iff mktime h p]
  simp [upgraded]

theorem pointAfter_eq_migrate (n : Nat) : pointAfter v n = .migrate ↔ n = 3 ∧ v < 2 := by
  match n with
  | 0 | 1 | 2 => simp [pointAfter]
  | 3 | 4 | 5 | 6 =>
      by_cases h₂ : v < 2
      · simp [pointAfter, h₂]
      · by_cases h₄ : v < 4
        · simp [pointAfter, h₂, h₄]
        · simp [pointAfter, h₂, h₄]
  | n + 7 => simp [pointAfter]

theorem pointAfter_eq_contentTable (n : Nat) :
    v < 4 ∧ pointAfter v n = .contentTable ↔ v < 4 ∧ n = if v < 2 then 6 else 5 := by
  by_cases h₂ : v < 2
  · rw [if_pos h₂]
    match n with
    | 0 | 1 | 2 | 3 | 4 | 5 | 6 => simp [pointAfter, h₂]
    | n + 7 => simp [pointAfter]
  · rw [if_neg h₂]
    refine and_congr_right fun h₄ => ?_
    match n with
    | 0 | 1 | 2 | 3 | 4 | 5 | 6 => simp [pointAfter, h₂, h₄]
    | n + 7 => simp [pointAfter]

/-- **The upgrade is resumed** by the next run, if and only if there was no time to convert where
the migration was skipped, and the last run did not stop before the table `content`. -/
theorem resumed_iff (h : EarlierVersion db v) (n : Nat) :
    completed mktime (interrupted mktime n db).2 = upgraded mktime db ↔
      (2 ≤ v ∨ n = 3 → ∀ row ∈ db.rows, migrateRow mktime row = row) ∧
        ¬(v < 4 ∧ n = if v < 2 then 6 else 5) := by
  have hpoint : (2 ≤ v ∨ pointAfter v n = .migrate) ↔ (2 ≤ v ∨ n = 3) := by
    rw [pointAfter_eq_migrate]
    omega
  have hrerun := rerun_eq_upgraded_iff mktime h (pointAfter v n) fun hmigrate =>
    ((pointAfter_eq_migrate n).mp hmigrate).2
  rw [hpoint, pointAfter_eq_contentTable] at hrerun
  rw [← hrerun]
  by_cases hn : n = 0
  · subst hn
    have hstart : completed mktime (interrupted mktime 0 db).2 =
        completed mktime (databaseAt mktime db v .createTable) := by
      have hcontent : db.content = (databaseAt mktime db v .createTable).content := by
        simp [databaseAt]
      have hrows : db.rows = (databaseAt mktime db v .createTable).rows := by
        simp [databaseAt, MessageDb.rows, UpgradePoint.migrated]
      change completed mktime db = _
      have hle : max v 0 ≤ 4 := by
        rw [Nat.max_zero]
        exact h.le
      rw [completed_eq h.le h.columns, completed_eq hle rfl, Nat.max_zero, ← hcontent, ← hrows]
    rw [hstart]
    rfl
  · rw [interrupted_eq h.le h.columns hn]

end runs

/-- A message of the first version. -/
def oldMessage : HistoryRow where
  id := 1
  localContact := "sip:alice@example.org"
  remoteContact := "sip:bob@example.org"
  direction := some 0
  message := some "hello"
  time := "Mon Jan 12 14:05:09 2009"
  read := some 1
  status := some 2

/-- The columns of the first version. -/
def oldDb : MessageDb := { history := some { rows := [oldMessage] } }

/-- `mktime` where the time zone is UTC. -/
def utcMktime (tm : Tm) : Int :=
  let m : Int := tm.tmMon + 1
  let y := tm.tmYear + 1900 - if m ≤ 2 then 1 else 0
  let yearDay := (153 * (m + if m > 2 then -3 else 9) + 2) / 5 + tm.tmMday - 1
  let day := y * 365 + y / 4 - y / 100 + y / 400 + yearDay - 719468
  ((day * 24 + tm.tmHour) * 60 + tm.tmMin) * 60 + tm.tmSec

example : parseTimeFromDb utcMktime oldMessage.time = 1231769109 := by decide

theorem oldDb_earlier : EarlierVersion oldDb 0 := ⟨by decide, rfl, by decide⟩

/-- A run that stopped after it had added the column `appdata`. -/
theorem resumed_after_appdata :
    completed utcMktime (interrupted utcMktime 5 oldDb).2 = upgraded utcMktime oldDb :=
  (resumed_iff oldDb_earlier 5).mpr ⟨fun h => absurd h (by decide), by decide⟩

/-- A run that stopped after it had added the column `utc`: times are never converted. -/
theorem stopped_before_migration : ¬∀ (mktime : Tm → Int) (db : MessageDb) (v : Nat),
    EarlierVersion db v → ∀ n, completed mktime (interrupted mktime n db).2 =
      completed mktime db := by
  intro h
  exact absurd (h utcMktime oldDb 0 oldDb_earlier 3) (by decide)

end Linphone

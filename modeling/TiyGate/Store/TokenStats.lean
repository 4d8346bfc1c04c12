import Mathlib.Data.List.Dedup
import Mathlib.Data.List.Sort
import TiyGate.Data.KeyedTable
import TiyGate.Data.Runs

/-!
# Token statistics

A background task adds up the rows of `request_logs` by day into
`token_daily_stats` and derives `token_summary` from these.  In the meantime the
log sink inserts rows and fills them in, retention deletes old ones, and the
statistics of another instance are imported.

The row of the current day is overwritten by each pass; that of a closed day
only if the new totals are not smaller.

A moment is a number of seconds.  How a day is written, and which texts are
days, are parameters.  Sums are integers without bounds.
-/

namespace TiyGate.Store.TokenStats

/-- How days are written in the tables. -/
structure Calendar where
  /-- `%Y-%m-%d` of the number of a day. -/
  format : Nat → String
  /-- The number of the day that a text stands for. -/
  parse : String → Option Int

/-! ## Rows -/

/-- The columns of `request_logs` that are added up. -/
structure LogRow where
  requestId : String
  ts : Nat
  promptTokens : Option Int := none
  completionTokens : Option Int := none
  reasoningTokens : Option Int := none
  totalTokens : Option Int := none
  cost : Option Int := none
  totalLatencyMs : Int := 0
  deriving DecidableEq

instance : Keyed LogRow String where
  key := LogRow.requestId

/-- A day of `token_daily_stats`, as a bundle carries it. -/
structure ExportTokenDailyStat where
  day : String
  requestCount : Int
  totalTokens : Int
  promptTokens : Int
  completionTokens : Int
  reasoningTokens : Int
  totalCost : Int := 0
  peakSingleRequest : Int
  longestTaskMs : Int
  deriving DecidableEq

structure TokenDailyStat extends ExportTokenDailyStat where
  updatedAt : Nat
  deriving DecidableEq

instance : Keyed TokenDailyStat String where
  key row := row.day

/-- The row of `token_summary`. -/
structure TokenSummary where
  lifetimeTokens : Int := 0
  peakDayTokens : Int := 0
  longestTaskMs : Int := 0
  lifetimeCost : Int := 0
  peakDayCost : Int := 0
  currentStreak : Int := 0
  longestStreak : Int := 0
  updatedAt : Nat := 0
  deriving DecidableEq

def secondsPerDay : Nat :=
  86400

/-! ## The summary -/

/-- `COALESCE(MAX(column), 0)`. -/
def maxOf (values : List Int) : Int :=
  values.max?.getD 0

/-- The days that follow one another without a gap, behind the first and down. -/
def streakBehind : Int → List Int → Int
  | _, [] => 0
  | previous, day :: days => if previous - day = 1 then 1 + streakBehind day days else 0

/-- The longest run of days without a gap; `run` is the length up to the day before. -/
def longestRun (run longest previous : Int) : List Int → Int
  | [] => longest
  | day :: days =>
      let next := if day - previous = 1 then run + 1 else 1
      longestRun next (max longest next) day days

/-- The streak up to today (or yesterday) and the longest one. -/
def computeStreaks (calendar : Calendar) (today : Nat) (stats : List TokenDailyStat) : Int × Int :=
  let days := ((stats.filter fun row => decide (0 < row.totalTokens)).map (·.day)).insertionSort
    fun day other => other ≤ day
  let parsed := days.filterMap calendar.parse
  match parsed, parsed.insertionSort (· ≤ ·) with
  | first :: rest, least :: greater =>
      (if (today : Int) - first ≤ 1 then 1 + streakBehind first rest else 0,
        longestRun 1 1 least greater)
  | _, _ => (0, 0)

/-- `recompute_summary_in_tx`. -/
def recomputeSummary (calendar : Calendar) (now : Nat) (stats : KeyedTable TokenDailyStat) :
    TokenSummary :=
  let streaks := computeStreaks calendar (now / secondsPerDay) stats.rows
  { lifetimeTokens := (stats.rows.map (·.totalTokens)).sum
    peakDayTokens := maxOf (stats.rows.map (·.totalTokens))
    longestTaskMs := maxOf (stats.rows.map (·.longestTaskMs))
    lifetimeCost := (stats.rows.map (·.totalCost)).sum
    peakDayCost := maxOf (stats.rows.map (·.totalCost))
    currentStreak := streaks.1
    longestStreak := streaks.2
    updatedAt := now }

/-! ## Aggregation -/

section

variable (calendar : Calendar)

/-- The day of a row, as `DATE(ts)` writes it. -/
def LogRow.day (row : LogRow) : String :=
  calendar.format (row.ts / secondsPerDay)

/-- The tokens of a row as far as they are known. -/
def LogRow.tokens (row : LogRow) : Int :=
  row.totalTokens.getD 0

/-- The rows that `WHERE ts >= $1` leaves. -/
def window (now lookbackDays : Nat) (log : KeyedTable LogRow) : List LogRow :=
  log.rows.filter fun row => decide (now / secondsPerDay - lookbackDays ≤ row.ts / secondsPerDay)

/-- The rows of a group of `GROUP BY DATE(ts)`. -/
def groupOf (rows : List LogRow) (day : String) : List LogRow :=
  rows.filter fun row => decide (row.day calendar = day)

/-- The days of the groups, in their order. -/
def groupDays (rows : List LogRow) : List String :=
  (rows.map (·.day calendar)).dedup.insertionSort (· ≤ ·)

/-- The row of `token_daily_stats` that a group makes. -/
def aggregate (now : Nat) (rows : List LogRow) (day : String) : TokenDailyStat :=
  let group := groupOf calendar rows day
  { day := day
    requestCount := group.length
    totalTokens := (group.map LogRow.tokens).sum
    promptTokens := (group.map (·.promptTokens.getD 0)).sum
    completionTokens := (group.map (·.completionTokens.getD 0)).sum
    reasoningTokens := (group.map (·.reasoningTokens.getD 0)).sum
    totalCost := (group.map (·.cost.getD 0)).sum
    peakSingleRequest := maxOf (group.filterMap (·.totalTokens))
    longestTaskMs := maxOf (group.map (·.totalLatencyMs))
    updatedAt := now }

/-- The `WHERE` of the upsert: today is always overwritten, a closed day only
by totals that are not smaller. -/
def replaces (today : String) (fresh old : TokenDailyStat) : Bool :=
  fresh.day = today ||
    (old.totalTokens ≤ fresh.totalTokens && old.requestCount ≤ fresh.requestCount &&
      old.totalCost ≤ fresh.totalCost)

/-- What the upsert of a day does with its row. -/
def onConflict (today : String) (fresh : TokenDailyStat) : Revision TokenDailyStat where
  apply old := if replaces today fresh old then { fresh with day := old.day } else old
  keepsKey old := by
    split <;> rfl

end

/-- The tables, and the clock. -/
structure State where
  now : Nat
  log : KeyedTable LogRow := .empty
  stats : KeyedTable TokenDailyStat := .empty
  summary : TokenSummary := {}

/-- One pass of the task. -/
def aggregateOnce (calendar : Calendar) (lookbackDays : Nat) (state : State) : State :=
  let rows := window state.now lookbackDays state.log
  let today := calendar.format (state.now / secondsPerDay)
  let fresh := (groupDays calendar rows).map (aggregate calendar state.now rows)
  let stats := fresh.foldl (fun stats row => stats.upsert row (onConflict today row)) state.stats
  { state with stats, summary := recomputeSummary calendar state.now stats }

/-! ## The other writers -/

/-- The part of an event that is added up. -/
abbrev RequestEventRow := LogRow

/-- The upsert of `write_request_event`: counts that the event has not got stay. -/
def writeRequestEvent (event : RequestEventRow) (state : State) : State :=
  { state with
    log := state.log.upsert event
      { apply := fun old =>
          { old with
            ts := event.ts
            promptTokens := event.promptTokens.or old.promptTokens
            completionTokens := event.completionTokens.or old.completionTokens
            reasoningTokens := event.reasoningTokens.or old.reasoningTokens
            totalTokens := event.totalTokens.or old.totalTokens
            cost := event.cost.or old.cost
            totalLatencyMs := event.totalLatencyMs }
        keepsKey := fun _ => rfl } }

/-- The counts that are recovered from a captured response. -/
structure Usage where
  promptTokens : Int
  completionTokens : Int
  reasoningTokens : Option Int
  totalTokens : Int
  deriving DecidableEq

/-- `update_request_tokens`, which makes a row if there is none yet. -/
def updateRequestTokens (requestId : String) (usage : Usage) (state : State) : State :=
  { state with
    log := state.log.upsert
      { requestId
        ts := state.now
        promptTokens := some usage.promptTokens
        completionTokens := some usage.completionTokens
        reasoningTokens := usage.reasoningTokens
        totalTokens := some usage.totalTokens }
      { apply := fun old =>
          { old with
            promptTokens := some usage.promptTokens
            completionTokens := some usage.completionTokens
            reasoningTokens := usage.reasoningTokens
            totalTokens := some usage.totalTokens }
        keepsKey := fun _ => rfl } }

/-- The other write-backs of a capture touch no count: they make a row if there
is none yet. -/
def updateRequestOther (requestId : String) (state : State) : State :=
  { state with
    log := state.log.upsert { requestId, ts := state.now } ⟨id, fun _ => rfl⟩ }

/-- `UPDATE ... SET cost = $2 WHERE request_id = $1 AND cost IS NULL`. -/
def tryComputeCost (requestId : String) (cost : Int) (state : State) : State :=
  { state with
    log := state.log.revise requestId
      { apply := fun row => { row with cost := row.cost.or (some cost) }
        keepsKey := fun _ => rfl } }

/-- Retention: `DELETE FROM request_logs WHERE ts < $1`. -/
def cleanupOnce (retentionDays : Nat) (state : State) : State :=
  if retentionDays = 0 then state
  else
    { state with
      log :=
        { rows := state.log.rows.filter fun row =>
            decide (state.now - retentionDays * secondsPerDay ≤ row.ts)
          distinct := List.Nodup.sublist (List.filter_sublist.map key) state.log.distinct } }

/-- The merge of an imported day: counts are added, peaks compared. -/
def mergeStat (now : Nat) (stat : ExportTokenDailyStat) : Revision TokenDailyStat where
  apply old :=
    { day := old.day
      requestCount := old.requestCount + stat.requestCount
      totalTokens := old.totalTokens + stat.totalTokens
      promptTokens := old.promptTokens + stat.promptTokens
      completionTokens := old.completionTokens + stat.completionTokens
      reasoningTokens := old.reasoningTokens + stat.reasoningTokens
      totalCost := old.totalCost + stat.totalCost
      peakSingleRequest := if stat.peakSingleRequest < old.peakSingleRequest
        then old.peakSingleRequest else stat.peakSingleRequest
      longestTaskMs := if stat.longestTaskMs < old.longestTaskMs
        then old.longestTaskMs else stat.longestTaskMs
      updatedAt := now }
  keepsKey _ := rfl

/-- The days of a bundle that are selected, merged one by one. -/
def mergeStats (now : Nat) (selected : List ExportTokenDailyStat)
    (stats : KeyedTable TokenDailyStat) : KeyedTable TokenDailyStat :=
  selected.foldl
    (fun stats stat => stats.upsert { toExportTokenDailyStat := stat, updatedAt := now }
      (mergeStat now stat)) stats

/-- What `import_config` does to the statistics with the selected days. -/
def importTokenStats (calendar : Calendar) (selected : List ExportTokenDailyStat) (state : State) :
    State :=
  if selected.isEmpty then state
  else
    let stats := mergeStats state.now selected state.stats
    { state with stats, summary := recomputeSummary calendar state.now stats }

end TiyGate.Store.TokenStats

import EtlOrchestrator.Foundations.Calendar
import EtlOrchestrator.Foundations.FirstDifference
import EtlOrchestrator.Persistence.Listing

/-!
# The order of the history

The history is ordered by the texts that `isoformat` writes of the starts. The
fraction of a second is left out when it is zero, so these texts are not of one
length. Still they differ for the first time as the instants do: at a digit, or
where `+` stands against a full stop. So the history has the runs from the newest
to the oldest, of equal starts by descending ids, and the runs without a start last.
-/

set_option autoImplicit false

namespace EtlOrchestrator

open Calendar

/-! ## Texts of instants -/

/-- A `datetime` in UTC. -/
@[ext] structure UtcDatetime extends Date where
  hour : ℕ
  minute : ℕ
  second : ℕ
  microsecond : ℕ
  year_le : year ≤ 9999
  hour_lt : hour < 24
  minute_lt : minute < 60
  second_lt : second < 60
  microsecond_lt : microsecond < 1000000

namespace UtcDatetime

/-- The hours since the day before the first one of the calendar. -/
def hours (moment : UtcDatetime) : ℕ := moment.ordinal * 24 + moment.hour

/-- The minutes since that day. -/
def minutes (moment : UtcDatetime) : ℕ := moment.hours * 60 + moment.minute

/-- The seconds since that day. -/
def seconds (moment : UtcDatetime) : ℕ := moment.minutes * 60 + moment.second

/-- The microseconds since that day. -/
def microseconds (moment : UtcDatetime) : ℕ := moment.seconds * 1000000 + moment.microsecond

/-- The instant in seconds from the start of 1970, a day with the number 719163. -/
def instant (moment : UtcDatetime) : ℚ := moment.microseconds / 1000000 - 719163 * 86400

/-- `%04d-%02d-%02d`. -/
def dateText (moment : UtcDatetime) : List Char :=
  padded 4 moment.year ++ ('-' :: padded 2 moment.month ++ ('-' :: padded 2 moment.day))

/-- `%02d:%02d:%02d`, after a `T`. -/
def timeText (moment : UtcDatetime) : List Char :=
  'T' :: padded 2 moment.hour ++ (':' :: padded 2 moment.minute ++ (':' :: padded 2 moment.second))

/-- `.%06d`, unless the fraction is zero, and the offset of UTC. -/
def fractionText (moment : UtcDatetime) : List Char :=
  (if moment.microsecond = 0 then [] else '.' :: padded 6 moment.microsecond) ++
    ['+', '0', '0', ':', '0', '0']

/-- `isoformat()`. -/
def isoformat (moment : UtcDatetime) : String :=
  String.ofList (moment.dateText ++ (moment.timeText ++ moment.fractionText))

variable {first second : UtcDatetime}

theorem instant_lt_iff :
    first.instant < second.instant ↔ first.microseconds < second.microseconds := by
  rw [instant, instant, sub_lt_sub_iff_right, div_lt_div_iff_of_pos_right (by norm_num),
    Nat.cast_lt]

theorem fits (moment : UtcDatetime) : moment.hour < 24 ∧ moment.minute < 60 ∧ moment.second < 60 ∧
    moment.microsecond < 1000000 :=
  ⟨moment.hour_lt, moment.minute_lt, moment.second_lt, moment.microsecond_lt⟩

theorem dateText_below (before : first.Before second.toDate) :
    BelowAtDifference first.dateText second.dateText := by
  have digits : ∀ {smaller greater : ℕ}, smaller < greater → greater < 100 →
      BelowAtDifference ('-' :: padded 2 smaller) ('-' :: padded 2 greater) := fun less fits =>
    (padded_below less fits).append_left ['-']
  have month := second.month_mem
  have day : second.day < 100 := by
    have limit := second.day_mem.2
    unfold daysInMonth at limit
    split at limit
    all_goals (try split at limit)
    all_goals omega
  rcases before with year | ⟨year, later⟩
  · have fits := second.year_le
    exact (padded_below year (by omega)).append_right _ _
  · refine .append (.inr ⟨by rw [year], .append ?_⟩)
    rcases later with month | ⟨month, later⟩
    · exact .inl (digits month (by omega))
    · exact .inr ⟨by rw [month], digits later day⟩

theorem timeText_below (later : first.hour < second.hour ∨ first.hour = second.hour ∧
    (first.minute < second.minute ∨
      first.minute = second.minute ∧ first.second < second.second)) :
    BelowAtDifference first.timeText second.timeText := by
  have digits : ∀ (separator : Char) {smaller greater : ℕ}, smaller < greater → greater < 60 →
      BelowAtDifference (separator :: padded 2 smaller) (separator :: padded 2 greater) :=
    fun separator _ _ less fits => (padded_below less (by omega)).append_left [separator]
  have fits := second.hour_lt
  rcases later with hour | ⟨hour, minute | ⟨minute, later⟩⟩
  · exact .append (.inl (digits 'T' hour (by omega)))
  · exact .append (.inr ⟨by rw [hour], .append (.inl (digits ':' minute second.minute_lt))⟩)
  · exact .append (.inr ⟨by rw [hour], .append (.inr ⟨by rw [minute],
      digits ':' later second.second_lt⟩)⟩)

/-- A text without a fraction is below one with a fraction, since `+` is below `.`. -/
theorem fractionText_below (less : first.microsecond < second.microsecond) :
    BelowAtDifference first.fractionText second.fractionText := by
  have positive : second.microsecond ≠ 0 := by omega
  rw [fractionText, fractionText, if_neg positive]
  by_cases whole : first.microsecond = 0
  · rw [if_pos whole]
    exact .cons (by decide) _ _
  · rw [if_neg whole]
    have digits : BelowAtDifference (padded 6 first.microsecond) (padded 6 second.microsecond) :=
      padded_below less second.microsecond_lt
    exact (digits.append_left ['.']).append_right _ _

/-- **The texts of two instants differ for the first time as the instants do.** -/
theorem isoformat_below (less : first.microseconds < second.microseconds) :
    BelowAtDifference first.isoformat.toList second.isoformat.toList := by
  rw [isoformat, isoformat, String.toList_ofList, String.toList_ofList]
  have fits := first.fits
  have otherFits := second.fits
  refine .append ?_
  rcases lt_trichotomy first.ordinal second.ordinal with day | day | day
  · exact .inl (dateText_below (Date.ordinal_lt_iff.mp day))
  · have sameDate := Date.ordinal_injective day
    refine .inr ⟨by rw [dateText, dateText, sameDate], .append ?_⟩
    unfold microseconds seconds minutes hours at less
    have later : (first.hour < second.hour ∨ first.hour = second.hour ∧
        (first.minute < second.minute ∨
          first.minute = second.minute ∧ first.second < second.second)) ∨
        (first.hour = second.hour ∧ first.minute = second.minute ∧ first.second = second.second ∧
          first.microsecond < second.microsecond) := by omega
    rcases later with time | ⟨sameHour, sameMinute, sameSecond, fraction⟩
    · exact .inl (timeText_below time)
    · exact .inr ⟨by rw [timeText, timeText, sameHour, sameMinute, sameSecond],
        fractionText_below fraction⟩
  · unfold microseconds seconds minutes hours at less
    omega

theorem microseconds_injective : Function.Injective microseconds := by
  intro first second same
  have fits := first.fits
  have otherFits := second.fits
  unfold microseconds seconds minutes hours at same
  exact UtcDatetime.ext (congrArg Date.year (Date.ordinal_injective (by omega)))
    (congrArg Date.month (Date.ordinal_injective (by omega)))
    (congrArg Date.day (Date.ordinal_injective (by omega))) (by omega) (by omega) (by omega)
    (by omega)

theorem instant_injective : Function.Injective instant := by
  intro first second same
  refine microseconds_injective (le_antisymm ?_ ?_)
  · exact not_lt.mp fun less => (instant_lt_iff.mpr less).ne' same
  · exact not_lt.mp fun less => (instant_lt_iff.mpr less).ne same

/-- **The texts, and their bytes, are in the order of the instants.** -/
theorem isoformat_lt_iff : first.isoformat < second.isoformat ↔ first.instant < second.instant := by
  have texts : ∀ {first second : UtcDatetime}, first.microseconds < second.microseconds →
      first.isoformat < second.isoformat := fun less =>
    String.lt_iff_toList_lt.mpr (isoformat_below less).lt
  rw [instant_lt_iff]
  refine ⟨fun less => ?_, texts⟩
  rcases lt_trichotomy first.microseconds second.microseconds with before | same | after
  · exact before
  · exact absurd less (microseconds_injective same ▸ lt_irrefl _)
  · exact absurd less (texts after).asymm

theorem isoformat_injective : Function.Injective isoformat := by
  intro first second same
  refine microseconds_injective (le_antisymm ?_ ?_)
  · exact not_lt.mp fun less => (isoformat_lt_iff.mpr (instant_lt_iff.mpr less)).ne' same
  · exact not_lt.mp fun less => (isoformat_lt_iff.mpr (instant_lt_iff.mpr less)).ne same

end UtcDatetime

/-- The encoding writes instants as `isoformat` does. -/
def Encoding.PrintsIso (encoding : Encoding) : Prop :=
  ∀ moment : UtcDatetime, encoding.isoformat moment.instant = moment.isoformat

theorem Encoding.PrintsIso.chronological {encoding : Encoding} (prints : encoding.PrintsIso)
    {instants : Set ℚ} (moments : ∀ instant ∈ instants, ∃ moment : UtcDatetime,
      moment.instant = instant) : encoding.Chronological instants where
  nonempty := by
    intro instant member
    obtain ⟨moment, rfl⟩ := moments instant member
    rw [prints moment]
    refine fun empty => ?_
    have length := congrArg String.length empty
    rw [UtcDatetime.isoformat, String.length_ofList] at length
    simp [UtcDatetime.timeText] at length
  strictMono := by
    intro first member second otherMember less
    obtain ⟨moment, rfl⟩ := moments first member
    obtain ⟨other, rfl⟩ := moments second otherMember
    rw [prints moment, prints other]
    exact UtcDatetime.isoformat_lt_iff.mpr less

/-! ## The history as a whole -/

namespace RunStore

variable {encoding : Encoding} {store : RunStore} {runs listed : List RunSnapshot}
  {run : RunSnapshot}

/-- A row is that of a run. -/
def IsRowOf (encoding : Encoding) (runs : List RunSnapshot) (row : WorkflowRow)
    (run : RunSnapshot) : Prop :=
  run ∈ runs ∧ ∃ text, encoding.dumps run.params = .ok text ∧ row = workflowRow encoding run text

/-- The rows of a list of runs, in its order. -/
abbrev AreRowsOf (encoding : Encoding) (runs : List RunSnapshot) :
    List WorkflowRow → List RunSnapshot → Prop :=
  List.Forall₂ (IsRowOf encoding runs)

namespace AreRowsOf

variable {rows : List WorkflowRow}

theorem exists_listed (each : ∀ row ∈ rows, ∃ run, IsRowOf encoding runs row run) :
    ∃ listed, AreRowsOf encoding runs rows listed := by
  induction rows with
  | nil => exact ⟨[], .nil⟩
  | cons row rest ih =>
      obtain ⟨run, isRow⟩ := each row List.mem_cons_self
      obtain ⟨listed, areRows⟩ := ih fun other member => each other (List.mem_cons_of_mem _ member)
      exact ⟨run :: listed, .cons isRow areRows⟩

theorem exists_row (areRows : AreRowsOf encoding runs rows listed) (member : run ∈ listed) :
    ∃ row ∈ rows, IsRowOf encoding runs row run := by
  induction areRows with
  | nil => cases member
  | @cons row first rest others isRow _ ih =>
      rcases List.mem_cons.mp member with rfl | later
      · exact ⟨row, List.mem_cons_self, isRow⟩
      · obtain ⟨other, inRest, isRowOf⟩ := ih later
        exact ⟨other, List.mem_cons_of_mem _ inRest, isRowOf⟩

/-- The summaries of the rows are those of the runs. -/
theorem mapM_loadSummary (areRows : AreRowsOf encoding runs rows listed) :
    rows.mapM (loadSummary encoding) = .ok (listed.map RunSnapshot.summary) := by
  induction areRows with
  | nil => rfl
  | @cons row run rest others isRow _ ih =>
      obtain ⟨_, text, _, rfl⟩ := isRow
      rw [List.mapM_cons, loadSummary_workflowRow, ih]
      rfl

/-- What is the same of a row and of its run is the same of the lists. -/
theorem map_eq {β : Type} (areRows : AreRowsOf encoding runs rows listed) {ofRow : WorkflowRow → β}
    {ofRun : RunSnapshot → β}
    (same : ∀ run text, ofRow (workflowRow encoding run text) = ofRun run) :
    rows.map ofRow = listed.map ofRun := by
  induction areRows with
  | nil => rfl
  | @cons row run rest others isRow _ ih =>
      obtain ⟨_, text, _, rfl⟩ := isRow
      rw [List.map_cons, List.map_cons, same, ih]

end AreRowsOf

/-- The stored runs of a workflow or of all, each once, from the latest start to the earliest, with
those without a start at the end. -/
structure IsHistory (stored : RunSnapshot → Prop) (wanted : Option String)
    (listed : List RunSnapshot) : Prop where
  distinct : (listed.map RunSnapshot.runId).Nodup
  mem_iff : ∀ run, run ∈ listed ↔ stored run ∧ IsOf wanted run.workflowId
  newestFirst : listed.Pairwise fun newer older => older.StartedBefore newer

/-- **The listed runs are the history of the stored ones.** -/
theorem Lists.listRuns_eq (wanted : Option String) (lists : Lists encoding store runs)
    (chronological : encoding.Chronological (RunSnapshot.starts runs))
    (distinct : (runs.map RunSnapshot.runId).Nodup) : ∃ listed,
    listRuns encoding store wanted = .ok (listed.map RunSnapshot.summary) ∧
      IsHistory (· ∈ runs) wanted listed := by
  have selected : ∀ {row}, row ∈ store.historyRows wanted ↔
      row ∈ store.workflowRuns.rows ∧ IsOf wanted row.workflowId := fun {row} =>
    orderByDesc_perm.mem_iff.trans mem_select_iff
  obtain ⟨listed, areRows⟩ : ∃ listed, AreRowsOf encoding runs (store.historyRows wanted) listed :=
    AreRowsOf.exists_listed fun row member => by
      obtain ⟨run, inRuns, text, dumped, same⟩ := lists.row row (selected.mp member).1
      exact ⟨run, inRuns, text, dumped, same⟩
  have sameIds : (store.historyRows wanted).map WorkflowRow.runId =
      listed.map RunSnapshot.runId := areRows.map_eq fun _ _ => rfl
  have sameRanks : (store.historyRows wanted).map WorkflowRow.rank =
      listed.map (rankOf encoding) := areRows.map_eq fun _ _ => rfl
  have ids : (listed.map RunSnapshot.runId).Nodup := by
    rw [← sameIds, historyRows, (orderByDesc_perm.map WorkflowRow.runId).nodup_iff]
    exact (List.filter_sublist.map WorkflowRow.runId).nodup store.workflowRuns.distinct
  have inRuns : ∀ run ∈ listed, run ∈ runs ∧ IsOf wanted run.workflowId := by
    intro run member
    obtain ⟨row, inHistory, inRuns, text, _, rfl⟩ := areRows.exists_row member
    exact ⟨inRuns, (selected.mp inHistory).2⟩
  have mem_iff : ∀ run, run ∈ listed ↔ run ∈ runs ∧ IsOf wanted run.workflowId := by
    refine fun run => ⟨inRuns run, fun isStored => ?_⟩
    obtain ⟨text, _, stored⟩ := lists.stored run isStored.1
    have inHistory := selected.mpr ⟨stored, isStored.2⟩
    -- The run under the id of the row is the only one with this id.
    have isId : run.runId ∈ listed.map RunSnapshot.runId :=
      sameIds ▸ List.mem_map_of_mem inHistory
    obtain ⟨other, member, sameId⟩ := List.mem_map.mp isId
    obtain rfl := List.inj_on_of_nodup_map distinct (inRuns other member).1 isStored.1 sameId
    exact member
  refine ⟨listed, areRows.mapM_loadSummary, ids, mem_iff, ?_⟩
  have ranks : listed.Pairwise fun newer older =>
      rankOf encoding older ≤ rankOf encoding newer := by
    have sorted : ((store.historyRows wanted).map WorkflowRow.rank).Pairwise
        fun newer older => older ≤ newer := List.pairwise_map.mpr pairwise_orderByDesc
    rw [sameRanks] at sorted
    exact List.pairwise_map.mp sorted
  have apart : listed.Pairwise fun newer older => newer.runId ≠ older.runId :=
    List.pairwise_map.mp ids
  refine (ranks.and apart).imp_of_mem fun {newer older} member otherMember ordered => ?_
  exact (rankOf_le_iff chronological (inRuns older otherMember).1 (inRuns newer member).1
    ordered.2.symm).mp ordered.1

/-! ## Sequences of saves -/

/-- A sequence of saves has left a run under its id. -/
def Stored (encoding : Encoding) (saves : List RunSnapshot) (run : RunSnapshot) : Prop :=
  lastSaved (returned encoding ∅ saves) run.runId = some run

/-- The runs that are left when some runs are saved after others. -/
def keptAfter (runs saved : List RunSnapshot) : List RunSnapshot :=
  saved.foldl (fun runs run => runs.filter (·.runId ≠ run.runId) ++ [run]) runs

theorem keptAfter_concat (runs saved : List RunSnapshot) (run : RunSnapshot) :
    keptAfter runs (saved ++ [run]) =
      (keptAfter runs saved).filter (·.runId ≠ run.runId) ++ [run] := by
  rw [keptAfter, List.foldl_append]
  rfl

/-- The last saved run of each id is kept. -/
theorem mem_keptAfter_iff {saved : List RunSnapshot} :
    run ∈ keptAfter [] saved ↔ lastSaved saved run.runId = some run := by
  induction saved using List.reverseRecOn with
  | nil => simp [keptAfter, lastSaved]
  | append_singleton earlier last ih =>
      have concat : ∀ runId, lastSaved (earlier ++ [last]) runId =
          if last.runId = runId then some last else lastSaved earlier runId := by
        intro runId
        rw [lastSaved, List.reverse_append, List.reverse_singleton, List.singleton_append,
          List.find?_cons]
        split_ifs with same <;> simp [same, lastSaved]
      rw [keptAfter_concat, List.mem_append, List.mem_filter, ih, concat, List.mem_singleton]
      by_cases same : last.runId = run.runId
      · rw [if_pos same]
        simp [same, eq_comm]
      · rw [if_neg same]
        have notLast : run ≠ last := fun isLast => same (isLast ▸ rfl)
        simp [Ne.symm same, notLast]

theorem nodup_keptAfter (saved : List RunSnapshot) :
    ((keptAfter [] saved).map RunSnapshot.runId).Nodup := by
  induction saved using List.reverseRecOn with
  | nil => exact List.nodup_nil
  | append_singleton earlier last ih =>
      rw [keptAfter_concat]
      refine KeyedTable.nodup_append ((List.filter_sublist.map _).nodup ih) fun member => ?_
      obtain ⟨other, inFilter, sameId⟩ := List.mem_map.mp member
      exact of_decide_eq_true (List.mem_filter.mp inFilter).2 sameId

/-- The rows of a store are those of the runs that its saves have kept. -/
theorem Lists.saves (saves : List RunSnapshot) : ∀ {store : RunStore} {runs : List RunSnapshot},
    Lists encoding store runs →
      Lists encoding (saveAll encoding store saves)
        (keptAfter runs (returned encoding store saves)) := by
  induction saves with
  | nil => exact id
  | cons run rest ih =>
      intro store runs lists
      rw [saveAll]
      rcases returned_cons store run rest with ⟨split, storable⟩ | ⟨split, refused⟩
      · rw [split, keptAfter, List.foldl_cons]
        exact ih (lists.save storable)
      · rw [split, storeAfter_saveRun_of_not refused]
        exact ih lists

/-- **The history of a store is in chronological order.** The texts that `isoformat` writes
are in the order of the instants, byte by byte. So after any saves `list_runs` returns the
stored runs of a workflow, or all, each once, newest first, and `latest_run` returns the
first one. -/
theorem listRuns_newest_first (encoding : Encoding) (prints : encoding.PrintsIso)
    (saves : List RunSnapshot)
    (moments : ∀ run, Stored encoding saves run → ∀ instant, run.startedAt = some instant →
      ∃ moment : UtcDatetime, moment.instant = instant) :
    (∀ first second : UtcDatetime,
      Utf8.bytes first.isoformat < Utf8.bytes second.isoformat ↔ first.instant < second.instant) ∧
    ∀ wanted, ∃ listed,
      listRuns encoding (saveAll encoding ∅ saves) wanted =
        .ok (listed.map RunSnapshot.summary) ∧
      IsHistory (Stored encoding saves) wanted listed ∧
      ∀ workflowId, wanted = some workflowId →
        latestRun encoding (saveAll encoding ∅ saves) workflowId =
          .ok (listed.head?.map RunSnapshot.summary) := by
  refine ⟨fun first second => Utf8.bytes_lt_iff.trans UtcDatetime.isoformat_lt_iff,
    fun wanted => ?_⟩
  have lists : Lists encoding (saveAll encoding ∅ saves)
      (keptAfter [] (returned encoding ∅ saves)) := Lists.empty.saves saves
  have chronological : encoding.Chronological
      (RunSnapshot.starts (keptAfter [] (returned encoding ∅ saves))) := by
    refine prints.chronological fun instant member => ?_
    obtain ⟨run, isKept, started⟩ := member
    exact moments run (mem_keptAfter_iff.mp isKept) instant started
  obtain ⟨listed, returns, history⟩ :=
    lists.listRuns_eq wanted chronological (nodup_keptAfter _)
  have sameRuns : (· ∈ keptAfter [] (returned encoding ∅ saves)) = Stored encoding saves :=
    funext fun run => propext mem_keptAfter_iff
  rw [sameRuns] at history
  refine ⟨listed, returns, history, fun workflowId isWanted => ?_⟩
  rw [isWanted] at returns
  rw [latestRun_eq_of_listRuns returns, List.head?_map]

end RunStore

/-! ## A sample -/

namespace Encoding

open Classical in
/-- `isoformat` on the datetimes in UTC, and an invertible text elsewhere. -/
noncomputable def isoText (instant : ℚ) : String :=
  if known : ∃ moment : UtcDatetime, moment.instant = instant then known.choose.isoformat
  else String.ofList (List.replicate (Encodable.encode instant) 'I')

theorem isoText_instant (moment : UtcDatetime) : isoText moment.instant = moment.isoformat := by
  have known : ∃ other : UtcDatetime, other.instant = moment.instant := ⟨moment, rfl⟩
  rw [isoText, dif_pos known, UtcDatetime.instant_injective known.choose_spec]

theorem isoText_injective : Function.Injective isoText := by
  have apart : ∀ (moment : UtcDatetime) (count : ℕ),
      moment.isoformat ≠ String.ofList (List.replicate count 'I') := by
    intro moment count same
    have separator : '-' ∈ moment.isoformat.toList := by
      simp [UtcDatetime.isoformat, UtcDatetime.dateText]
    rw [same, String.toList_ofList, List.mem_replicate] at separator
    exact absurd separator.2 (by decide)
  intro first second same
  by_cases known : ∃ moment : UtcDatetime, moment.instant = first
  · obtain ⟨moment, rfl⟩ := known
    rw [isoText_instant] at same
    by_cases otherKnown : ∃ moment : UtcDatetime, moment.instant = second
    · obtain ⟨other, rfl⟩ := otherKnown
      rw [isoText_instant] at same
      rw [UtcDatetime.isoformat_injective same]
    · rw [isoText, dif_neg otherKnown] at same
      exact absurd same (apart moment _)
  · rw [isoText, dif_neg known] at same
    by_cases otherKnown : ∃ moment : UtcDatetime, moment.instant = second
    · obtain ⟨other, rfl⟩ := otherKnown
      rw [isoText_instant] at same
      exact absurd same.symm (apart other _)
    · rw [isoText, dif_neg otherKnown, String.ofList_inj] at same
      exact Encodable.encode_injective (List.replicate_left_inj.mp same)

open Classical in
/-- An encoding that writes the datetimes in UTC as `isoformat` does. -/
noncomputable def iso : Encoding :=
  { sample with
    isoformat := isoText
    fromisoformat := fun text =>
      if written : ∃ instant, isoText instant = text then .ok written.choose
      else .error (.valueError s!"Invalid isoformat string: '{text}'")
    fromisoformat_isoformat := by
      intro instant
      have written : ∃ other, isoText other = isoText instant := ⟨instant, rfl⟩
      rw [dif_pos written, isoText_injective written.choose_spec] }

end Encoding

namespace RunStore

/-- A run that starts at the last second of a leap day. -/
def wholeStart : UtcDatetime where
  year := 2024
  month := 2
  day := 29
  hour := 23
  minute := 59
  second := 59
  microsecond := 0
  one_le_year := by decide
  month_mem := by decide
  day_mem := by decide
  year_le := by decide
  hour_lt := by decide
  minute_lt := by decide
  second_lt := by decide
  microsecond_lt := by decide

/-- A run that starts half a second later. -/
def halfStart : UtcDatetime :=
  { wholeStart with microsecond := 500000, microsecond_lt := by decide }

/-- The first run. -/
noncomputable def wholeRun : RunSnapshot :=
  { workflowId := "nightly", runId := "whole", startedAt := some wholeStart.instant }

/-- The second run. -/
noncomputable def halfRun : RunSnapshot :=
  { workflowId := "nightly", runId := "half", startedAt := some halfStart.instant }

theorem returned_halfRun : returned .iso ∅ [halfRun, wholeRun] = [halfRun, wholeRun] := by
  have storable : ∀ workflowId runId startedAt,
      Storable .iso { workflowId, runId, startedAt } := fun _ _ _ => ⟨⟨"{}", rfl⟩, List.nodup_nil⟩
  rcases returned_cons ∅ halfRun [wholeRun] with ⟨first, _⟩ | ⟨_, refused⟩
  · rw [first]
    rcases returned_cons (storeAfter (saveRun .iso halfRun) ∅) wholeRun [] with
      ⟨second, _⟩ | ⟨_, refused⟩
    · rw [second]
      rfl
    · exact absurd (storable _ _ _) refused
  · exact absurd (storable _ _ _) refused

theorem eq_of_stored {run : RunSnapshot} (stored : Stored .iso [halfRun, wholeRun] run) :
    run = halfRun ∨ run = wholeRun := by
  rw [Stored, returned_halfRun, lastSaved] at stored
  simpa using List.mem_reverse.mp (List.mem_of_find?_eq_some stored)

/-- The run whose start has a fraction is listed as the newer one. -/
theorem listRuns_newest_first_half :
    latestRun .iso (saveAll .iso ∅ [halfRun, wholeRun]) "nightly" = .ok (some halfRun.summary) := by
  obtain ⟨_, histories⟩ := listRuns_newest_first .iso Encoding.isoText_instant [halfRun, wholeRun]
    fun run stored instant started => by
      rcases eq_of_stored stored with rfl | rfl
      · exact ⟨halfStart, Option.some.inj started⟩
      · exact ⟨wholeStart, Option.some.inj started⟩
  obtain ⟨listed, _, history, latest⟩ := histories (some "nightly")
  have newer : halfRun ∈ listed := by
    refine (history.mem_iff _).mpr ⟨?_, fun workflow isWanted => Option.some.inj isWanted⟩
    rw [Stored, returned_halfRun]
    rfl
  rw [latest "nightly" rfl]
  cases listed with
  | nil => cases newer
  | cons first rest =>
      rcases eq_of_stored ((history.mem_iff first).mp List.mem_cons_self).1 with rfl | rfl
      · rfl
      · have different : halfRun ≠ wholeRun := fun same =>
          absurd (congrArg RunSnapshot.runId same) (by decide)
        have later := (List.mem_cons.mp newer).resolve_left different
        -- The run of the whole second would be the newer one.
        rcases List.rel_of_pairwise_cons history.newestFirst later with less | ⟨same, _⟩
        · exact absurd (UtcDatetime.instant_lt_iff.mp less) (by decide)
        · exact absurd (congrArg UtcDatetime.microsecond (UtcDatetime.instant_injective same))
            (by decide)

end RunStore

end EtlOrchestrator

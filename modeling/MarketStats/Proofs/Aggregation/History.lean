import MarketStats.Aggregation.History
import MarketStats.Proofs.Aggregation.Effect
import MarketStats.Proofs.Deployment.Requests
import Mathlib.Data.List.Sort

/-!
# What the history of volumes consists of

The history of a scope for some hours has the stored rows of these hours, as far
as they belong to the project, and it lists them by increasing hour.  Its range
is never turned around.  Behind a pass over a scope that had no rows there is a
row for every hour.
-/

namespace MarketStats

/-- Lists in strictly increasing order are equal if they have the same items. -/
theorem eq_of_increasing {Item : Type} (key : Item → Int) {first second : List Item}
    (firstIncreasing : first.Pairwise fun earlier later => key earlier < key later)
    (secondIncreasing : second.Pairwise fun earlier later => key earlier < key later)
    (same : ∀ item, item ∈ first ↔ item ∈ second) : first = second := by
  have : Std.Irrefl fun earlier later => key earlier < key later :=
    ⟨fun item => Int.lt_irrefl (key item)⟩
  have : Std.Antisymm fun earlier later => key earlier < key later :=
    ⟨fun _ _ less greater => absurd greater (Int.not_lt.mpr (Int.le_of_lt less))⟩
  exact firstIncreasing.eq_of_mem_iff secondIncreasing same

namespace HourBucket

theorem index_max (first second : HourBucket) :
    (max first second).index = max first.index second.index := by
  change (if first ≤ second then second else first).index = _
  split
  · rename_i ordered
    exact (Int.max_eq_right ordered).symm
  · rename_i passed
    exact (Int.max_eq_left (Int.le_of_lt (Int.not_le.mp passed))).symm

/-- The hours from one to another, both included, with the earliest one first. -/
def between (first last : HourBucket) : List HourBucket :=
  (backTo first last).reverse

variable {first last : HourBucket}

theorem mem_between_iff {hour : HourBucket} :
    hour ∈ between first last ↔ first ≤ hour ∧ hour ≤ last := by
  rw [between, List.mem_reverse, mem_backTo_iff]

theorem pairwise_between (first last : HourBucket) :
    (between first last).Pairwise (· < ·) :=
  List.pairwise_reverse.mpr (pairwise_backTo first last)

theorem length_between (first last : HourBucket) :
    (between first last).length = span first last := by
  rw [between, List.length_reverse]
  generalize count : span first last = number
  induction number generalizing last with
  | zero => rw [backTo_of_lt (span_eq_zero_iff.mp count), List.length_nil]
  | succ number ih =>
      have ordered : first ≤ last := by
        refine Int.not_lt.mp fun passed => ?_
        have none := span_eq_zero_iff.mpr passed
        omega
      cases stepped : last.previous? with
      | none =>
          obtain rfl := eq_of_previous?_eq_none ordered stepped
          rw [backTo_of_previous?_eq_none ordered stepped, List.length_singleton]
          simp only [span] at count
          omega
      | some earlier =>
          have shorter := span_previous ordered stepped
          rw [backTo_of_previous? ordered stepped, List.length_cons, ih earlier (by omega)]

/-- The hours of a project among the last ones, with the earliest one first. -/
def lastHours (floor last : HourBucket) (hours : Nat) : List HourBucket :=
  (between floor last).filter fun hour => decide (last.index < hour.index + hours)

variable {floor : HourBucket} {hours : Nat}

theorem mem_lastHours_iff {hour : HourBucket} :
    hour ∈ lastHours floor last hours ↔
      floor ≤ hour ∧ hour ≤ last ∧ last.index < hour.index + hours := by
  rw [lastHours, List.mem_filter, mem_between_iff, decide_eq_true_eq, and_assoc]

theorem pairwise_lastHours (floor last : HourBucket) (hours : Nat) :
    (lastHours floor last hours).Pairwise (· < ·) :=
  (pairwise_between floor last).filter _

/-- The last hours of a project are those from the first of them on, or from the
start of the project. -/
theorem lastHours_eq_between
    (firstIndex : max floor.index (last.index + 1 - hours) = first.index) :
    lastHours floor last hours = between first last := by
  refine eq_of_increasing index (pairwise_lastHours floor last hours)
    (pairwise_between first last) fun hour => ?_
  rw [mem_lastHours_iff, mem_between_iff]
  change floor.index ≤ hour.index ∧ hour.index ≤ last.index ∧ _ ↔
    first.index ≤ hour.index ∧ hour.index ≤ last.index
  omega

theorem lastHours_eq_nil (none : hours = 0 ∨ last < floor) : lastHours floor last hours = [] := by
  refine List.eq_nil_iff_forall_not_mem.mpr fun hour member => ?_
  obtain ⟨notBefore, notAfter, within⟩ := mem_lastHours_iff.mp member
  change floor.index ≤ hour.index at notBefore
  change hour.index ≤ last.index at notAfter
  change hours = 0 ∨ last.index < floor.index at none
  omega

theorem length_lastHours (floor last : HourBucket) (hours : Nat) :
    (lastHours floor last hours).length = min hours (span floor last) := by
  have floorGe := floor.index_ge
  have floorLe := floor.index_le
  have lastLe := last.index_le
  by_cases inRange : max floor.index (last.index + 1 - hours) ≤ greatestIndex
  · let first : HourBucket := ⟨max floor.index (last.index + 1 - hours), by omega, inRange⟩
    have firstIndex : max floor.index (last.index + 1 - hours) = first.index := rfl
    rw [lastHours_eq_between firstIndex, length_between]
    simp only [span]
    omega
  · -- The last hours would start behind all hours there are.
    rw [lastHours_eq_nil (.inl (by omega)), List.length_nil]
    omega

end HourBucket

namespace Marketplace

variable {market : Marketplace} {scope : VolumeScope} {first last floor : HourBucket}
variable {hours : Nat}

/-- Every row is stored under its own scope and hour. -/
def KeepsOwnRows (market : Marketplace) : Prop :=
  ∀ scope hour row, market.row? scope hour = some row → row.scope = scope ∧ row.hour = hour

theorem keepsOwnRows_empty : empty.KeepsOwnRows := by
  intro scope hour row found
  rw [row?, empty, Std.TreeMap.getElem?_emptyc] at found
  cases found

/-- Passes put every row under its own scope and hour. -/
theorem KeepsOwnRows.behind_passes {scopes : List VolumeScope} {cancelled : Cancellation}
    {window rows : Nat} {before after : Deployment} {outcome : Except Failure PassSummary}
    {written : VolumeScope → List HourBucket} (own : before.market.KeepsOwnRows)
    (passes : Operation.Passes scopes cancelled window floor last rows before after outcome
      written) : after.market.KeepsOwnRows := by
  intro scope hour row found
  by_cases isWritten : hour ∈ written scope
  · obtain ⟨put, foundPut, sameScope, sameHour, -⟩ := passes.rewritten scope hour isWritten
    obtain rfl := Option.some.inj (foundPut.symm.trans found)
    exact ⟨sameScope, sameHour⟩
  · rw [passes.kept scope hour isWritten] at found
    exact own scope hour row found

theorem KeepsOwnRows.afterStep {deployment : Deployment} (own : deployment.market.KeepsOwnRows)
    (settings : AggregationSettings) (step : MarketStep) :
    (deployment.afterStep settings step).market.KeepsOwnRows := by
  cases step with
  | record transaction => exact own
  | addToken collectionId token => exact own
  | pass planned =>
      obtain ⟨written, passes⟩ := planned.exists_passes settings deployment
      have ownBefore : { deployment with outages := planned.outages }.market.KeepsOwnRows := own
      exact ownBefore.behind_passes passes

/-- Whatever is run from a marketplace without rows, every row is stored under
its own scope and hour. -/
theorem keepsOwnRows_afterSteps {deployment : Deployment} (unaggregated : deployment.market = empty)
    (settings : AggregationSettings) (steps : List MarketStep) :
    (deployment.afterSteps settings steps).market.KeepsOwnRows := by
  have own : deployment.market.KeepsOwnRows := unaggregated ▸ keepsOwnRows_empty
  clear unaggregated
  induction steps generalizing deployment with
  | nil => exact own
  | cons step rest ih => exact ih (own.afterStep settings step)

/-- A range of rows consists of the rows that are stored for its hours, with the
earliest one first. -/
theorem rowsBetween?_eq_filterMap (ordered : first ≤ last) :
    market.rowsBetween? scope first last =
      some ((HourBucket.between first last).filterMap (market.row? scope)) := by
  -- Both lists are compared with the hours under which their rows are stored.
  have same : ((market.rows.toList.filter fun entry => entry.1.1 == scope
        && decide (first ≤ entry.1.2) && decide (entry.1.2 ≤ last)).map
          fun entry => (entry.1.2, entry.2)) =
      (HourBucket.between first last).filterMap fun hour =>
        (market.row? scope hour).map fun row => (hour, row) := by
    apply eq_of_increasing fun entry => entry.1.index
    · rw [List.pairwise_map, List.pairwise_filter]
      refine Std.TreeMap.ordered_keys_toList.imp ?_
      rintro ⟨⟨firstScope, firstHour⟩, firstRow⟩ ⟨⟨secondScope, secondHour⟩, secondRow⟩ less
        firstInRange secondInRange
      simp only [Bool.and_eq_true, beq_iff_eq] at firstInRange secondInRange
      obtain ⟨⟨rfl, -⟩, -⟩ := firstInRange
      obtain ⟨⟨rfl, -⟩, -⟩ := secondInRange
      have hours : compare firstHour secondHour = .lt := by
        simpa [compareLex, compareOn, Std.ReflCmp.compare_self] using less
      exact Int.compare_eq_lt.mp hours
    · refine List.Pairwise.filterMap _ ?_ (HourBucket.pairwise_between first last)
      intro earlier later less entry isEntry other isOther
      obtain ⟨row, -, rfl⟩ := Option.map_eq_some_iff.mp isEntry
      obtain ⟨otherRow, -, rfl⟩ := Option.map_eq_some_iff.mp isOther
      exact less
    · rintro ⟨hour, row⟩
      simp only [List.mem_map, List.mem_filter, List.mem_filterMap, Option.map_eq_some_iff,
        HourBucket.mem_between_iff, Bool.and_eq_true, beq_iff_eq, decide_eq_true_eq, Prod.mk.injEq,
        row?]
      constructor
      · rintro ⟨⟨⟨rowScope, rowHour⟩, stored⟩, ⟨listed, ⟨rfl, notBefore⟩, notAfter⟩, rfl, rfl⟩
        exact ⟨rowHour, ⟨notBefore, notAfter⟩, stored,
          Std.TreeMap.mem_toList_iff_getElem?_eq_some.mp listed, rfl, rfl⟩
      · rintro ⟨rowHour, ⟨notBefore, notAfter⟩, stored, found, rfl, rfl⟩
        exact ⟨((scope, rowHour), stored), ⟨Std.TreeMap.mem_toList_iff_getElem?_eq_some.mpr found,
          ⟨rfl, notBefore⟩, notAfter⟩, rfl, rfl⟩
  have rows := congrArg (List.map Prod.snd) same
  rw [List.map_map, List.map_filterMap] at rows
  rw [rowsBetween?, if_pos ordered]
  refine congrArg some (rows.trans (List.filterMap_congr fun hour _ => ?_))
  rw [Option.map_map]
  exact Option.map_id'

/-- The stored rows of some hours up to the last one, as far as these belong to
the project, with the earliest one first. -/
def historyRows (market : Marketplace) (scope : VolumeScope) (floor last : HourBucket)
    (hours : Nat) : List HourlyVolume :=
  (HourBucket.lastHours floor last hours).filterMap (market.row? scope)

theorem mem_historyRows_iff {row : HourlyVolume} :
    row ∈ market.historyRows scope floor last hours ↔
      ∃ hour : HourBucket, market.row? scope hour = some row ∧ floor ≤ hour ∧ hour ≤ last ∧
        last.index < hour.index + hours := by
  simp only [historyRows, List.mem_filterMap, HourBucket.mem_lastHours_iff]
  constructor
  · rintro ⟨hour, ⟨notBefore, notAfter, within⟩, found⟩
    exact ⟨hour, found, notBefore, notAfter, within⟩
  · rintro ⟨hour, found, notBefore, notAfter, within⟩
    exact ⟨hour, ⟨notBefore, notAfter, within⟩, found⟩

theorem length_historyRows_le :
    (market.historyRows scope floor last hours).length ≤ hours :=
  Nat.le_trans (List.length_filterMap_le _ _)
    (HourBucket.length_lastHours floor last hours ▸ Nat.min_le_left _ _)

/-- The rows of a history stand under increasing hours. -/
theorem KeepsOwnRows.pairwise_historyRows (own : market.KeepsOwnRows) :
    ((market.historyRows scope floor last hours).map HourlyVolume.hour).Pairwise (· < ·) := by
  rw [historyRows, List.pairwise_map]
  refine List.Pairwise.filterMap _ ?_ (HourBucket.pairwise_lastHours floor last hours)
  intro earlier later less row found other foundOther
  rw [(own scope earlier row found).2, (own scope later other foundOther).2]
  exact less

/-- Where every hour of the project has a row, a history has one for each of its
hours. -/
theorem map_hour_historyRows
    (present : ∀ hour, floor ≤ hour → hour ≤ last →
      ∃ row, market.row? scope hour = some row ∧ row.hour = hour) :
    (market.historyRows scope floor last hours).map HourlyVolume.hour =
      HourBucket.lastHours floor last hours := by
  have presentLast : ∀ hour ∈ HourBucket.lastHours floor last hours,
      ∃ row, market.row? scope hour = some row ∧ row.hour = hour := by
    intro hour member
    obtain ⟨notBefore, notAfter, -⟩ := HourBucket.mem_lastHours_iff.mp member
    exact present hour notBefore notAfter
  rw [historyRows]
  generalize HourBucket.lastHours floor last hours = listed at presentLast ⊢
  induction listed with
  | nil => rfl
  | cons hour rest ih =>
      obtain ⟨⟨row, found, sameHour⟩, presentRest⟩ := List.forall_mem_cons.mp presentLast
      rw [List.filterMap_cons_some found, List.map_cons, sameHour, ih presentRest]

end Marketplace

namespace Operation

open Deployment Marketplace

variable {settings : AggregationSettings} {scope : VolumeScope} {now : Calendar.Instant}
variable {hours : Nat} {before after : Deployment}

/-- A range of rows that is not turned around is answered, unless the request
meets an outage. -/
theorem runOn_rowsBetween {first last : HourBucket} (ordered : first ≤ last) :
    (askMarket (.rowsBetween scope first last)).runOn before =
      (if before.isStruckBy (.market (.rowsBetween scope first last)) then
          .error (.error Endpoint.rowsBetween.outageError)
        else
          .ok ((HourBucket.between first last).filterMap (before.market.row? scope)),
        before.afterRequest (.market (.rowsBetween scope first last))) := by
  rw [runOn_askMarket, perform, rowsBetween?_eq_filterMap ordered]
  split
  · rfl
  · rfl

/-- What becomes of a history: it has no hours, or it is out of range, or it is
the answer to one request for the rows of a range that is not turned around. -/
theorem runOn_volumeHistory_cases (settings : AggregationSettings) (scope : VolumeScope)
    (now : Calendar.Instant) (hours : Nat) (before : Deployment) :
    ((hours = 0 ∨ HourBucket.containing now < settings.floor) ∧
      (volumeHistory settings scope now hours).runOn before = (.ok [], before)) ∨
    (0 < hours ∧ settings.floor ≤ HourBucket.containing now ∧
      (HourBucket.containing now).hoursBefore? (hours - 1) = none ∧
      (volumeHistory settings scope now hours).runOn before =
        (.error (.error (historyOutOfRange hours)), before)) ∨
    ∃ first : HourBucket, 0 < hours ∧ settings.floor ≤ HourBucket.containing now ∧
      ((HourBucket.containing now).hoursBefore? (hours - 1)).isSome = true ∧
      first ≤ HourBucket.containing now ∧
      (volumeHistory settings scope now hours).runOn before =
        (if before.isStruckBy (.market (.rowsBetween scope first (HourBucket.containing now))) then
            .error (.error Endpoint.rowsBetween.outageError)
          else
            .ok (before.market.historyRows scope settings.floor (HourBucket.containing now) hours),
          before.afterRequest
            (.market (.rowsBetween scope first (HourBucket.containing now)))) := by
  by_cases none : hours = 0 ∨ HourBucket.containing now < settings.floor
  · refine .inl ⟨none, ?_⟩
    rw [volumeHistory, if_pos none]
    rfl
  obtain ⟨asked, reached⟩ := not_or.mp none
  have ordered : settings.floor ≤ HourBucket.containing now := Int.not_lt.mp reached
  refine .inr ?_
  cases back : (HourBucket.containing now).hoursBefore? (hours - 1) with
  | none =>
      refine .inl ⟨Nat.pos_of_ne_zero asked, ordered, rfl, ?_⟩
      rw [volumeHistory, if_neg none, back]
      rfl
  | some start =>
      have position := HourBucket.hoursBefore?_eq_some_iff.mp back
      have isFirst := HourBucket.index_max start settings.floor
      have floorNotAfter : settings.floor.index ≤ (HourBucket.containing now).index := ordered
      have firstNotAfter : max start settings.floor ≤ HourBucket.containing now := by
        change (max start settings.floor).index ≤ (HourBucket.containing now).index
        omega
      have firstIndex : max settings.floor.index ((HourBucket.containing now).index + 1 - hours) =
          (max start settings.floor).index := by
        omega
      refine .inr ⟨max start settings.floor, Nat.pos_of_ne_zero asked, ordered, rfl,
        firstNotAfter, ?_⟩
      rw [volumeHistory, if_neg none, back]
      dsimp only
      rw [runOn_rowsBetween firstNotAfter, historyRows, HourBucket.lastHours_eq_between firstIndex]

/-- The rows of a scope behind a pass that has put one for every hour. -/
theorem exists_row_behind_pass {start middle : Deployment} {summary : PassSummary}
    (ran : (runPass settings .never now).runOn start = (.ok summary, middle))
    (wanted : scope ∈ settings.scopes start.market)
    (noRows : ∀ hour, start.market.row? scope hour = none) (hour : HourBucket)
    (notBefore : settings.floor ≤ hour) (notAfter : hour ≤ HourBucket.containing now) :
    ∃ row, middle.market.row? scope hour = some row ∧ row.hour = hour := by
  obtain ⟨written, passes⟩ := exists_passes_of_runPass ran
  obtain ⟨-, -, all⟩ := passes.completed summary rfl
  have isWritten : hour ∈ written scope := by
    rw [all rfl scope wanted, dueHours_of_no_rows noRows]
    exact HourBucket.mem_backTo_iff.mpr ⟨notBefore, notAfter⟩
  obtain ⟨row, found, -, sameHour, -⟩ := passes.rewritten scope hour isWritten
  exact ⟨row, found, sameHour⟩

section Ran

variable {outcome : Except Failure (List HourlyVolume)}
variable (ran : (volumeHistory settings scope now hours).runOn before = (outcome, after))

include ran

theorem volumeHistory_outOfRange_iff :
    outcome = .error (.error (historyOutOfRange hours)) ↔
      1 ≤ hours ∧ settings.floor ≤ HourBucket.containing now ∧
        (HourBucket.containing now).hoursBefore? (hours - 1) = none := by
  have cases := runOn_volumeHistory_cases settings scope now hours before
  rw [ran] at cases
  rcases cases with ⟨none, same⟩ | ⟨asked, ordered, unrepresentable, same⟩ |
    ⟨first, -, -, representable, -, same⟩
  · obtain ⟨rfl, -⟩ := Prod.mk.inj same
    refine ⟨nofun, fun ⟨asked, ordered, _⟩ => ?_⟩
    change settings.floor.index ≤ (HourBucket.containing now).index at ordered
    change hours = 0 ∨ (HourBucket.containing now).index < settings.floor.index at none
    omega
  · exact ⟨fun _ => ⟨asked, ordered, unrepresentable⟩, fun _ => (Prod.mk.inj same).1⟩
  · refine ⟨fun failed => ?_, fun ⟨_, _, unrepresentable⟩ => ?_⟩
    · have answer := (Prod.mk.inj same).1
      rw [failed] at answer
      split at answer <;> exact nomatch answer
    · rw [unrepresentable] at representable
      exact nomatch representable

theorem volumeHistory_eq_nil (none : hours = 0 ∨ HourBucket.containing now < settings.floor) :
    outcome = .ok [] := by
  rw [volumeHistory, if_pos none] at ran
  exact (Prod.mk.inj ran).1.symm

/-- What is answered are the stored rows of the last hours. -/
theorem eq_historyRows_of_answered {rows : List HourlyVolume} (answered : outcome = .ok rows) :
    rows = before.market.historyRows scope settings.floor (HourBucket.containing now) hours := by
  subst answered
  have cases := runOn_volumeHistory_cases settings scope now hours before
  rw [ran] at cases
  rcases cases with ⟨none, same⟩ | ⟨-, -, -, same⟩ | ⟨first, -, -, -, -, same⟩
  · obtain ⟨⟨⟩, -⟩ := Prod.mk.inj same
    rw [historyRows, HourBucket.lastHours_eq_nil none, List.filterMap_nil]
  · exact nomatch (Prod.mk.inj same).1
  · have answer := (Prod.mk.inj same).1
    split at answer
    · exact nomatch answer
    · exact Except.ok.inj answer

theorem volumeHistory_failure {failure : Failure} (failed : outcome = .error failure) :
    failure = .error (historyOutOfRange hours) ∨
      failure = .error Endpoint.rowsBetween.outageError ∧
        ∃ first, before.isStruckBy
          (.market (.rowsBetween scope first (HourBucket.containing now))) = true := by
  subst failed
  have cases := runOn_volumeHistory_cases settings scope now hours before
  rw [ran] at cases
  rcases cases with ⟨-, same⟩ | ⟨-, -, -, same⟩ | ⟨first, -, -, -, -, same⟩
  · exact nomatch (Prod.mk.inj same).1
  · exact .inl (Except.error.inj (Prod.mk.inj same).1)
  · have answer := (Prod.mk.inj same).1
    split at answer
    · rename_i struck
      exact .inr ⟨Except.error.inj answer, first, struck⟩
    · exact nomatch answer

/-- The range of rows that is asked for is not turned around. -/
theorem volumeHistory_asksOnly :
    AsksOnly (fun request => ∃ first, first ≤ HourBucket.containing now ∧
      request = .market (.rowsBetween scope first (HourBucket.containing now))) before after := by
  have cases := runOn_volumeHistory_cases settings scope now hours before
  rw [ran] at cases
  rcases cases with ⟨-, same⟩ | ⟨-, -, -, same⟩ | ⟨first, -, -, -, notInverted, same⟩
  · obtain ⟨-, rfl⟩ := Prod.mk.inj same
    exact ⟨[], .nothing _, List.forall_mem_nil _⟩
  · obtain ⟨-, rfl⟩ := Prod.mk.inj same
    exact ⟨[], .nothing _, List.forall_mem_nil _⟩
  · obtain ⟨-, rfl⟩ := Prod.mk.inj same
    refine ⟨[_], .one _ _, ?_⟩
    rintro request listed
    exact ⟨first, notInverted, List.mem_singleton.mp listed⟩

end Ran

/-- The history of a scope fails as out of range exactly if it asks for an hour
of the project's past that is not representable, and otherwise only if its one
request meets an outage; the range of this request is not turned around.  What
it answers are the rows stored for the last hours of the project, by increasing
hour.  Behind a pass over a scope that had no rows these are one for every
hour. -/
theorem volumeHistory_lists_lastHours (settings : AggregationSettings) (scope : VolumeScope)
    (now : Calendar.Instant) (hours : Nat) (before : Deployment) {after : Deployment}
    {outcome : Except Failure (List HourlyVolume)}
    (ran : (volumeHistory settings scope now hours).runOn before = (outcome, after)) :
    (outcome = .error (.error (historyOutOfRange hours)) ↔
      1 ≤ hours ∧ settings.floor ≤ HourBucket.containing now ∧
        (HourBucket.containing now).hoursBefore? (hours - 1) = none) ∧
    (hours = 0 ∨ HourBucket.containing now < settings.floor → outcome = .ok []) ∧
    (∀ rows, outcome = .ok rows →
      rows = before.market.historyRows scope settings.floor (HourBucket.containing now) hours ∧
        rows.length ≤ hours ∧
        (∀ row, row ∈ rows ↔ ∃ hour : HourBucket, before.market.row? scope hour = some row ∧
          settings.floor ≤ hour ∧ hour ≤ HourBucket.containing now ∧
          (HourBucket.containing now).index - ((hours : Int) - 1) ≤ hour.index) ∧
        (before.market.KeepsOwnRows → (rows.map HourlyVolume.hour).Pairwise (· < ·) ∧
          ∀ row ∈ rows, row.scope = scope)) ∧
    (∀ failure, outcome = .error failure → failure = .error (historyOutOfRange hours) ∨
      failure = .error Endpoint.rowsBetween.outageError ∧
        ∃ first, before.isStruckBy
          (.market (.rowsBetween scope first (HourBucket.containing now))) = true) ∧
    AsksOnly (fun request => ∃ first, first ≤ HourBucket.containing now ∧
      request = .market (.rowsBetween scope first (HourBucket.containing now))) before after ∧
    ∀ start summary middle,
      (runPass settings .never now).runOn start = (.ok summary, middle) →
        before.market = middle.market → scope ∈ settings.scopes start.market →
        (∀ hour, start.market.row? scope hour = none) → ∀ rows, outcome = .ok rows →
          rows.map HourlyVolume.hour =
              HourBucket.lastHours settings.floor (HourBucket.containing now) hours ∧
            rows.length = min hours (settings.floor.span (HourBucket.containing now)) := by
  refine ⟨volumeHistory_outOfRange_iff ran, volumeHistory_eq_nil ran, ?_,
    fun _ => volumeHistory_failure ran, volumeHistory_asksOnly ran, ?_⟩
  · intro rows answered
    obtain rfl := eq_historyRows_of_answered ran answered
    refine ⟨rfl, length_historyRows_le, fun row => ?_, fun own => ⟨own.pairwise_historyRows, ?_⟩⟩
    · rw [mem_historyRows_iff]
      refine exists_congr fun hour => and_congr_right fun _ => and_congr_right fun _ =>
        and_congr_right fun _ => ?_
      omega
    · intro row listed
      obtain ⟨hour, found, -⟩ := mem_historyRows_iff.mp listed
      exact (own scope hour row found).1
  · intro start summary middle ranPass sameMarket wanted noRows rows answered
    obtain rfl := eq_historyRows_of_answered ran answered
    have listed : (middle.market.historyRows scope settings.floor (HourBucket.containing now)
        hours).map HourlyVolume.hour =
        HourBucket.lastHours settings.floor (HourBucket.containing now) hours :=
      map_hour_historyRows fun hour notBefore notAfter =>
        exists_row_behind_pass ranPass wanted noRows hour notBefore notAfter
    rw [← sameMarket] at listed
    refine ⟨listed, ?_⟩
    rw [← HourBucket.length_lastHours, ← listed, List.length_map]

/-- Behind the first pass of a project, in its third hour, the history of five
hours has a row for each of the three hours there have been. -/
theorem volumeHistory_lists_lastHours_thirdHour :
    ∃ middle rows after,
      (runPass (hourlySettings 1) .never (thirdHourPass []).now).runOn (.empty 0 0 0 0 none) =
          (.ok { scopes := 1, hours := 3 }, middle) ∧
        (volumeHistory (hourlySettings 1) .global (thirdHourPass []).now 5).runOn
          { middle with outages := [] } = (.ok rows, after) ∧
        (rows.map HourlyVolume.hour).map HourBucket.key = [2024050100, 2024050101, 2024050102] := by
  have first : ((runPass (hourlySettings 1) .never (thirdHourPass []).now).runOn
      (.empty 0 0 0 0 none)).1.toOption = some { scopes := 1, hours := 3 } := by
    decide +kernel
  rcases ranPass : (runPass (hourlySettings 1) .never (thirdHourPass []).now).runOn
      (.empty 0 0 0 0 none) with ⟨failure | summary, middle⟩
  · rw [ranPass] at first
    exact nomatch first
  rw [ranPass] at first
  cases first
  rcases ran : (volumeHistory (hourlySettings 1) .global (thirdHourPass []).now 5).runOn
      { middle with outages := [] } with ⟨outcome, after⟩
  obtain ⟨outOfRange, -, -, fails, -, complete⟩ :=
    volumeHistory_lists_lastHours (hourlySettings 1) .global (thirdHourPass []).now 5 _ ran
  cases outcome with
  | error failure =>
      rcases fails failure rfl with rfl | ⟨-, first, struck⟩
      · obtain ⟨-, -, unrepresentable⟩ := outOfRange.mp rfl
        have representable : ((HourBucket.containing (thirdHourPass []).now).hoursBefore?
            (5 - 1)).isSome = true := by
          decide +kernel
        rw [unrepresentable] at representable
        exact nomatch representable
      · rw [isStruckBy_of_no_outages rfl] at struck
        exact nomatch struck
  | ok rows =>
      obtain ⟨hours, -⟩ := complete _ _ middle ranPass rfl (List.mem_singleton.mpr rfl)
        (fun _ => Std.TreeMap.getElem?_emptyc) rows rfl
      refine ⟨middle, rows, after, rfl, ran, ?_⟩
      rw [hours]
      decide +kernel

end Operation

end MarketStats

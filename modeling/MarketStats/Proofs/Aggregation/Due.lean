import MarketStats.Aggregation.Walk
import MarketStats.Proofs.HourBucket.Steps

/-!
# The hours that are due

The frontier of a scope is its latest row behind the recent window.  The hours
behind the frontier, up to the last one, are due to be aggregated; where there
is no frontier, all hours of the project are.  A walk meets them one by one,
from the last one back.
-/

namespace MarketStats

namespace HourBucket

/-- The hours from one to another, both included, with the latest one first. -/
def backTo (first last : HourBucket) : List HourBucket :=
  (List.range (span first last)).filterMap last.hoursBefore?

variable {first last earlier : HourBucket}

theorem mem_backTo_iff {hour : HourBucket} :
    hour ∈ backTo first last ↔ first ≤ hour ∧ hour ≤ last := by
  change _ ↔ first.index ≤ hour.index ∧ hour.index ≤ last.index
  simp only [backTo, List.mem_filterMap, List.mem_range, hoursBefore?_eq_some_iff, span]
  constructor
  · rintro ⟨hours, inSpan, position⟩
    omega
  · rintro ⟨notBefore, notAfter⟩
    exact ⟨(last.index - hour.index).toNat, by omega, by omega⟩

theorem backTo_of_lt (passed : last < first) : backTo first last = [] := by
  rw [backTo, span_eq_zero_iff.mpr passed]
  rfl

theorem backTo_of_previous? (ordered : first ≤ last) (stepped : last.previous? = some earlier) :
    backTo first last = last :: backTo first earlier := by
  have one : last.hoursBefore? 1 = some earlier := stepped
  have shifted : ∀ hours, last.hoursBefore? (hours + 1) = earlier.hoursBefore? hours := by
    intro hours
    rw [Nat.add_comm, ← hoursBefore?_bind_hoursBefore?, one, Option.bind_some]
  rw [backTo, span_previous ordered stepped, List.range_succ_eq_map,
    List.filterMap_cons_some (hoursBefore?_zero last), List.filterMap_map, backTo]
  exact congrArg (fun step => last :: List.filterMap step _) (funext shifted)

/-- The first representable hour has no earlier one. -/
theorem eq_of_previous?_eq_none (ordered : first ≤ last) (atStart : last.previous? = none) :
    first = last := by
  apply eq_of_index_eq
  have behind := ofIndex?_eq_none_iff.mp atStart
  have firstGe := first.index_ge
  have lastLe := last.index_le
  change first.index ≤ last.index at ordered
  omega

theorem backTo_of_previous?_eq_none (ordered : first ≤ last) (atStart : last.previous? = none) :
    backTo first last = [last] := by
  have same := eq_of_previous?_eq_none ordered atStart
  subst same
  have one : span first first = 1 := by
    simp only [span]
    omega
  rw [backTo, one]
  simp [List.range_succ]

theorem exists_backTo_eq_cons (ordered : first ≤ last) :
    ∃ rest, backTo first last = last :: rest := by
  cases stepped : last.previous? with
  | none => exact ⟨[], backTo_of_previous?_eq_none ordered stepped⟩
  | some earlier => exact ⟨_, backTo_of_previous? ordered stepped⟩

theorem pairwise_backTo (first last : HourBucket) :
    (backTo first last).Pairwise fun later earlier => earlier < later := by
  refine List.Pairwise.filterMap _ ?_ List.pairwise_lt_range
  intro fewer more ordered later isLater earlier isEarlier
  have laterPosition := hoursBefore?_eq_some_iff.mp isLater
  have earlierPosition := hoursBefore?_eq_some_iff.mp isEarlier
  change earlier.index < later.index
  omega

end HourBucket

namespace Marketplace

/-- A row of an hour behind the recent window stops a walk in front of it. -/
def stopsAt (market : Marketplace) (scope : VolumeScope) (window : Nat) (last hour : HourBucket) :
    Bool :=
  decide (hour.index + window ≤ last.index) && market.hasRow scope hour

/-- The latest hour behind the recent window that has a row. -/
def frontier? (market : Marketplace) (scope : VolumeScope) (window : Nat)
    (floor last : HourBucket) : Option HourBucket :=
  (HourBucket.backTo floor last).find? (market.stopsAt scope window last)

/-- The hours that are later than the frontier, or all hours if there is no
frontier, with the latest one first. -/
def dueHours (market : Marketplace) (scope : VolumeScope) (window : Nat)
    (floor last : HourBucket) : List HourBucket :=
  match market.frontier? scope window floor last with
  | none => HourBucket.backTo floor last
  | some frontier => (HourBucket.backTo floor last).filter fun hour => decide (frontier < hour)

variable {market : Marketplace} {scope : VolumeScope} {window : Nat}
variable {floor last earlier : HourBucket}

theorem takeWhile_congr {hours : List HourBucket} {first second : HourBucket → Bool}
    (same : ∀ hour ∈ hours, first hour = second hour) :
    hours.takeWhile first = hours.takeWhile second := by
  induction hours with
  | nil => rfl
  | cons hour hours ih =>
      obtain ⟨sameHere, sameBehind⟩ := List.forall_mem_cons.mp same
      rw [List.takeWhile_cons, List.takeWhile_cons, sameHere, ih sameBehind]

/-- Without rows all hours of the project are due. -/
theorem dueHours_of_no_rows (noRows : ∀ hour, market.row? scope hour = none) :
    market.dueHours scope window floor last = HourBucket.backTo floor last := by
  have noFrontier : market.frontier? scope window floor last = none := by
    refine List.find?_eq_none.mpr fun hour _ => ?_
    rw [stopsAt, hasRow, noRows, Option.isSome_none, Bool.and_false]
    exact Bool.false_ne_true
  rw [dueHours, noFrontier]

/-- In a list with the latest hour first, the hours that are later than one of
them are those in front of it. -/
theorem takeWhile_eq_of_find? {hours : List HourBucket} {stops : HourBucket → Bool}
    (ordered : hours.Pairwise fun later earlier => earlier < later) :
    hours.takeWhile (fun hour => !stops hour) =
      match hours.find? stops with
      | none => hours
      | some stop => hours.filter fun hour => decide (stop < hour) := by
  induction hours with
  | nil => rfl
  | cons hour hours ih =>
      obtain ⟨isLatest, orderedRest⟩ := List.pairwise_cons.mp ordered
      rw [List.takeWhile_cons, List.find?_cons]
      cases stopped : stops hour with
      | true =>
          have noneLater : (hour :: hours).filter (fun other => decide (hour < other)) = [] := by
            rw [List.filter_eq_nil_iff]
            intro other member
            rw [decide_eq_true_eq]
            change ¬ hour.index < other.index
            rcases List.mem_cons.mp member with rfl | inRest
            · omega
            · have before : other.index < hour.index := isLatest other inRest
              omega
          exact noneLater.symm
      | false =>
          have others := ih orderedRest
          simp only [Bool.not_false, if_true, others]
          cases found : hours.find? stops with
          | none => rfl
          | some stop =>
              have later : stop < hour := isLatest stop (List.mem_of_find?_eq_some found)
              have kept : (hour :: hours).filter (fun other => decide (stop < other)) =
                  hour :: hours.filter fun other => decide (stop < other) :=
                List.filter_cons_of_pos (decide_eq_true later)
              exact kept.symm

/-- A walk meets the hours that are due, up to the first row that stops it. -/
theorem dueHours_eq_takeWhile :
    market.dueHours scope window floor last =
      (HourBucket.backTo floor last).takeWhile fun hour =>
        !market.stopsAt scope window last hour := by
  rw [takeWhile_eq_of_find? (HourBucket.pairwise_backTo floor last)]
  rfl

theorem dueHours_prefix_backTo (market : Marketplace) (scope : VolumeScope) (window : Nat)
    (floor last : HourBucket) :
    market.dueHours scope window floor last <+: HourBucket.backTo floor last := by
  rw [dueHours_eq_takeWhile]
  exact List.takeWhile_prefix _

theorem dueHours_of_lt (passed : last < floor) : market.dueHours scope window floor last = [] := by
  rw [dueHours_eq_takeWhile, HourBucket.backTo_of_lt passed]
  rfl

theorem dueHours_eq_nil (ordered : floor ≤ last)
    (stopped : market.stopsAt scope window last last = true) :
    market.dueHours scope window floor last = [] := by
  obtain ⟨rest, split⟩ := HourBucket.exists_backTo_eq_cons ordered
  rw [dueHours_eq_takeWhile, split, List.takeWhile_cons, stopped]
  rfl

theorem exists_dueHours_eq_cons (ordered : floor ≤ last)
    (goesOn : market.stopsAt scope window last last = false) :
    ∃ rest, market.dueHours scope window floor last = last :: rest := by
  obtain ⟨rest, split⟩ := HourBucket.exists_backTo_eq_cons ordered
  rw [dueHours_eq_takeWhile, split, List.takeWhile_cons, goesOn]
  exact ⟨_, rfl⟩

theorem dueHours_of_previous?_eq_none (ordered : floor ≤ last) (atStart : last.previous? = none)
    (goesOn : market.stopsAt scope window last last = false) :
    market.dueHours scope window floor last = [last] := by
  rw [dueHours_eq_takeWhile, HourBucket.backTo_of_previous?_eq_none ordered atStart,
    List.takeWhile_cons, goesOn]
  rfl

/-- Behind the last hour, the same hours are due as for a walk from the hour
before it with a shorter window, when the row of the last hour has been put. -/
theorem dueHours_of_previous? {row : HourlyVolume} (ordered : floor ≤ last)
    (stepped : last.previous? = some earlier) (sameHour : row.hour = last)
    (goesOn : market.stopsAt scope window last last = false) :
    market.dueHours scope window floor last =
      last :: (market.putRow row).dueHours scope (window - 1) floor earlier := by
  have position := HourBucket.previous?_eq_some_iff.mp stepped
  have sameStops : ∀ hour ∈ HourBucket.backTo floor earlier,
      market.stopsAt scope window last hour =
        (market.putRow row).stopsAt scope (window - 1) earlier hour := by
    intro hour member
    have notAfter : hour.index ≤ earlier.index := (HourBucket.mem_backTo_iff.mp member).2
    have sameRow : (market.putRow row).hasRow scope hour = market.hasRow scope hour := by
      rw [hasRow, hasRow, row?_putRow, if_neg]
      rintro ⟨-, same⟩
      rw [← same, sameHour] at notAfter
      omega
    have sameWindow : hour.index + window ≤ last.index ↔
        hour.index + ((window - 1 : Nat) : Int) ≤ earlier.index := by
      omega
    rw [stopsAt, stopsAt, sameRow, decide_eq_decide.mpr sameWindow]
  rw [dueHours_eq_takeWhile, dueHours_eq_takeWhile, HourBucket.backTo_of_previous? ordered stepped,
    List.takeWhile_cons, goesOn]
  have sameHours := takeWhile_congr fun hour member =>
    congrArg (fun stops => !stops) (sameStops hour member)
  exact congrArg (List.cons last) sameHours

/-- The hours of the recent window are due whatever rows there are. -/
theorem mem_dueHours_of_recent {hour : HourBucket} (notBefore : floor ≤ hour)
    (notAfter : hour ≤ last)
    (recent : last.index < hour.index + window) :
    hour ∈ market.dueHours scope window floor last := by
  have inProject : hour ∈ HourBucket.backTo floor last :=
    HourBucket.mem_backTo_iff.mpr ⟨notBefore, notAfter⟩
  unfold dueHours
  cases found : market.frontier? scope window floor last with
  | none => exact inProject
  | some frontier =>
      have stops := List.find?_some found
      have behindWindow := of_decide_eq_true (Bool.and_eq_true_iff.mp stops).1
      have later : frontier < hour := by
        change frontier.index < hour.index
        omega
      exact List.mem_filter.mpr ⟨inProject, decide_eq_true later⟩

end Marketplace

end MarketStats

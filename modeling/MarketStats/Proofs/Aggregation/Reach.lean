import MarketStats.Proofs.Aggregation.Pass

/-!
# How far back a pass reaches

What a pass leaves behind in the rows of a scope is known from the number of the
first hour that it has put.  All hours from there on have new rows, and all
others are as they were.  Behind the recent window it puts rows only where there
were none.
-/

namespace MarketStats

namespace HourBucket

/-- Some of the latest hours are those with the greatest numbers. -/
theorem prefix_backTo {first last : HourBucket} {hours : List HourBucket}
    (isPrefix : hours <+: backTo first last) :
    (∀ hour, hour ∈ hours ↔ last.index - hours.length < hour.index ∧ hour.index ≤ last.index) ∧
      min first.index (last.index + 1) ≤ last.index + 1 - hours.length := by
  induction hours generalizing last with
  | nil =>
      refine ⟨fun hour => ⟨nofun, fun within => ?_⟩, ?_⟩
      · rw [List.length_nil] at within
        omega
      · rw [List.length_nil]
        omega
  | cons latest hours ih =>
      by_cases passed : last < first
      · rw [backTo_of_lt passed] at isPrefix
        exact nomatch List.prefix_nil.mp isPrefix
      have ordered : first ≤ last := Int.not_lt.mp passed
      have notBefore : first.index ≤ last.index := ordered
      rw [List.length_cons]
      cases stepped : last.previous? with
      | none =>
          rw [backTo_of_previous?_eq_none ordered stepped, List.cons_prefix_cons,
            List.prefix_nil] at isPrefix
          obtain ⟨rfl, rfl⟩ := isPrefix
          refine ⟨fun hour => ?_, ?_⟩
          · rw [List.mem_singleton]
            constructor
            · rintro rfl
              rw [List.length_nil]
              omega
            · intro within
              rw [List.length_nil] at within
              exact eq_of_index_eq (by omega)
          · rw [List.length_nil]
            omega
      | some earlier =>
          have position := previous?_eq_some_iff.mp stepped
          rw [backTo_of_previous? ordered stepped, List.cons_prefix_cons] at isPrefix
          obtain ⟨rfl, restPrefix⟩ := isPrefix
          obtain ⟨members, bounded⟩ := ih restPrefix
          refine ⟨fun hour => ?_, by omega⟩
          rw [List.mem_cons, members]
          constructor
          · rintro (rfl | within)
            · omega
            · omega
          · intro within
            by_cases isLatest : hour.index = latest.index
            · exact .inl (eq_of_index_eq isLatest)
            · exact .inr (by omega)

end HourBucket

namespace Marketplace

/-- A walk back from the hour `last` has put the rows of a scope for the hours
with the numbers from `low` on. -/
structure WalkedBack (scope : VolumeScope) (window : Nat) (floor last : HourBucket)
    (before after : Marketplace) (low : Int) : Prop where
  low_ge : min floor.index (last.index + 1) ≤ low
  low_le : low ≤ last.index + 1
  rewritten : ∀ hour : HourBucket, low ≤ hour.index → hour.index ≤ last.index →
    after.IsUpToDate scope hour
  kept : ∀ hour : HourBucket, hour.index < low ∨ last.index < hour.index →
    after.row? scope hour = before.row? scope hour
  filled : ∀ hour : HourBucket, low ≤ hour.index → hour.index + window ≤ last.index →
    before.row? scope hour = none

/-- A walk that was not broken off at the number `low` ends there because the
project starts there, or because there is a row in front of it behind the
recent window. -/
def EndsProperly (scope : VolumeScope) (window : Nat) (floor last : HourBucket)
    (before : Marketplace) (low : Int) : Prop :=
  low = min floor.index (last.index + 1) ∨
    ∃ frontier : HourBucket, frontier.index + 1 = low ∧
      frontier.index + window ≤ last.index ∧ (before.row? scope frontier).isSome = true

/-- A pass has walked back over the rows of a scope if that was wanted, and
properly if it was not broken off. -/
def PassedOver (scope : VolumeScope) (window : Nat) (floor last : HourBucket)
    (wanted unbroken : Prop) (before after : Marketplace) : Prop :=
  ∃ low, WalkedBack scope window floor last before after low ∧
    (¬ wanted → low = last.index + 1) ∧
    (wanted → unbroken → EndsProperly scope window floor last before low)

variable {scope : VolumeScope} {window : Nat} {floor last : HourBucket}
variable {before after : Marketplace}

theorem row?_eq_none_of_mem_dueHours {hour : HourBucket}
    (isDue : hour ∈ before.dueHours scope window floor last)
    (behindWindow : hour.index + window ≤ last.index) : before.row? scope hour = none := by
  rw [dueHours_eq_takeWhile] at isDue
  have goesOn := List.all_eq_true.mp List.all_takeWhile hour isDue
  rw [stopsAt, decide_eq_true behindWindow, Bool.true_and, Bool.not_eq_true', hasRow] at goesOn
  exact Option.not_isSome_iff_eq_none.mp (Bool.eq_false_iff.mp goesOn)

/-- Where all hours that are due have been put, the walk has ended properly. -/
theorem endsProperly_dueHours (before : Marketplace) (scope : VolumeScope) (window : Nat)
    (floor last : HourBucket) :
    EndsProperly scope window floor last before
      (last.index + 1 - (before.dueHours scope window floor last).length) := by
  obtain ⟨members, bounded⟩ :=
    HourBucket.prefix_backTo (before.dueHours_prefix_backTo scope window floor last)
  have floorGe := floor.index_ge
  have lastLe := last.index_le
  -- the first hour that was not put any more
  by_cases atFloor : last.index + 1 - (before.dueHours scope window floor last).length =
      min floor.index (last.index + 1)
  · exact .inl atFloor
  let next : HourBucket :=
    ⟨last.index - (before.dueHours scope window floor last).length, by omega, by omega⟩
  have inProject : next ∈ HourBucket.backTo floor last :=
    HourBucket.mem_backTo_iff.mpr
      ⟨show floor.index ≤ next.index by simp only [next]; omega,
        show next.index ≤ last.index by simp only [next]; omega⟩
  have nextPosition : next.index =
      last.index - (before.dueHours scope window floor last).length := rfl
  have notDue : next ∉ before.dueHours scope window floor last := by
    rw [members]
    omega
  refine .inr ⟨next, by omega, ?_⟩
  cases found : before.frontier? scope window floor last with
  | none =>
      rw [dueHours, found] at notDue
      exact absurd inProject notDue
  | some frontier =>
      have listed := List.mem_of_find?_eq_some found
      have stopped := List.find?_some found
      have isDue_iff : ∀ hour, hour ∈ before.dueHours scope window floor last ↔
          hour ∈ HourBucket.backTo floor last ∧ frontier.index < hour.index := by
        intro hour
        rw [dueHours, found]
        simp only [List.mem_filter, decide_eq_true_eq]
        rfl
      have frontierNotAfter : frontier.index ≤ last.index := (HourBucket.mem_backTo_iff.mp listed).2
      have notBeforeNext : ¬ frontier.index < next.index :=
        fun later => notDue ((isDue_iff next).mpr ⟨inProject, later⟩)
      have frontierNotDue : frontier ∉ before.dueHours scope window floor last :=
        fun isDue => Int.lt_irrefl _ ((isDue_iff frontier).mp isDue).2
      rw [members] at frontierNotDue
      have same : frontier = next := HourBucket.eq_of_index_eq (by omega)
      rw [stopsAt, Bool.and_eq_true, decide_eq_true_eq] at stopped
      rw [← same]
      exact stopped

namespace PassedOver

variable {wanted unbroken : Prop}

theorem rows_eq (passed : PassedOver scope window floor last wanted unbroken before after)
    (unwanted : ¬ wanted) (hour : HourBucket) :
    after.row? scope hour = before.row? scope hour := by
  obtain ⟨low, walked, untouched, -⟩ := passed
  apply walked.kept
  rw [untouched unwanted]
  omega

end PassedOver

end Marketplace

/-- What a pass has done tells how far back it has reached in each scope. -/
theorem Operation.Passes.passedOver {scopes : List VolumeScope} {cancelled : Cancellation}
    {window rows : Nat} {floor last : HourBucket} {before after : Deployment}
    {outcome : Except Failure PassSummary} {written : VolumeScope → List HourBucket}
    (passes : Passes scopes cancelled window floor last rows before after outcome written)
    (scope : VolumeScope) :
    Marketplace.PassedOver scope window floor last (scope ∈ scopes)
      (outcome.isOk = true ∧ cancelled = .never) before.market after.market := by
  have isPrefix := passes.isPrefix scope
  have ofProject := isPrefix.trans (Marketplace.dueHours_prefix_backTo ..)
  obtain ⟨members, bounded⟩ := HourBucket.prefix_backTo ofProject
  refine ⟨last.index + 1 - (written scope).length, ⟨bounded, by omega, ?_, ?_, ?_⟩, ?_, ?_⟩
  · intro hour above below
    exact passes.rewritten scope hour ((members hour).mpr (by omega))
  · intro hour outside
    exact passes.kept scope hour fun member => by
      have within := (members hour).mp member
      omega
  · intro hour above behindWindow
    have member := (members hour).mpr (by omega)
    exact Marketplace.row?_eq_none_of_mem_dueHours (isPrefix.subset member) behindWindow
  · intro unwanted
    rw [passes.outside scope unwanted, List.length_nil]
    omega
  · rintro wanted ⟨succeeded, never⟩
    cases outcome with
    | error failure => exact nomatch succeeded
    | ok summary =>
        obtain ⟨-, -, all⟩ := passes.completed summary rfl
        rw [all never scope wanted]
        exact before.market.endsProperly_dueHours scope window floor last

end MarketStats

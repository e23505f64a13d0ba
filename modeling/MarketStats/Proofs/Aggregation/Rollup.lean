import MarketStats.Proofs.Aggregation.Run
import MarketStats.Proofs.Store.Rows

/-!
# Rows that keep up with the transactions

A pass puts new rows for the recent window and for the hours without a row.  A
row further back is still right if no transaction has been recorded for its
hour since the last pass.  So the rows are right behind every pass of a run in
which all passes complete and late transactions belong to recent hours.
-/

namespace MarketStats

/-- A pass that completes, as of an instant that is not before the last pass.
Each transaction recorded since the last pass belongs to a later hour than that
pass, or to the recent window of this one. -/
structure PlannedPass.Completes (planned : PlannedPass) (settings : AggregationSettings)
    (last : Option Calendar.Instant) (pending : List Transaction) (deployment : Deployment) :
    Prop where
  ordered : ∀ earlier ∈ last, earlier ≤ planned.now
  inTime : ∀ earlier ∈ last, ∀ transaction ∈ pending,
    HourBucket.containing earlier < HourBucket.containing transaction.timestamp ∨
      planned.hour.index <
        (HourBucket.containing transaction.timestamp).index + settings.recentWindowHours
  uncancelled : planned.cancelled = .never
  succeeded : (planned.runOn settings deployment).1.isOk = true

/-- The deployments of runs that start without rows and in which every pass
completes.  A run comes with the instant of its last pass and the transactions
recorded since. -/
inductive RollupRun (settings : AggregationSettings) :
    Option Calendar.Instant → List Transaction → Deployment → Prop
  | start (deployment : Deployment)
      (noRows : ∀ scope hour, deployment.market.row? scope hour = none) :
      RollupRun settings none [] deployment
  | record {last : Option Calendar.Instant} {pending : List Transaction} {deployment : Deployment}
      (run : RollupRun settings last pending deployment) (transaction : Transaction) :
      RollupRun settings last (transaction :: pending)
        (deployment.afterStep settings (.record transaction))
  | addToken {last : Option Calendar.Instant} {pending : List Transaction}
      {deployment : Deployment} (run : RollupRun settings last pending deployment)
      (collectionId : Int64) (token : Token) :
      RollupRun settings last pending (deployment.afterStep settings (.addToken collectionId token))
  | pass {last : Option Calendar.Instant} {pending : List Transaction} {deployment : Deployment}
      (run : RollupRun settings last pending deployment) (planned : PlannedPass)
      (completes : planned.Completes settings last pending deployment) :
      RollupRun settings (some planned.now) [] (deployment.afterStep settings (.pass planned))

namespace AggregationSettings

variable {settings : AggregationSettings} {market : Marketplace} {scope : VolumeScope}

/-- A pass walks over all scopes that an earlier pass has walked over, since a
collection never vanishes from the store. -/
theorem mem_scopes_of_subset {first second : Marketplace}
    (more : first.collectionIds ⊆ second.collectionIds) (member : scope ∈ settings.scopes first) :
    scope ∈ settings.scopes second := by
  unfold scopes collectionScopes at *
  split at member
  · rename_i perCollection
    rw [if_pos perCollection]
    rcases List.mem_cons.mp member with rfl | inCollections
    · exact List.mem_cons_self
    · exact List.mem_cons_of_mem _ (List.map_subset _ more inCollections)
  · rename_i onlyGlobal
    rw [if_neg onlyGlobal]
    exact member

theorem mem_scopes_record (member : scope ∈ settings.scopes market) (transaction : Transaction) :
    scope ∈ settings.scopes (market.record transaction) := by
  refine mem_scopes_of_subset ?_ member
  intro collectionId
  rw [Marketplace.mem_collectionIds, Marketplace.mem_collectionIds]
  rintro (hasToken | ⟨earlier, recorded, same⟩)
  · exact .inl hasToken
  · exact .inr ⟨earlier, List.mem_append_left _ recorded, same⟩

theorem mem_scopes_addToken (member : scope ∈ settings.scopes market) (collectionId : Int64)
    (token : Token) : scope ∈ settings.scopes (market.addToken collectionId token) := by
  refine mem_scopes_of_subset ?_ member
  intro collectionId
  rw [Marketplace.mem_collectionIds, Marketplace.mem_collectionIds]
  rintro (hasToken | recorded)
  · exact .inl (Std.TreeMap.mem_insert.mpr (.inr hasToken))
  · exact .inr recorded

end AggregationSettings

namespace Marketplace

/-- The rows of a scope are exactly one for each hour of a range, and they hold
the sums of the recorded prices. -/
structure IsRolledUp (market : Marketplace) (scope : VolumeScope) (first last : HourBucket) :
    Prop where
  distinct : ((market.rowsOf scope).map HourlyVolume.hour).Pairwise (· < ·)
  hours : ∀ hour, hour ∈ (market.rowsOf scope).map HourlyVolume.hour ↔
    first ≤ hour ∧ hour ≤ last
  sums : ∀ row ∈ market.rowsOf scope, row.scope = scope ∧ market.SumsUp row

/-- As far as some pending transactions do not matter, the rows of a scope are
exactly one for each hour of a range and hold the sums of the recorded
prices. -/
structure FollowsUpTo (market : Marketplace) (scope : VolumeScope) (first last : HourBucket)
    (pending : List Transaction) : Prop where
  present : ∀ hour, first ≤ hour → hour ≤ last → ∃ row, market.row? scope hour = some row ∧
    row.scope = scope ∧ row.hour = hour ∧
    ((∀ transaction ∈ pending, HourBucket.containing transaction.timestamp ≠ hour) →
      market.SumsUp row)
  absent : ∀ hour, ¬ (first ≤ hour ∧ hour ≤ last) → market.row? scope hour = none

variable {market : Marketplace} {scope : VolumeScope} {first last : HourBucket}
variable {pending : List Transaction}

theorem SumsUp.record {row : HourlyVolume} (sums : market.SumsUp row) {transaction : Transaction}
    (different : HourBucket.containing transaction.timestamp ≠ row.hour) :
    (market.record transaction).SumsUp row := by
  refine sumsUp_iff.mpr fun kind => ?_
  rw [volumeInRange?_record market different]
  exact sumsUp_iff.mp sums kind

namespace FollowsUpTo

theorem record (follows : market.FollowsUpTo scope first last pending)
    (transaction : Transaction) :
    (market.record transaction).FollowsUpTo scope first last (transaction :: pending) where
  present hour notBefore notAfter := by
    obtain ⟨row, found, sameScope, sameHour, sums⟩ := follows.present hour notBefore notAfter
    refine ⟨row, found, sameScope, sameHour, ?_⟩
    intro others
    obtain ⟨different, othersPending⟩ := List.forall_mem_cons.mp others
    refine (sums othersPending).record ?_
    rw [sameHour]
    exact different
  absent := follows.absent

theorem addToken (follows : market.FollowsUpTo scope first last pending) (collectionId : Int64)
    (token : Token) :
    (market.addToken collectionId token).FollowsUpTo scope first last pending where
  present hour notBefore notAfter := by
    obtain ⟨row, found, sameScope, sameHour, sums⟩ := follows.present hour notBefore notAfter
    exact ⟨row, found, sameScope, sameHour, fun others => (sums others).of_transactions_eq rfl⟩
  absent := follows.absent

/-- Without pending transactions the rows are right. -/
theorem isRolledUp (follows : market.FollowsUpTo scope first last []) :
    market.IsRolledUp scope first last := by
  have stored : ∀ hour row, market.row? scope hour = some row →
      first ≤ hour ∧ hour ≤ last ∧ row.scope = scope ∧ row.hour = hour ∧ market.SumsUp row := by
    intro hour row found
    by_cases inRange : first ≤ hour ∧ hour ≤ last
    · obtain ⟨same, isStored, sameScope, sameHour, sums⟩ :=
        follows.present hour inRange.1 inRange.2
      rw [found] at isStored
      cases isStored
      exact ⟨inRange.1, inRange.2, sameScope, sameHour, sums (List.forall_mem_nil _)⟩
    · rw [follows.absent hour inRange] at found
      cases found
  refine ⟨pairwise_hours_rowsOf ?_, ?_, ?_⟩
  · intro hour row found
    exact (stored hour row found).2.2.2.1
  · intro hour
    rw [List.mem_map]
    constructor
    · rintro ⟨row, listed, rfl⟩
      obtain ⟨hour, found⟩ := mem_rowsOf.mp listed
      obtain ⟨notBefore, notAfter, -, sameHour, -⟩ := stored hour row found
      rw [sameHour]
      exact ⟨notBefore, notAfter⟩
    · rintro ⟨notBefore, notAfter⟩
      obtain ⟨row, found, -, sameHour, -⟩ := follows.present hour notBefore notAfter
      exact ⟨row, mem_rowsOf.mpr ⟨hour, found⟩, sameHour⟩
  · intro row listed
    obtain ⟨hour, found⟩ := mem_rowsOf.mp listed
    obtain ⟨-, -, sameScope, -, sums⟩ := stored hour row found
    exact ⟨sameScope, sums⟩

end FollowsUpTo

end Marketplace

namespace RollupRun

open Marketplace

variable {settings : AggregationSettings} {last : Option Calendar.Instant}
variable {pending : List Transaction} {deployment : Deployment} {scope : VolumeScope}

/-- What every run keeps up: a scope has no rows, or a pass has walked over it
and its rows followed the transactions up to the last pass. -/
def Follows (settings : AggregationSettings) (last : Option Calendar.Instant)
    (pending : List Transaction) (market : Marketplace) (scope : VolumeScope) : Prop :=
  (∀ hour, market.row? scope hour = none) ∨
    ∃ earlier, last = some earlier ∧ scope ∈ settings.scopes market ∧
      market.FollowsUpTo scope settings.floor (HourBucket.containing earlier) pending

/-- No row lies outside the hours of the project. -/
theorem Follows.absent (follows : Follows settings last pending deployment.market scope)
    {now : Calendar.Instant} (ordered : ∀ earlier ∈ last, earlier ≤ now) {hour : HourBucket}
    (outside : ¬ (settings.floor ≤ hour ∧ hour ≤ HourBucket.containing now)) :
    deployment.market.row? scope hour = none := by
  rcases follows with noRows | ⟨earlier, rfl, -, followed⟩
  · exact noRows hour
  · apply followed.absent
    rintro ⟨notBefore, notAfter⟩
    apply outside
    refine ⟨notBefore, ?_⟩
    have later := HourBucket.containing_mono (ordered earlier rfl)
    exact Int.le_trans notAfter later

/-- The rows behind the frontier of a pass that completes are right already,
since no pending transaction belongs to them. -/
theorem Follows.upToDate_of_frontier {planned : PlannedPass} {frontier hour : HourBucket}
    (follows : Follows settings last pending deployment.market scope)
    (completes : planned.Completes settings last pending deployment)
    (behindWindow : frontier.index + settings.recentWindowHours ≤ planned.hour.index)
    (found : (deployment.market.row? scope frontier).isSome = true)
    (notBefore : settings.floor ≤ hour) (notPast : hour ≤ frontier) :
    deployment.market.IsUpToDate scope hour := by
  change hour.index ≤ frontier.index at notPast
  rcases follows with noRows | ⟨earlier, rfl, -, followed⟩
  · rw [noRows frontier] at found
    cases found
  · -- The frontier has a row, so it is not behind the hour of the last pass.
    have reached : frontier.index ≤ (HourBucket.containing earlier).index := by
      apply Int.not_lt.mp
      intro past
      rw [followed.absent frontier fun inRange => Int.not_lt.mpr inRange.2 past] at found
      cases found
    obtain ⟨row, stored, sameScope, sameHour, sums⟩ :=
      followed.present hour notBefore (Int.le_trans notPast reached)
    refine ⟨row, stored, sameScope, sameHour, sums ?_⟩
    rintro transaction isPending rfl
    rcases completes.inTime earlier rfl transaction isPending with later | recent
    · change (HourBucket.containing earlier).index < _ at later
      omega
    · omega

/-- A pass that completes makes the rows of its scopes right. -/
theorem Follows.followsUpTo_pass {planned : PlannedPass}
    (follows : Follows settings last pending deployment.market scope)
    (completes : planned.Completes settings last pending deployment)
    (covered : scope ∈ settings.scopes deployment.market) :
    (planned.runOn settings deployment).2.market.FollowsUpTo scope settings.floor planned.hour
      [] := by
  obtain ⟨low, walked, -, ends⟩ := planned.passedOver settings deployment scope
  have properly := ends covered ⟨completes.succeeded, completes.uncancelled⟩
  have lowGe := walked.low_ge
  constructor
  · intro hour notBefore notAfter
    suffices upToDate : (planned.runOn settings deployment).2.market.IsUpToDate scope hour by
      obtain ⟨row, found, sameScope, sameHour, sums⟩ := upToDate
      exact ⟨row, found, sameScope, sameHour, fun _ => sums⟩
    by_cases above : low ≤ hour.index
    · exact walked.rewritten hour above notAfter
    rcases properly with atFloor | ⟨frontier, next, behindWindow, found⟩
    · change settings.floor.index ≤ hour.index at notBefore
      omega
    · have notPast : hour ≤ frontier := by
        change hour.index ≤ frontier.index
        omega
      obtain ⟨row, stored, sameScope, sameHour, sums⟩ :=
        follows.upToDate_of_frontier completes behindWindow found notBefore notPast
      refine ⟨row, ?_, sameScope, sameHour,
        sums.of_transactions_eq (planned.transactions_runOn settings deployment)⟩
      rw [walked.kept hour (by omega), stored]
  · intro hour outside
    have out : hour.index < low ∨ planned.hour.index < hour.index := by
      change ¬ (settings.floor.index ≤ hour.index ∧ hour.index ≤ planned.hour.index) at outside
      omega
    rw [walked.kept hour out]
    exact follows.absent completes.ordered outside

/-- Every step of a run keeps up what holds of its rows. -/
theorem follows (run : RollupRun settings last pending deployment) (scope : VolumeScope) :
    Follows settings last pending deployment.market scope := by
  induction run with
  | start deployment noRows => exact .inl (noRows scope)
  | record _ transaction ih =>
      rcases ih with noRows | ⟨earlier, isLast, covered, followed⟩
      · exact .inl noRows
      · exact .inr ⟨earlier, isLast, settings.mem_scopes_record covered transaction,
          followed.record transaction⟩
  | addToken _ collectionId token ih =>
      rcases ih with noRows | ⟨earlier, isLast, covered, followed⟩
      · exact .inl noRows
      · exact .inr ⟨earlier, isLast, settings.mem_scopes_addToken covered collectionId token,
          followed.addToken collectionId token⟩
  | @pass last pending deployment _ planned completes ih =>
      have scopes : settings.scopes (planned.runOn settings deployment).2.market =
          settings.scopes deployment.market :=
        settings.scopes_eq (planned.transactions_runOn settings deployment)
          (planned.tokens_runOn settings deployment)
      by_cases covered : scope ∈ settings.scopes deployment.market
      · refine .inr ⟨planned.now, rfl, ?_, ih.followsUpTo_pass completes covered⟩
        change scope ∈ settings.scopes (planned.runOn settings deployment).2.market
        rw [scopes]
        exact covered
      · rcases ih with noRows | ⟨_, _, wasCovered, _⟩
        · left
          intro hour
          have kept := (planned.passedOver settings deployment scope).rows_eq covered hour
          exact kept.trans (noRows hour)
        · exact absurd wasCovered covered

/-- Behind every pass of a run in which all passes complete and transactions
arrive in time, the rows of a scope are exactly one for each hour of the
project, and they hold the sums of all transactions recorded so far. -/
theorem isRolledUp_behind_pass (run : RollupRun settings last pending deployment)
    {planned : PlannedPass} (completes : planned.Completes settings last pending deployment)
    (covered : scope ∈ settings.scopes (planned.runOn settings deployment).2.market) :
    (planned.runOn settings deployment).2.market.IsRolledUp scope settings.floor planned.hour := by
  rw [settings.scopes_eq (planned.transactions_runOn settings deployment)
    (planned.tokens_runOn settings deployment)] at covered
  exact ((run.follows scope).followsUpTo_pass completes covered).isRolledUp

/-- A sale that is recorded between two passes of its hour. -/
theorem isRolledUp_behind_late_sale :
    ((thirdHourPass []).runOn (hourlySettings 1)
        (((Deployment.empty 0 0 0 0 none).afterStep (hourlySettings 1)
          (.pass (thirdHourPass []))).afterStep (hourlySettings 1)
            (.record thirdHourSale))).2.market.IsRolledUp
      .global (hourlySettings 1).floor (thirdHourPass []).hour := by
  have started : RollupRun (hourlySettings 1) none [] (Deployment.empty 0 0 0 0 none) :=
    .start _ fun _ _ => rfl
  have passed := started.pass (thirdHourPass [])
    { ordered := by rintro _ ⟨⟩
      inTime := by rintro _ ⟨⟩
      uncancelled := rfl
      succeeded := by decide +kernel }
  refine (passed.record thirdHourSale).isRolledUp_behind_pass ?_ List.mem_cons_self
  exact
    { ordered := by
        rintro _ ⟨⟩
        decide
      inTime := by
        rintro _ ⟨⟩ transaction isPending
        rw [List.mem_singleton.mp isPending]
        decide
      uncancelled := rfl
      succeeded := by decide +kernel }

end RollupRun

end MarketStats

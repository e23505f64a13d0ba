import MarketStats.Proofs.Aggregation.Due
import MarketStats.Proofs.Deployment.BreakingOff

/-!
# What a walk does

A walk that nothing stops puts the rows of the hours that are due, and nothing
else.  When a request fails, or when the walk is cancelled, it has put the rows
of the first of these hours, with the latest one first, and it has asked nothing
behind the request that failed.
-/

namespace MarketStats

/-- The progress behind some more hours, each looked at and put. -/
def PassProgress.further (progress : PassProgress) (hours : Nat) : PassProgress :=
  { looks := progress.looks + hours, rows := progress.rows + hours }

/-- A walk makes such a request for an hour of a scope. -/
def MarketRequest.IsAbout (scope : VolumeScope) (hour : HourBucket) : MarketRequest → Prop
  | .hasRow asked askedHour => asked = scope ∧ askedHour = hour
  | .volumeInRange asked start finish _ =>
      asked = scope ∧ start = hour.start ∧ finish = hour.endInstant
  | .putRow row => row.scope = scope ∧ row.hour = hour
  | _ => False

/-- A walk makes such a request for one of some hours. -/
def MarketRequest.IsAboutOne (scope : VolumeScope) (hours : List HourBucket)
    (request : MarketRequest) : Prop :=
  ∃ hour ∈ hours, request.IsAbout scope hour

/-- The volume of a row for one kind of transactions. -/
def HourlyVolume.volume (row : HourlyVolume) : TransactionKind → Decimal
  | .buy => row.buyVolume
  | .list => row.listVolume
  | .withdraw => row.withdrawVolume

/-- A transaction counts towards the volume of a row for one kind: it is of this
kind, in the scope of the row, and within its hour. -/
def HourlyVolume.Counts (row : HourlyVolume) (kind : TransactionKind)
    (transaction : Transaction) : Prop :=
  (row.scope = .global ∨ row.scope = .collection transaction.collectionId) ∧
    transaction.kind = kind ∧
    row.hour.start ≤ transaction.timestamp ∧ transaction.timestamp < row.hour.endInstant

instance (row : HourlyVolume) (kind : TransactionKind) (transaction : Transaction) :
    Decidable (row.Counts kind transaction) :=
  inferInstanceAs (Decidable (_ ∧ _ ∧ _ ∧ _))

theorem VolumeScope.covers_iff (scope : VolumeScope) (transaction : Transaction) :
    scope.covers transaction = true ↔
      scope = .global ∨ scope = .collection transaction.collectionId := by
  cases scope with
  | global => simp [covers]
  | collection collectionId =>
      simp only [covers, beq_iff_eq, reduceCtorEq, collection.injEq, false_or]
      exact eq_comm

namespace Marketplace

/-- A row holds, for each kind, the sum of the prices of the recorded
transactions that count. -/
def SumsUp (market : Marketplace) (row : HourlyVolume) : Prop :=
  ∀ kind, Decimal.sum? ((market.transactions.filter fun transaction =>
    decide (row.Counts kind transaction)).map Transaction.price) = some (row.volume kind)

/-- The row of a scope and hour exists and holds the sums of the recorded
prices. -/
def IsUpToDate (market : Marketplace) (scope : VolumeScope) (hour : HourBucket) : Prop :=
  ∃ row, market.row? scope hour = some row ∧ row.scope = scope ∧ row.hour = hour ∧
    market.SumsUp row

/-- The store adds the prices of the transactions that count. -/
theorem pricesInRange_eq_map (market : Marketplace) (row : HourlyVolume) (kind : TransactionKind) :
    market.pricesInRange row.scope row.hour.start row.hour.endInstant kind =
      (market.transactions.filter fun transaction =>
        decide (row.Counts kind transaction)).map Transaction.price := by
  unfold pricesInRange
  congr 2
  funext transaction
  rw [Bool.eq_iff_iff, decide_eq_true_eq, HourlyVolume.Counts, ← VolumeScope.covers_iff]
  simp only [Bool.and_eq_true, beq_iff_eq, decide_eq_true_eq, and_assoc]

theorem sumsUp_iff {market : Marketplace} {row : HourlyVolume} :
    market.SumsUp row ↔ ∀ kind,
      market.volumeInRange? row.scope row.hour.start row.hour.endInstant kind =
        some (row.volume kind) := by
  simp only [SumsUp, volumeInRange?, pricesInRange_eq_map]

theorem volumeInRange?_of_transactions_eq {first second : Marketplace}
    (same : second.transactions = first.transactions) (scope : VolumeScope)
    (start finish : Calendar.Instant) (kind : TransactionKind) :
    second.volumeInRange? scope start finish kind =
      first.volumeInRange? scope start finish kind := by
  simp only [volumeInRange?, pricesInRange, same]

theorem SumsUp.of_transactions_eq {first second : Marketplace} {row : HourlyVolume}
    (sums : first.SumsUp row) (same : second.transactions = first.transactions) :
    second.SumsUp row := by
  intro kind
  rw [same]
  exact sums kind

/-- The rows of some hours of a scope hold the sums of the recorded prices, and
everything else is as it was. -/
structure Rewrites (scope : VolumeScope) (written : List HourBucket)
    (before after : Marketplace) : Prop where
  transactions : after.transactions = before.transactions
  tokens : after.tokens = before.tokens
  rewritten : ∀ hour ∈ written, after.IsUpToDate scope hour
  kept : ∀ other hour, ¬ (other = scope ∧ hour ∈ written) →
    after.row? other hour = before.row? other hour

namespace Rewrites

variable {scope : VolumeScope} {written : List HourBucket} {before after : Marketplace}

theorem nothing (scope : VolumeScope) (market : Marketplace) :
    Rewrites scope [] market market where
  transactions := rfl
  tokens := rfl
  rewritten := List.forall_mem_nil _
  kept _ _ _ := rfl

/-- A row that is put first is up to date in the end, whether or not it is put
once more. -/
theorem cons {row : HourlyVolume} {hour : HourBucket} (sameScope : row.scope = scope)
    (sameHour : row.hour = hour) (sums : before.SumsUp row)
    (rewrites : Rewrites scope written (before.putRow row) after) :
    Rewrites scope (hour :: written) before after where
  transactions := rewrites.transactions
  tokens := rewrites.tokens
  rewritten := by
    refine List.forall_mem_cons.mpr ⟨?_, rewrites.rewritten⟩
    by_cases again : hour ∈ written
    · exact rewrites.rewritten hour again
    · refine ⟨row, ?_, sameScope, sameHour, sums.of_transactions_eq rewrites.transactions⟩
      rw [rewrites.kept scope hour fun both => again both.2, row?_putRow,
        if_pos ⟨sameScope, sameHour⟩]
  kept := by
    intro other otherHour different
    rw [rewrites.kept other otherHour fun both =>
      different ⟨both.1, List.mem_cons_of_mem hour both.2⟩, row?_putRow, if_neg]
    rintro ⟨isScope, isHour⟩
    apply different
    rw [← isScope, ← isHour, sameHour]
    exact ⟨sameScope, List.mem_cons_self⟩

end Rewrites

theorem stopsAt_last {market : Marketplace} {scope : VolumeScope} {window : Nat}
    {last : HourBucket} :
    market.stopsAt scope window last last = true ↔
      window = 0 ∧ (market.row? scope last).isSome = true := by
  rw [stopsAt, Bool.and_eq_true, decide_eq_true_eq, hasRow]
  refine and_congr_left fun _ => ?_
  omega

end Marketplace

namespace Operation

open Deployment Marketplace

/-- A sum of prices is answered from the store, which stays as it is. -/
theorem runOn_askVolume_cases (scope : VolumeScope) (start finish : Calendar.Instant)
    (kind : TransactionKind) (before : Deployment) :
    (∃ failure after,
        (askMarket (.volumeInRange scope start finish kind)).runOn before =
            (.error failure, after) ∧
          after.market = before.market) ∨
      ∃ (volume : Decimal) (after : Deployment),
        (askMarket (.volumeInRange scope start finish kind)).runOn before = (.ok volume, after) ∧
          after.market = before.market ∧
          before.market.volumeInRange? scope start finish kind = some volume := by
  rcases runOn_askMarket_cases (.volumeInRange scope start finish kind) before with
    ⟨failure, ran⟩ | ⟨volume, answered, ran⟩
  · exact .inl ⟨failure, _, ran, rfl⟩
  · right
    refine ⟨volume, _, ran, rfl, ?_⟩
    simp only [perform, amount] at answered
    split at answered
    · rename_i found
      rw [found, Except.ok.inj answered]
    · cases answered

/-- Aggregating an hour puts a row that sums up the hour, or fails and leaves
the store as it is. -/
theorem runOn_aggregateHour_cases (scope : VolumeScope) (hour : HourBucket) (before : Deployment) :
    (∃ failure after, (aggregateHour scope hour).runOn before = (.error failure, after) ∧
        after.market = before.market) ∨
      ∃ row after, (aggregateHour scope hour).runOn before = (.ok row, after) ∧
        after.market = before.market.putRow row ∧ row.scope = scope ∧ row.hour = hour ∧
        before.market.SumsUp row := by
  unfold aggregateHour
  rcases runOn_askVolume_cases scope hour.start hour.endInstant .buy before with
    ⟨failure, after, ran, same⟩ | ⟨buyVolume, afterBuy, ranBuy, sameBuy, sumBuy⟩
  · exact .inl ⟨failure, after, runOn_bind_of_error ran, same⟩
  rw [runOn_bind_of_ok ranBuy]
  rcases runOn_askVolume_cases scope hour.start hour.endInstant .list afterBuy with
    ⟨failure, after, ran, same⟩ | ⟨listVolume, afterList, ranList, sameList, sumList⟩
  · exact .inl ⟨failure, after, runOn_bind_of_error ran, same.trans sameBuy⟩
  rw [runOn_bind_of_ok ranList]
  rw [sameBuy] at sumList sameList
  rcases runOn_askVolume_cases scope hour.start hour.endInstant .withdraw afterList with
    ⟨failure, after, ran, same⟩ |
      ⟨withdrawVolume, afterWithdraw, ranWithdraw, sameWithdraw, sumWithdraw⟩
  · exact .inl ⟨failure, after, runOn_bind_of_error ran, same.trans sameList⟩
  rw [runOn_bind_of_ok ranWithdraw]
  rw [sameList] at sumWithdraw sameWithdraw
  rcases runOn_askMarket_cases
      (.putRow { scope, hour, buyVolume, listVolume, withdrawVolume }) afterWithdraw with
    ⟨failure, ran⟩ | ⟨answer, -, ranPut⟩
  · exact .inl ⟨failure, _, runOn_bind_of_error ran, sameWithdraw⟩
  rw [runOn_bind_of_ok ranPut, runOn_bind_of_ok (runOn_count _ _)]
  right
  refine ⟨{ scope, hour, buyVolume, listVolume, withdrawVolume }, _, rfl, ?_, rfl, rfl, ?_⟩
  · change afterWithdraw.market.putRow _ = _
    rw [sameWithdraw]
  · refine Marketplace.sumsUp_iff.mpr fun kind => ?_
    cases kind with
    | buy => exact sumBuy
    | list => exact sumList
    | withdraw => exact sumWithdraw

/-- Looking for the frontier leaves the store as it is.  The frontier is
reached only behind the recent window, in front of an hour with a row. -/
theorem runOn_reachesFrontier_cases (scope : VolumeScope) (window : Nat) (hour : HourBucket)
    (before : Deployment) :
    (∃ failure after, (reachesFrontier scope window hour).runOn before = (.error failure, after) ∧
        after.market = before.market) ∨
      ∃ (reached : Bool) (after : Deployment),
        (reachesFrontier scope window hour).runOn before = (.ok reached, after) ∧
        after.market = before.market ∧
        (reached = true → window = 0 ∧ (before.market.row? scope hour).isSome = true) ∧
        (reached = false → window = 0 → before.market.row? scope hour = none) := by
  unfold reachesFrontier
  split
  · rename_i windowOver
    rcases runOn_askMarket_cases (.hasRow scope hour) before with
      ⟨failure, ran⟩ | ⟨reached, answered, ran⟩
    · exact .inl ⟨failure, _, ran, rfl⟩
    · right
      have present : (before.market.row? scope hour).isSome = reached :=
        Except.ok.inj answered
      refine ⟨reached, _, ran, rfl, ?_, ?_⟩
      · intro isReached
        exact ⟨windowOver, present.trans isReached⟩
      · intro notReached _
        rw [notReached] at present
        exact Option.isSome_eq_false_iff.mp present |> Option.isNone_iff_eq_none.mp
  · rename_i inWindow
    right
    refine ⟨false, before, rfl, rfl, ?_, ?_⟩
    · intro absurdity
      cases absurdity
    · intro _ windowOver
      exact absurd windowOver inWindow

/-- What a walk back from an hour does, wherever it ends: the rows that it puts
are those of the first hours that are due.  It ends behind the last of them, or
at the first look that finds it cancelled, or at the first request that fails. -/
structure Walks (scope : VolumeScope) (cancelled : Cancellation) (window : Nat)
    (floor last : HourBucket) (progress : PassProgress) (before after : Deployment)
    (outcome : Except Failure PassProgress) (written : List HourBucket) : Prop where
  rewrites : before.market.Rewrites scope written after.market
  isPrefix : written <+: before.market.dueHours scope window floor last
  uncancelled : ∀ count < written.length, cancelled (progress.further count) = false
  completed : ∀ reached, outcome = .ok reached →
    reached.rows = progress.rows + written.length ∧
      Answered (MarketRequest.IsAboutOne scope (HourBucket.backTo floor last)) before after ∧
      (written = before.market.dueHours scope window floor last ∨
        cancelled (progress.further written.length) = true)
  failed : ∀ failure, outcome = .error failure →
    ∃ hour request, written ++ [hour] <+: HourBucket.backTo floor last ∧
      (written ++ [hour] <+: before.market.dueHours scope window floor last ∨
        request = .hasRow scope hour) ∧
      request.IsAbout scope hour ∧
      FailsAt (MarketRequest.IsAboutOne scope (written ++ [hour])) request failure before after

theorem breaksOff_aggregateHour (scope : VolumeScope) (hour : HourBucket) :
    BreaksOff (MarketRequest.IsAbout scope hour) (aggregateHour scope hour) := by
  have askVolume : ∀ kind, BreaksOff (MarketRequest.IsAbout scope hour)
      (askMarket (.volumeInRange scope hour.start hour.endInstant kind)) :=
    fun kind => .askMarket ⟨rfl, rfl, rfl⟩
  refine .bind (askVolume .buy) fun buyVolume => .bind (askVolume .list) fun listVolume =>
    .bind (askVolume .withdraw) fun withdrawVolume => .bind (.askMarket ?_) fun _ =>
      .bind (.count _) fun _ => .pure _
  exact ⟨rfl, rfl⟩

theorem breaksOff_reachesFrontier (scope : VolumeScope) (window : Nat) (hour : HourBucket) :
    BreaksOff (· = .hasRow scope hour) (reachesFrontier scope window hour) := by
  unfold reachesFrontier
  split
  · exact .askMarket rfl
  · exact .pure _

namespace Walks

variable {scope : VolumeScope} {cancelled : Cancellation} {window : Nat}
variable {floor last : HourBucket} {progress : PassProgress} {before middle after : Deployment}
variable {outcome : Except Failure PassProgress} {written : List HourBucket}

/-- In front of the project no hour is due. -/
theorem inFrontOfProject (passed : last < floor) :
    Walks scope cancelled window floor last progress before before (.ok progress) [] where
  rewrites := .nothing scope before.market
  isPrefix := List.nil_prefix
  uncancelled count fewer := absurd fewer (Nat.not_lt_zero count)
  completed := by
    rintro reached ⟨⟩
    exact ⟨rfl, .nothing before, .inl (Marketplace.dueHours_of_lt passed).symm⟩
  failed := nofun

theorem atOnce (isCancelled : cancelled progress = true) :
    Walks scope cancelled window floor last progress before before (.ok progress.look) [] where
  rewrites := .nothing scope before.market
  isPrefix := List.nil_prefix
  uncancelled count fewer := absurd fewer (Nat.not_lt_zero count)
  completed := by
    rintro reached ⟨⟩
    exact ⟨rfl, .nothing before, .inr isCancelled⟩
  failed := nofun

theorem atFrontier (ordered : floor ≤ last) (unchanged : after.market = before.market)
    (stopped : before.market.stopsAt scope window last last = true)
    (answered : Answered (MarketRequest.IsAbout scope last) before after) :
    Walks scope cancelled window floor last progress before after (.ok progress.look) [] where
  rewrites := by
    rw [unchanged]
    exact .nothing scope before.market
  isPrefix := List.nil_prefix
  uncancelled count fewer := absurd fewer (Nat.not_lt_zero count)
  completed := by
    rintro reached ⟨⟩
    refine ⟨rfl, answered.imp fun request isAbout => ⟨last, ?_, isAbout⟩,
      .inl (Marketplace.dueHours_eq_nil ordered stopped).symm⟩
    exact HourBucket.mem_backTo_iff.mpr ⟨ordered, Int.le_refl _⟩
  failed := nofun

theorem brokenOff {failure : Failure} {request : MarketRequest} (ordered : floor ≤ last)
    (unchanged : after.market = before.market)
    (isNext : before.market.stopsAt scope window last last = false ∨ request = .hasRow scope last)
    (isAbout : request.IsAbout scope last)
    (fails : FailsAt (MarketRequest.IsAbout scope last) request failure before after) :
    Walks scope cancelled window floor last progress before after (.error failure) [] where
  rewrites := by
    rw [unchanged]
    exact .nothing scope before.market
  isPrefix := List.nil_prefix
  uncancelled count fewer := absurd fewer (Nat.not_lt_zero count)
  completed := nofun
  failed := by
    rintro cause ⟨⟩
    obtain ⟨rest, split⟩ := HourBucket.exists_backTo_eq_cons ordered
    refine ⟨last, request, ?_, isNext.imp_left fun goesOn => ?_, isAbout,
      fails.imp fun earlier about => ⟨last, List.mem_singleton_self last, about⟩⟩
    · rw [split]
      exact List.prefix_append [last] rest
    · obtain ⟨rest, split⟩ := Marketplace.exists_dueHours_eq_cons ordered goesOn
      rw [split]
      exact List.prefix_append [last] rest

/-- The row of the first representable hour is the last one to be put. -/
theorem putFirst {row : HourlyVolume} (ordered : floor ≤ last) (atStart : last.previous? = none)
    (goesOn : before.market.stopsAt scope window last last = false)
    (proceeds : cancelled progress = false) (put : after.market = before.market.putRow row)
    (sameScope : row.scope = scope) (sameHour : row.hour = last)
    (sums : before.market.SumsUp row)
    (answered : Answered (MarketRequest.IsAbout scope last) before after) :
    Walks scope cancelled window floor last progress before after (.ok progress.look.put)
      [last] where
  rewrites := by
    apply Marketplace.Rewrites.cons sameScope sameHour sums
    rw [put]
    exact .nothing scope _
  isPrefix :=
    (Marketplace.dueHours_of_previous?_eq_none ordered atStart goesOn).symm ▸ List.prefix_rfl
  uncancelled count fewer := by
    obtain rfl : count = 0 := by simpa using fewer
    exact proceeds
  completed := by
    rintro reached ⟨⟩
    refine ⟨rfl, answered.imp fun request isAbout => ⟨last, ?_, isAbout⟩,
      .inl (Marketplace.dueHours_of_previous?_eq_none ordered atStart goesOn).symm⟩
    exact HourBucket.mem_backTo_iff.mpr ⟨ordered, Int.le_refl _⟩
  failed := nofun

/-- A walk puts the row of its last hour and walks on from the hour before. -/
theorem step {row : HourlyVolume} {earlier : HourBucket} (ordered : floor ≤ last)
    (stepped : last.previous? = some earlier)
    (goesOn : before.market.stopsAt scope window last last = false)
    (proceeds : cancelled progress = false) (put : middle.market = before.market.putRow row)
    (sameScope : row.scope = scope) (sameHour : row.hour = last)
    (sums : before.market.SumsUp row)
    (answered : Answered (MarketRequest.IsAbout scope last) before middle)
    (walks : Walks scope cancelled (window - 1) floor earlier progress.look.put middle after
      outcome written) :
    Walks scope cancelled window floor last progress before after outcome (last :: written) := by
  have due := Marketplace.dueHours_of_previous? ordered stepped sameHour goesOn
  rw [← put] at due
  have hours := HourBucket.backTo_of_previous? ordered stepped
  have further : ∀ count, progress.look.put.further count = progress.further (count + 1) := by
    intro count
    simp [PassProgress.further, PassProgress.look, PassProgress.put, Nat.add_right_comm,
      Nat.add_assoc]
  refine ⟨?_, ?_, ?_, ?_, ?_⟩
  · apply Marketplace.Rewrites.cons sameScope sameHour sums
    rw [← put]
    exact walks.rewrites
  · rw [due]
    exact List.cons_prefix_cons.mpr ⟨rfl, walks.isPrefix⟩
  · intro count fewer
    cases count with
    | zero => exact proceeds
    | succ count =>
        rw [← further]
        exact walks.uncancelled count (Nat.lt_of_succ_lt_succ fewer)
  · intro reached isReached
    obtain ⟨rows, answeredLater, ends⟩ := walks.completed reached isReached
    refine ⟨?_, ?_, ?_⟩
    · rw [rows, List.length_cons]
      simp only [PassProgress.look, PassProgress.put]
      omega
    · rw [hours]
      exact (answered.imp fun request isAbout => ⟨last, List.mem_cons_self, isAbout⟩).trans
        (answeredLater.imp fun request ⟨hour, member, isAbout⟩ =>
          ⟨hour, List.mem_cons_of_mem last member, isAbout⟩)
    · rw [due, List.length_cons, ← further]
      exact ends.imp_left fun allDue => by rw [← allDue]
  · intro failure hasFailed
    obtain ⟨hour, request, next, isDue, isAbout, fails⟩ := walks.failed failure hasFailed
    refine ⟨hour, request, ?_, ?_, isAbout, ?_⟩
    · rw [hours]
      exact List.cons_prefix_cons.mpr ⟨rfl, next⟩
    · rw [due]
      exact isDue.imp_left fun nextDue => List.cons_prefix_cons.mpr ⟨rfl, nextDue⟩
    · exact (fails.imp fun request ⟨hour, member, isAbout⟩ =>
        ⟨hour, List.mem_cons_of_mem last member, isAbout⟩).behind
          (answered.imp fun request isAbout => ⟨last, List.mem_cons_self, isAbout⟩)

/-- A walk over hours whose prices can be summed up fails only where a request
meets an outage. -/
theorem isOk (walks : Walks scope cancelled window floor last progress before after outcome written)
    (clear : before.outages = [])
    (summable : ∀ hour ∈ before.market.dueHours scope window floor last, ∀ kind,
      (before.market.volumeInRange? scope hour.start hour.endInstant kind).isSome = true) :
    outcome.isOk = true := by
  cases outcome with
  | ok reached => rfl
  | error failure =>
      obtain ⟨hour, request, -, isDue, isAbout, middle, answered, failed⟩ :=
        walks.failed failure rfl
      have passes := isStruckBy_of_no_outages (answered.outages_eq_nil clear) (.market request)
      rw [runOn_askMarket, if_neg (Bool.eq_false_iff.mp passes)] at failed
      have unanswered := (Prod.mk.inj failed).1
      -- only a sum can fail
      cases request with
      | hasRow asked askedHour => cases unanswered
      | putRow row => cases unanswered
      | volumeInRange asked start finish kind =>
          obtain ⟨rfl, rfl, rfl⟩ := isAbout
          have member : hour ∈ before.market.dueHours asked window floor last := by
            rcases isDue with isDue | isRead
            · exact isDue.subset List.mem_concat_self
            · cases isRead
          have sum := summable hour member kind
          simp only [Marketplace.perform] at unanswered
          rw [Marketplace.volumeInRange?_of_transactions_eq answered.transactions_eq]
            at unanswered
          cases found : before.market.volumeInRange? asked hour.start hour.endInstant kind with
          | none =>
              rw [found] at sum
              cases sum
          | some volume =>
              rw [found] at unanswered
              cases unanswered
      | _ => exact isAbout.elim

end Walks

/-- Whatever becomes of a walk, there are hours whose rows it has put. -/
theorem exists_walks_of_walkFrom {scope : VolumeScope} {cancelled : Cancellation}
    {window remaining : Nat} {floor hour : HourBucket} {progress : PassProgress}
    {before after : Deployment} {outcome : Except Failure PassProgress}
    (count : remaining = floor.span hour)
    (ran : (walkFrom scope cancelled window remaining hour progress).runOn before =
      (outcome, after)) :
    ∃ written, Walks scope cancelled window floor hour progress before after outcome written := by
  induction remaining generalizing window hour progress before with
  | zero =>
      obtain ⟨rfl, rfl⟩ := Prod.mk.inj ran
      exact ⟨[], .inFrontOfProject (HourBucket.span_eq_zero_iff.mp count.symm)⟩
  | succ remaining ih =>
      have ordered : floor ≤ hour := by
        apply Int.not_lt.mp
        intro passed
        have none := HourBucket.span_eq_zero_iff.mpr passed
        omega
      unfold walkFrom at ran
      split at ran
      · rename_i isCancelled
        obtain ⟨rfl, rfl⟩ := Prod.mk.inj ran
        exact ⟨[], .atOnce isCancelled⟩
      rename_i proceeds
      have isAboutHour : ∀ request, request = MarketRequest.hasRow scope hour →
          request.IsAbout scope hour := by
        rintro _ rfl
        exact ⟨rfl, rfl⟩
      have frontierBreaksOff := breaksOff_reachesFrontier scope window hour
      rcases runOn_reachesFrontier_cases scope window hour before with
        ⟨failure, final, looked, same⟩ | ⟨reached, looked, look, same, isFrontier, isMissing⟩
      · rw [runOn_bind_of_error looked] at ran
        obtain ⟨rfl, rfl⟩ := Prod.mk.inj ran
        obtain ⟨request, isLook, fails⟩ := frontierBreaksOff.failed looked
        exact ⟨[], .brokenOff ordered same (.inr isLook) (isAboutHour request isLook)
          (fails.imp isAboutHour)⟩
      have answeredLook := (frontierBreaksOff.answered look).imp isAboutHour
      rw [runOn_bind_of_ok look] at ran
      cases reached with
      | true =>
          obtain ⟨rfl, rfl⟩ := Prod.mk.inj ran
          exact ⟨[], .atFrontier ordered same (Marketplace.stopsAt_last.mpr (isFrontier rfl))
            answeredLook⟩
      | false =>
          have goesOn : before.market.stopsAt scope window hour hour = false := by
            rw [← Bool.not_eq_true, Marketplace.stopsAt_last]
            rintro ⟨windowOver, present⟩
            rw [isMissing rfl windowOver] at present
            exact nomatch present
          have hourBreaksOff := breaksOff_aggregateHour scope hour
          rcases runOn_aggregateHour_cases scope hour looked with
            ⟨failure, final, aggregated, unchanged⟩ |
              ⟨row, put, aggregated, putOne, sameScope, sameHour, sums⟩
          · rw [if_neg (by decide), runOn_bind_of_error aggregated] at ran
            obtain ⟨rfl, rfl⟩ := Prod.mk.inj ran
            obtain ⟨request, isAbout, fails⟩ := hourBreaksOff.failed aggregated
            exact ⟨[], .brokenOff ordered (unchanged.trans same) (.inl goesOn) isAbout
              (fails.behind answeredLook)⟩
          rw [if_neg (by decide), runOn_bind_of_ok aggregated] at ran
          rw [same] at putOne sums
          have answered := answeredLook.trans (hourBreaksOff.answered aggregated)
          have notCancelled := Bool.eq_false_iff.mpr proceeds
          split at ran
          · rename_i atStart
            obtain ⟨rfl, rfl⟩ := Prod.mk.inj ran
            exact ⟨[hour], .putFirst ordered atStart goesOn notCancelled putOne sameScope sameHour
              sums answered⟩
          · rename_i earlier stepped
            have shorter := HourBucket.span_previous ordered stepped
            obtain ⟨written, walks⟩ := ih (by omega) ran
            exact ⟨hour :: written, walks.step ordered stepped goesOn notCancelled putOne
              sameScope sameHour sums answered⟩

end Operation

end MarketStats

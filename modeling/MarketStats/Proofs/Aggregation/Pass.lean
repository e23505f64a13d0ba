import MarketStats.Aggregation.Pass
import MarketStats.Proofs.Aggregation.Walk
import Mathlib.Algebra.Order.Ring.Int

/-!
# What a pass does

A pass walks over one scope after the other, each at most once.  It reports how
many rows it has put; when a request fails, it reports the failure of that
request and asks nothing more.  Neither the transactions nor the tokens are
changed.
-/

namespace MarketStats

namespace Marketplace

theorem mem_collectionIds (market : Marketplace) (collectionId : Int64) :
    collectionId ∈ market.collectionIds ↔
      collectionId ∈ market.tokens ∨
        ∃ transaction ∈ market.transactions, transaction.collectionId = collectionId := by
  unfold collectionIds
  rw [Std.TreeSet.mem_toList, Std.TreeSet.mem_ofList, List.contains_iff_mem, List.mem_append,
    Std.TreeMap.mem_keys, List.mem_map]

theorem nodup_collectionIds (market : Marketplace) : market.collectionIds.Nodup := by
  refine Std.TreeSet.distinct_toList.imp ?_
  rintro first second different rfl
  exact different Std.ReflCmp.compare_self

theorem collectionIds_eq {first second : Marketplace}
    (transactions : second.transactions = first.transactions)
    (tokens : second.tokens = first.tokens) : second.collectionIds = first.collectionIds := by
  simp only [collectionIds, transactions, tokens]

/-- Which hours of a scope are due depends on the rows of the scope alone. -/
theorem dueHours_eq_of_rows_eq {first second : Marketplace} {scope : VolumeScope}
    (same : ∀ hour, second.row? scope hour = first.row? scope hour) (window : Nat)
    (floor last : HourBucket) :
    second.dueHours scope window floor last = first.dueHours scope window floor last := by
  have sameStops : second.stopsAt scope window last = first.stopsAt scope window last := by
    funext hour
    rw [stopsAt, stopsAt, hasRow, hasRow, same]
  rw [dueHours_eq_takeWhile, dueHours_eq_takeWhile, sameStops]

end Marketplace

namespace AggregationSettings

def collectionScopes (settings : AggregationSettings) (market : Marketplace) : List VolumeScope :=
  if settings.perCollection then market.collectionIds.map .collection else []

def scopes (settings : AggregationSettings) (market : Marketplace) : List VolumeScope :=
  .global :: settings.collectionScopes market

theorem global_notMem_collectionScopes (settings : AggregationSettings) (market : Marketplace) :
    VolumeScope.global ∉ settings.collectionScopes market := by
  unfold collectionScopes
  split <;> simp

/-- The scopes of a pass are those of the transactions and tokens. -/
theorem scopes_eq (settings : AggregationSettings) {first second : Marketplace}
    (transactions : second.transactions = first.transactions)
    (tokens : second.tokens = first.tokens) : settings.scopes second = settings.scopes first := by
  simp only [scopes, collectionScopes, Marketplace.collectionIds_eq transactions tokens]

end AggregationSettings

namespace Operation

open Deployment Marketplace

/-- What a pass over some scopes does, wherever it ends, with so many rows put
before: in each of the scopes it puts the rows of the first hours that are due.
It reports how many rows have been put, or the failure of the first request that
fails. -/
structure Passes (scopes : List VolumeScope) (cancelled : Cancellation) (window : Nat)
    (floor last : HourBucket) (rows : Nat) (before after : Deployment)
    (outcome : Except Failure PassSummary) (written : VolumeScope → List HourBucket) : Prop where
  transactions : after.market.transactions = before.market.transactions
  tokens : after.market.tokens = before.market.tokens
  rewritten : ∀ scope, ∀ hour ∈ written scope, after.market.IsUpToDate scope hour
  kept : ∀ scope, ∀ hour ∉ written scope,
    after.market.row? scope hour = before.market.row? scope hour
  isPrefix : ∀ scope, written scope <+: before.market.dueHours scope window floor last
  outside : ∀ scope ∉ scopes, written scope = []
  completed : ∀ summary, outcome = .ok summary →
    summary.hours = rows + (scopes.map fun scope => (written scope).length).sum ∧
      Answered (fun _ => True) before after ∧
      (cancelled = .never → ∀ scope ∈ scopes,
        written scope = before.market.dueHours scope window floor last)
  failed : ∀ failure, outcome = .error failure →
    ∃ request, FailsAt (fun _ => True) request failure before after

namespace Passes

variable {head : VolumeScope} {scopes rest : List VolumeScope} {cancelled : Cancellation}
variable {window rows : Nat} {floor last : HourBucket} {before middle after : Deployment}
variable {outcome : Except Failure PassSummary}

/-- A pass that goes no further reports the rows that were put before. -/
theorem ended {summary : PassSummary} (reported : summary.hours = rows)
    (ends : cancelled = .never → scopes = []) :
    Passes scopes cancelled window floor last rows before before (.ok summary) fun _ => [] where
  transactions := rfl
  tokens := rfl
  rewritten _ := List.forall_mem_nil _
  kept _ _ _ := rfl
  isPrefix _ := List.nil_prefix
  outside _ _ := rfl
  completed := by
    rintro _ ⟨⟩
    refine ⟨by simp [reported, List.map_const'], .nothing before, fun never scope member => ?_⟩
    rw [ends never] at member
    exact nomatch member
  failed := nofun

theorem brokenOff {failure : Failure} {request : MarketRequest}
    (unchanged : after.market = before.market)
    (fails : FailsAt (fun _ => True) request failure before after) :
    Passes scopes cancelled window floor last rows before after (.error failure) fun _ => [] where
  transactions := by rw [unchanged]
  tokens := by rw [unchanged]
  rewritten _ := List.forall_mem_nil _
  kept _ _ _ := by rw [unchanged]
  isPrefix _ := List.nil_prefix
  outside _ _ := rfl
  completed := nofun
  failed := by
    rintro _ ⟨⟩
    exact ⟨request, fails⟩

/-- Requests that leave the store as it is make no difference to a pass. -/
theorem behind {written : VolumeScope → List HourBucket}
    (answered : Answered (fun _ => True) before middle) (unchanged : middle.market = before.market)
    (passes : Passes scopes cancelled window floor last rows middle after outcome written) :
    Passes scopes cancelled window floor last rows before after outcome written where
  transactions := by rw [passes.transactions, unchanged]
  tokens := by rw [passes.tokens, unchanged]
  rewritten := passes.rewritten
  kept scope hour notWritten := by rw [passes.kept scope hour notWritten, unchanged]
  isPrefix scope := by
    rw [← unchanged]
    exact passes.isPrefix scope
  outside := passes.outside
  completed summary succeeded := by
    obtain ⟨reported, answeredLater, all⟩ := passes.completed summary succeeded
    rw [unchanged] at all
    exact ⟨reported, answered.trans answeredLater, all⟩
  failed failure hasFailed := by
    obtain ⟨request, fails⟩ := passes.failed failure hasFailed
    exact ⟨request, fails.behind answered⟩

/-- A pass breaks off with the walk over its first scope. -/
theorem brokenOffWalk {progress : PassProgress} {failure : Failure} {hours : List HourBucket}
    (walks : Walks head cancelled window floor last progress before after (.error failure) hours) :
    Passes (head :: rest) cancelled window floor last rows before after (.error failure)
      fun scope => if scope = head then hours else [] := by
  obtain ⟨hour, request, -, -, -, fails⟩ := walks.failed failure rfl
  refine ⟨walks.rewrites.transactions, walks.rewrites.tokens, ?_, ?_, ?_, ?_, nofun, ?_⟩
  · intro scope
    split
    · rename_i isHead
      rw [isHead]
      exact walks.rewrites.rewritten
    · exact List.forall_mem_nil _
  · intro scope hour notWritten
    apply walks.rewrites.kept
    rintro ⟨isHead, member⟩
    rw [if_pos isHead] at notWritten
    exact notWritten member
  · intro scope
    split
    · rename_i isHead
      rw [isHead]
      exact walks.isPrefix
    · exact List.nil_prefix
  · intro scope notAsked
    rw [if_neg]
    rintro rfl
    exact notAsked List.mem_cons_self
  · rintro _ ⟨⟩
    exact ⟨request, fails.imp fun _ _ => trivial⟩

/-- A pass goes on behind the walk over its first scope. -/
theorem cons {progress reached : PassProgress} {hours : List HourBucket}
    {written : VolumeScope → List HourBucket} (fresh : head ∉ rest) (started : progress.rows = rows)
    (walks : Walks head cancelled window floor last progress before middle (.ok reached) hours)
    (passes : Passes rest cancelled window floor last reached.rows middle after outcome written) :
    Passes (head :: rest) cancelled window floor last rows before after outcome
      fun scope => if scope = head then hours else written scope := by
  obtain ⟨counted, answered, ends⟩ := walks.completed reached rfl
  have notRewritten : ∀ scope, scope ≠ head → ∀ hour,
      middle.market.row? scope hour = before.market.row? scope hour :=
    fun scope different hour => walks.rewrites.kept scope hour fun both => different both.1
  have sameDue : ∀ scope, scope ≠ head →
      middle.market.dueHours scope window floor last =
        before.market.dueHours scope window floor last :=
    fun scope different => dueHours_eq_of_rows_eq (notRewritten scope different) window floor last
  have restWritten : ∀ scope ∈ rest,
      (if scope = head then hours else written scope) = written scope := by
    intro scope member
    rw [if_neg]
    rintro rfl
    exact fresh member
  refine ⟨passes.transactions.trans walks.rewrites.transactions,
    passes.tokens.trans walks.rewrites.tokens, ?_, ?_, ?_, ?_, ?_, ?_⟩
  · intro scope hour
    split
    · rename_i isHead
      subst isHead
      intro member
      obtain ⟨row, found, sameScope, sameHour, sums⟩ := walks.rewrites.rewritten hour member
      have untouched : hour ∉ written scope := by
        rw [passes.outside scope fresh]
        exact List.not_mem_nil
      exact ⟨row, by rw [passes.kept scope hour untouched, found], sameScope, sameHour,
        sums.of_transactions_eq passes.transactions⟩
    · exact passes.rewritten scope hour
  · intro scope hour
    split
    · rename_i isHead
      subst isHead
      intro notWritten
      rw [passes.kept scope hour (by rw [passes.outside scope fresh]; exact List.not_mem_nil)]
      exact walks.rewrites.kept scope hour fun both => notWritten both.2
    · rename_i different
      intro notWritten
      rw [passes.kept scope hour notWritten, notRewritten scope different]
  · intro scope
    split
    · rename_i isHead
      rw [isHead]
      exact walks.isPrefix
    · rename_i different
      rw [← sameDue scope different]
      exact passes.isPrefix scope
  · intro scope notAsked
    rw [if_neg fun isHead => notAsked (by rw [isHead]; exact List.mem_cons_self)]
    exact passes.outside scope fun member => notAsked (List.mem_cons_of_mem head member)
  · intro summary succeeded
    obtain ⟨reported, answeredLater, all⟩ := passes.completed summary succeeded
    refine ⟨?_, (answered.imp fun _ _ => trivial).trans answeredLater, ?_⟩
    · have sameLengths := List.map_congr_left fun scope member =>
        congrArg List.length (restWritten scope member)
      rw [List.map_cons, List.sum_cons, if_pos rfl, sameLengths, reported, counted, started,
        Nat.add_assoc]
    · rintro rfl scope member
      split
      · rename_i isHead
        rw [isHead]
        exact ends.resolve_right nofun
      · rename_i different
        rw [← sameDue scope different]
        exact all rfl scope ((List.mem_cons.mp member).resolve_left different)
  · intro failure hasFailed
    obtain ⟨request, fails⟩ := passes.failed failure hasFailed
    exact ⟨request, fails.behind (answered.imp fun _ _ => trivial)⟩

end Passes

variable {settings : AggregationSettings} {cancelled : Cancellation} {now : Calendar.Instant}
variable {before after : Deployment}

theorem exists_passes_of_walkCollections {collectionIds : List Int64}
    (distinct : collectionIds.Nodup) {scopes : Nat} {progress : PassProgress}
    {outcome : Except Failure PassSummary}
    (ran : (walkCollections settings cancelled now collectionIds scopes progress).runOn before =
      (outcome, after)) :
    ∃ written, Passes (collectionIds.map .collection) cancelled settings.recentWindowHours
      settings.floor (HourBucket.containing now) progress.rows before after outcome written := by
  induction collectionIds generalizing scopes progress before with
  | nil =>
      obtain ⟨rfl, rfl⟩ := Prod.mk.inj ran
      exact ⟨_, .ended rfl fun _ => rfl⟩
  | cons collectionId rest ih =>
      obtain ⟨fresh, distinctRest⟩ := List.nodup_cons.mp distinct
      have freshScope : VolumeScope.collection collectionId ∉ rest.map VolumeScope.collection := by
        simpa using fresh
      unfold walkCollections at ran
      split at ran
      · rename_i isCancelled
        obtain ⟨rfl, rfl⟩ := Prod.mk.inj ran
        refine ⟨_, .ended rfl ?_⟩
        rintro rfl
        exact nomatch isCancelled
      rcases walk : (walk settings cancelled now (.collection collectionId) progress.look).runOn
          before with ⟨failure | reached, middle⟩
      · obtain ⟨hours, walks⟩ := exists_walks_of_walkFrom rfl walk
        rw [runOn_bind_of_error walk] at ran
        obtain ⟨rfl, rfl⟩ := Prod.mk.inj ran
        exact ⟨_, .brokenOffWalk walks⟩
      · obtain ⟨hours, walks⟩ := exists_walks_of_walkFrom rfl walk
        rw [runOn_bind_of_ok walk] at ran
        obtain ⟨written, passes⟩ := ih distinctRest ran
        have lookedOnly : progress.look.rows = progress.rows := rfl
        exact ⟨_, .cons freshScope lookedOnly walks passes⟩

/-- Whatever becomes of a pass, there are hours of each scope whose rows it has
put. -/
theorem exists_passes_of_runPass {outcome : Except Failure PassSummary}
    (ran : (runPass settings cancelled now).runOn before = (outcome, after)) :
    ∃ written, Passes (settings.scopes before.market) cancelled settings.recentWindowHours
      settings.floor (HourBucket.containing now) 0 before after outcome written := by
  have fresh := settings.global_notMem_collectionScopes before.market
  unfold runPass at ran
  rcases walk : (walk settings cancelled now .global .start).runOn before with
    ⟨failure | progress, middle⟩
  · obtain ⟨hours, walks⟩ := exists_walks_of_walkFrom rfl walk
    rw [runOn_bind_of_error walk] at ran
    obtain ⟨rfl, rfl⟩ := Prod.mk.inj ran
    exact ⟨_, .brokenOffWalk walks⟩
  obtain ⟨hours, walks⟩ := exists_walks_of_walkFrom rfl walk
  suffices rest : ∃ written, Passes (settings.collectionScopes before.market) cancelled
      settings.recentWindowHours settings.floor (HourBucket.containing now) progress.rows middle
      after outcome written by
    obtain ⟨written, passes⟩ := rest
    exact ⟨_, .cons fresh rfl walks passes⟩
  -- The collections are listed only behind the walk over the marketplace.
  rw [runOn_bind_of_ok walk] at ran
  unfold AggregationSettings.collectionScopes
  split at ran
  · rename_i perCollection
    rw [if_pos perCollection]
    rcases runOn_askMarket_cases .collectionIds middle with
      ⟨failure, listed⟩ | ⟨collectionIds, answered, listed⟩
    · rw [runOn_bind_of_error listed] at ran
      obtain ⟨rfl, rfl⟩ := Prod.mk.inj ran
      exact ⟨_, .brokenOff rfl ⟨middle, .nothing middle, listed⟩⟩
    · have isListed : collectionIds = before.market.collectionIds := by
        rw [← collectionIds_eq walks.rewrites.transactions walks.rewrites.tokens]
        exact (Except.ok.inj answered).symm
      rw [runOn_bind_of_ok listed, isListed] at ran
      obtain ⟨written, passes⟩ := exists_passes_of_walkCollections (nodup_collectionIds _) ran
      exact ⟨written, passes.behind (.ask trivial listed (.nothing _)) rfl⟩
  · rename_i onlyGlobal
    rw [if_neg onlyGlobal]
    obtain ⟨rfl, rfl⟩ := Prod.mk.inj ran
    exact ⟨_, .ended rfl fun _ => rfl⟩

variable {summary : PassSummary}

/-- A walk over collections that is not cancelled counts all of them. -/
theorem scopes_of_walkCollections {collectionIds : List Int64} {scopes : Nat}
    {progress : PassProgress}
    (ran : (walkCollections settings .never now collectionIds scopes progress).runOn before =
      (.ok summary, after)) :
    summary.scopes = scopes + collectionIds.length := by
  induction collectionIds generalizing scopes progress before with
  | nil =>
      cases ran
      rfl
  | cons collectionId rest ih =>
      obtain ⟨walked, middle, -, ranRest⟩ := runOn_bind_eq_ok ran
      have counted := ih ranRest
      rw [List.length_cons]
      omega

/-- A pass that is not cancelled reports the number of its scopes. -/
theorem length_scopes_of_runPass
    (ran : (runPass settings .never now).runOn before = (.ok summary, after)) :
    summary.scopes = (settings.scopes before.market).length := by
  obtain ⟨progress, middle, walked, ranRest⟩ := runOn_bind_eq_ok ran
  obtain ⟨hours, walks⟩ := exists_walks_of_walkFrom rfl walked
  unfold AggregationSettings.scopes AggregationSettings.collectionScopes
  split at ranRest
  · rename_i perCollection
    obtain ⟨collectionIds, listed, asked, ranWalks⟩ := runOn_bind_eq_ok ranRest
    have isListed : collectionIds = before.market.collectionIds := by
      rw [← collectionIds_eq walks.rewrites.transactions walks.rewrites.tokens]
      rcases runOn_askMarket_cases .collectionIds middle with ⟨failure, failed⟩ | ⟨_, answered, ok⟩
      · rw [failed] at asked
        exact nomatch asked
      · rw [ok] at asked
        cases asked
        exact (Except.ok.inj answered).symm
    rw [if_pos perCollection, List.length_cons, List.length_map, ← isListed, Nat.add_comm]
    exact scopes_of_walkCollections ranWalks
  · rename_i onlyGlobal
    cases ranRest
    rw [if_neg onlyGlobal]
    rfl

/-- Behind a pass every row of the recent window is up to date. -/
theorem Passes.isUpToDate_of_recent {scope : VolumeScope} {scopes : List VolumeScope}
    {window rows : Nat} {floor last hour : HourBucket} {written : VolumeScope → List HourBucket}
    (passes : Passes scopes .never window floor last rows before after (.ok summary) written)
    (wanted : scope ∈ scopes) (notBefore : floor ≤ hour) (notAfter : hour ≤ last)
    (recent : last.index < hour.index + window) : after.market.IsUpToDate scope hour := by
  obtain ⟨-, -, all⟩ := passes.completed summary rfl
  apply passes.rewritten
  rw [all rfl scope wanted]
  exact mem_dueHours_of_recent notBefore notAfter recent

end Operation

end MarketStats

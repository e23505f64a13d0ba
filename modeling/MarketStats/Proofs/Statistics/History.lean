import MarketStats.Proofs.Statistics.Recomputation

/-!
# What published data say about the past

A history is a list of events, each of which may fail at any of its requests.
Of all that happens, the published statistics and the scores depend on two
kinds of events only: on calls for statistics, and on invalidations.  A history
therefore keeps notes of these, the latest note first, and what is published
can be read off the notes.
-/

namespace MarketStats

inductive ServiceEvent
  | register (info : CollectionInfo)
  | rename (tokenId name : String)
  | lookup (tokenId : String)
  | collections
  | getStatistics (tokenId : String)
  | cachedStatistics (tokenId : String)
  | warm
  | leaderboard (request : String) (first last : Int) (descending : Bool)
  | invalidate (tokenId : String)
  | record (transaction : Transaction)
  | addToken (collectionId : Int64) (token : Token)
  | restart
  /-- Time passes. -/
  | wait (span : Nat)
  /-- Other outages take the place of the ones that there are. -/
  | meet (outages : List Outage)
  /-- Local copies vanish. -/
  | forget (keys : List String)

inductive ServiceNote
  /-- A call for statistics, and the deployment that it was made on. -/
  | called (tokenId : String) (before : Deployment)
  /-- An invalidation that succeeded. -/
  | invalidated (tokenId : String)

/-- What happened on a deployment, the latest first, and what became of it. -/
structure ServiceHistory where
  notes : List ServiceNote
  current : Deployment

namespace Deployment

/-- What an operation leaves behind, whether or not it succeeds. -/
def after {α : Type} (deployment : Deployment) (operation : Operation α) : Deployment :=
  (operation.runOn deployment).2

def afterEvent (settings : LeaseSettings) (deployment : Deployment) : ServiceEvent → Deployment
  | .register info => deployment.after (Operation.register info)
  | .rename tokenId name => deployment.after (Operation.rename tokenId name)
  | .lookup tokenId => deployment.after (Operation.lookup tokenId)
  | .collections => deployment.after Operation.collections
  | .getStatistics tokenId => deployment.after (Operation.getStatistics settings tokenId)
  | .cachedStatistics tokenId => deployment.after (Operation.cachedStatistics tokenId)
  | .warm => deployment.after (Operation.warm settings)
  | .leaderboard request first last descending =>
      deployment.after (Operation.leaderboard request first last descending)
  | .invalidate tokenId => deployment.after (Operation.invalidate tokenId)
  | .record transaction => { deployment with market := deployment.market.record transaction }
  | .addToken collectionId token =>
      { deployment with market := deployment.market.addToken collectionId token }
  | .restart => deployment.restart
  | .wait span => { deployment with now := deployment.now + span }
  | .meet outages => { deployment with outages }
  | .forget keys =>
      { deployment with
        registry :=
          { deployment.registry with copies := deployment.registry.copies.removeAll keys } }

end Deployment

namespace ServiceNote

/-- The calls that are made to warm up some collections. -/
def ofWarmUp (settings : LeaseSettings) : List CollectionInfo → Deployment → List ServiceNote
  | [], _ => []
  | info :: rest, before =>
      match (Operation.attempt (Operation.getStatistics settings info.tokenId)).runOn before with
      | (.ok _, after) => ofWarmUp settings rest after ++ [.called info.tokenId before]
      | (.error _, _) => [.called info.tokenId before]

/-- What is remembered of an event on a deployment. -/
def ofEvent (settings : LeaseSettings) (before : Deployment) : ServiceEvent → List ServiceNote
  | .getStatistics tokenId => [.called tokenId before]
  | .warm =>
      match Operation.collections.runOn before with
      | (.ok infos, after) => ofWarmUp settings infos after
      | (.error _, _) => []
  | .invalidate tokenId =>
      match (Operation.invalidate tokenId).runOn before with
      | (.ok _, _) => [.invalidated tokenId]
      | (.error _, _) => []
  | _ => []

end ServiceNote

namespace ServiceHistory

def start (deployment : Deployment) : ServiceHistory :=
  { notes := [], current := deployment }

def extend (settings : LeaseSettings) (history : ServiceHistory) (event : ServiceEvent) :
    ServiceHistory :=
  { notes := ServiceNote.ofEvent settings history.current event ++ history.notes
    current := history.current.afterEvent settings event }

def ofEvents (settings : LeaseSettings) (deployment : Deployment) (events : List ServiceEvent) :
    ServiceHistory :=
  events.foldl (extend settings) (start deployment)

end ServiceHistory

namespace ServiceHistory

open Deployment Operation

/-- A property of notes and a deployment that survives whatever leaves the
shared tier alone, every call that is noted, and every invalidation that
succeeds. -/
structure IsKept (settings : LeaseSettings)
    (property : List ServiceNote → Deployment → Prop) : Prop where
  unnoticed : ∀ {notes before after}, property notes before → SameShared before after →
    property notes after
  called : ∀ {notes before} (tokenId : String), property notes before →
    property (.called tokenId before :: notes) (before.after (getStatistics settings tokenId))
  invalidated : ∀ {notes before after} {tokenId : String}, property notes before →
    (invalidate tokenId).runOn before = (.ok (), after) →
      property (.invalidated tokenId :: notes) after

namespace IsKept

variable {settings : LeaseSettings} {property : List ServiceNote → Deployment → Prop}
variable {notes : List ServiceNote} {deployment : Deployment}

theorem leavesShared {α : Type} {operation : Operation α} (kept : IsKept settings property)
    (holds : property notes deployment) (leaves : LeavesShared operation) :
    property notes (deployment.after operation) :=
  kept.unnoticed holds (leaves deployment)

/-- Every call of a warm-up is noted, up to one that breaks it off. -/
theorem ofWarmUp (kept : IsKept settings property) (holds : property notes deployment)
    (infos : List CollectionInfo) :
    property (ServiceNote.ofWarmUp settings infos deployment ++ notes)
      (deployment.after (warmAll settings infos)) := by
  induction infos generalizing deployment notes with
  | nil => exact holds
  | cons info rest ih =>
      have holdsNext := kept.called info.tokenId holds
      have sameAfter : ((attempt (getStatistics settings info.tokenId)).runOn deployment).2 =
          deployment.after (getStatistics settings info.tokenId) := by
        rw [runOn_attempt, after]
        split <;> next ran => rw [ran]
      rw [← sameAfter] at holdsNext
      unfold warmAll ServiceNote.ofWarmUp Deployment.after
      rcases outcome : (attempt (getStatistics settings info.tokenId)).runOn deployment with
        ⟨failure | answer, next⟩
      · rw [outcome] at holdsNext
        rw [runOn_bind_of_error outcome]
        exact holdsNext
      · rw [outcome] at holdsNext
        rw [runOn_bind_of_ok outcome, runOn_bind_pure_snd, List.append_assoc]
        exact ih holdsNext

theorem warm (kept : IsKept settings property) (holds : property notes deployment) :
    property (ServiceNote.ofEvent settings deployment .warm ++ notes)
      (deployment.after (Operation.warm settings)) := by
  have leaves : LeavesShared collections := .useRegistry _
  rw [ServiceNote.ofEvent]
  unfold Operation.warm Deployment.after
  rcases outcome : collections.runOn deployment with ⟨failure | infos, next⟩
  · rw [runOn_bind_of_error outcome]
    exact kept.unnoticed holds (leaves.of_ran outcome)
  · rw [runOn_bind_of_ok outcome]
    exact kept.ofWarmUp (kept.unnoticed holds (leaves.of_ran outcome)) infos

/-- An invalidation is noted, or it fails and changes nothing. -/
theorem invalidate (kept : IsKept settings property) (holds : property notes deployment)
    (tokenId : String) :
    property (ServiceNote.ofEvent settings deployment (.invalidate tokenId) ++ notes)
      (deployment.after (Operation.invalidate tokenId)) := by
  rw [ServiceNote.ofEvent, after]
  rcases ran : (Operation.invalidate tokenId).runOn deployment with ⟨failure | _, after⟩
  · exact kept.unnoticed holds (sameShared_of_invalidate_eq_error ran)
  · exact kept.invalidated holds ran

/-- What survives the three kinds of steps survives every event. -/
theorem ofEvent (kept : IsKept settings property) (holds : property notes deployment)
    (event : ServiceEvent) :
    property (ServiceNote.ofEvent settings deployment event ++ notes)
      (deployment.afterEvent settings event) := by
  cases event with
  | register info => exact kept.leavesShared holds (.useRegistry _)
  | rename tokenId name => exact kept.leavesShared holds (.useRegistry _)
  | lookup tokenId => exact kept.leavesShared holds (.useRegistry _)
  | collections => exact kept.leavesShared holds (.useRegistry _)
  | getStatistics tokenId => exact kept.called tokenId holds
  | cachedStatistics tokenId => exact kept.leavesShared holds (.cachedStatistics tokenId)
  | warm => exact kept.warm holds
  | leaderboard request first last descending =>
      exact kept.leavesShared holds (.leaderboard request first last descending)
  | invalidate tokenId => exact kept.invalidate holds tokenId
  | record transaction => exact kept.unnoticed holds ⟨Nat.le_refl _, rfl⟩
  | addToken collectionId token => exact kept.unnoticed holds ⟨Nat.le_refl _, rfl⟩
  | restart => exact kept.unnoticed holds ⟨Nat.le_refl _, rfl⟩
  | wait span => exact kept.unnoticed holds ⟨Nat.le_add_right _ _, rfl⟩
  | meet outages => exact kept.unnoticed holds ⟨Nat.le_refl _, rfl⟩
  | forget keys => exact kept.unnoticed holds ⟨Nat.le_refl _, rfl⟩

/-- A property that holds at the start and is kept holds of a whole history. -/
theorem ofEvents (kept : IsKept settings property) (holds : property [] deployment)
    (events : List ServiceEvent) :
    property (ServiceHistory.ofEvents settings deployment events).notes
      (ServiceHistory.ofEvents settings deployment events).current := by
  have preserved : ∀ history : ServiceHistory, property history.notes history.current →
      property (events.foldl (extend settings) history).notes
        (events.foldl (extend settings) history).current := by
    induction events with
    | nil => exact fun _ holds => holds
    | cons event rest ih =>
        intro history holds
        exact ih (history.extend settings event) (kept.ofEvent holds event)
  exact preserved (start deployment) holds

end IsKept

end ServiceHistory

namespace ServiceNote

/-- The statistics that the latest call returned of those that won the claim on
a collection and succeeded, unless they were invalidated since; and the
deployment that the call was made on. -/
def published? (settings : LeaseSettings) (tokenId : String) :
    List ServiceNote → Option (CollectionStatistics × Deployment)
  | [] => none
  | .called other before :: earlier =>
      if other = tokenId then
        match Operation.publication? settings tokenId before with
        | some statistics => some (statistics, before)
        | none => published? settings tokenId earlier
      else
        published? settings tokenId earlier
  | .invalidated other :: earlier =>
      if other = tokenId then none else published? settings tokenId earlier

/-- The statistics of the latest call that won the claim on a collection and
came as far as to set its score along a dimension. -/
def scored? (settings : LeaseSettings) (tokenId : String) (dimension : LeaderboardDimension) :
    List ServiceNote → Option CollectionStatistics
  | [] => none
  | .called other before :: earlier =>
      if other = tokenId then
        match Operation.scoring? settings tokenId before with
        | some (statistics, dimensions) =>
            if dimension ∈ dimensions then some statistics
            else scored? settings tokenId dimension earlier
        | none => scored? settings tokenId dimension earlier
      else
        scored? settings tokenId dimension earlier
  | .invalidated _ :: earlier => scored? settings tokenId dimension earlier

variable {settings : LeaseSettings} {tokenId other : String} {before : Deployment}
variable {notes : List ServiceNote} {dimension : LeaderboardDimension}
variable {statistics : CollectionStatistics} {dimensions : List LeaderboardDimension}

theorem published?_called_of_none
    (without : Operation.publication? settings tokenId before = none) :
    published? settings other (.called tokenId before :: notes) =
      published? settings other notes := by
  rw [published?]
  split
  · next same =>
    rw [← same, without]
  · rfl

theorem published?_called_of_some
    (publication : Operation.publication? settings tokenId before = some statistics) :
    published? settings other (.called tokenId before :: notes) =
      if other = tokenId then some (statistics, before) else published? settings other notes := by
  rw [published?]
  by_cases same : tokenId = other
  · rw [if_pos same, if_pos same.symm, ← same, publication]
  · rw [if_neg same, if_neg (Ne.symm same)]

theorem scored?_called_of_none (without : Operation.scoring? settings tokenId before = none) :
    scored? settings other dimension (.called tokenId before :: notes) =
      scored? settings other dimension notes := by
  rw [scored?]
  split
  · next same =>
    rw [← same, without]
  · rfl

theorem scored?_called_of_some
    (scoring : Operation.scoring? settings tokenId before = some (statistics, dimensions)) :
    scored? settings other dimension (.called tokenId before :: notes) =
      if other = tokenId ∧ dimension ∈ dimensions then some statistics
      else scored? settings other dimension notes := by
  rw [scored?]
  by_cases same : tokenId = other
  · subst same
    rw [if_pos rfl, scoring]
    simp only [true_and]
  · rw [if_neg same, if_neg fun both => same both.1.symm]

/-- What is published is what the notes say. -/
structure AreAccurate (settings : LeaseSettings) (notes : List ServiceNote)
    (deployment : Deployment) : Prop where
  statisticsText?_eq : ∀ moment tokenId, deployment.now ≤ moment →
    deployment.statisticsText? moment tokenId =
      (published? settings tokenId notes).map fun published => published.1.toJson.toText
  score?_eq : ∀ dimension tokenId,
    deployment.score? dimension tokenId =
      (scored? settings tokenId dimension notes).map dimension.score

namespace AreAccurate

open Deployment Operation

variable {deployment after : Deployment}

theorem nil {moment sweepInterval : Nat} (empty : deployment.shared = .empty moment sweepInterval) :
    AreAccurate settings [] deployment where
  statisticsText?_eq _ _ _ := by
    rw [statisticsText?, empty]
    rfl
  score?_eq _ _ := by
    rw [score?, empty]
    rfl

theorem of_samePublished (accurate : AreAccurate settings notes deployment)
    (same : SamePublished deployment after) : AreAccurate settings notes after where
  statisticsText?_eq moment tokenId later := by
    rw [same.statisticsText?_eq moment tokenId later]
    exact accurate.statisticsText?_eq moment tokenId (Nat.le_trans same.now_le later)
  score?_eq dimension tokenId := by
    rw [same.score?_eq]
    exact accurate.score?_eq dimension tokenId

/-- A call for statistics is noted as what it does. -/
theorem called (accurate : AreAccurate settings notes deployment) (tokenId : String) :
    AreAccurate settings (.called tokenId deployment :: notes)
      (deployment.after (getStatistics settings tokenId)) := by
  rcases getStatistics_cases settings tokenId deployment with
    ⟨noScoring, noPublication, same⟩ | ⟨statistics, dimensions, scoring, noPublication, sets⟩ |
      ⟨statistics, scoring, publication, publishes⟩
  · have accurateAfter := accurate.of_samePublished same
    constructor
    · intro moment other later
      rw [published?_called_of_none noPublication]
      exact accurateAfter.statisticsText?_eq moment other later
    · intro dimension other
      rw [scored?_called_of_none noScoring]
      exact accurateAfter.score?_eq dimension other
  · constructor
    · intro moment other later
      rw [published?_called_of_none noPublication, after,
        sets.statisticsText?_eq moment other later]
      exact accurate.statisticsText?_eq moment other (Nat.le_trans sets.now_le later)
    · intro dimension other
      rw [scored?_called_of_some scoring, after, sets.score?_eq]
      split
      · rfl
      · exact accurate.score?_eq dimension other
  · constructor
    · intro moment other later
      rw [published?_called_of_some publication, after,
        publishes.statisticsText?_eq moment other later]
      split
      · rfl
      · exact accurate.statisticsText?_eq moment other (Nat.le_trans publishes.now_le later)
    · intro dimension other
      rw [scored?_called_of_some scoring, after, publishes.score?_eq]
      by_cases same : other = tokenId
      · rw [if_pos same, if_pos ⟨same, dimension.mem_all⟩]
        rfl
      · rw [if_neg same, if_neg fun both => same both.1]
        exact accurate.score?_eq dimension other

/-- An invalidation that succeeds takes away the statistics of its collection. -/
theorem invalidated (accurate : AreAccurate settings notes deployment)
    (ran : (Operation.invalidate tokenId).runOn deployment = (.ok (), after)) :
    AreAccurate settings (.invalidated tokenId :: notes) after := by
  obtain ⟨clock, rankings, entries⟩ := runOn_invalidate_eq_ok ran
  constructor
  · intro moment other later
    rw [published?, statisticsText?, ExpiringCache.get?, entries, ExpiringCache.live?_removeAll]
    by_cases same : tokenId = other
    · rw [if_pos same, if_pos (by simp [same])]
      rfl
    · have kept : statisticsKey other ∉ [statisticsKey tokenId, claimKey tokenId] := by
        simp only [List.mem_cons, List.not_mem_nil, or_false, not_or]
        exact ⟨fun equal => same (statisticsKey_injective equal).symm,
          (claimKey_ne_statisticsKey tokenId other).symm⟩
      rw [if_neg same, if_neg kept]
      exact accurate.statisticsText?_eq moment other (by omega)
  · intro dimension other
    rw [score?, rankings]
    exact accurate.score?_eq dimension other

end AreAccurate

theorem isKept_areAccurate (settings : LeaseSettings) :
    ServiceHistory.IsKept settings (AreAccurate settings) where
  unnoticed accurate same := accurate.of_samePublished (.of_shared_eq same.now_le same.shared_eq)
  called tokenId accurate := accurate.called tokenId
  invalidated accurate ran := accurate.invalidated ran

end ServiceNote

namespace ServiceHistory

open ServiceNote

/-- Nothing was published when the history started. -/
def StartsEmpty (settings : LeaseSettings) (history : ServiceHistory) : Prop :=
  ∃ deployment events moment sweepInterval,
    deployment.shared = .empty moment sweepInterval ∧
      ofEvents settings deployment events = history

/-- The notes of a history are accurate if nothing was published when it
started. -/
theorem StartsEmpty.areAccurate {settings : LeaseSettings} {history : ServiceHistory}
    (startsEmpty : history.StartsEmpty settings) :
    AreAccurate settings history.notes history.current := by
  obtain ⟨deployment, events, moment, sweepInterval, empty, rfl⟩ := startsEmpty
  exact (isKept_areAccurate settings).ofEvents (.nil empty) events

end ServiceHistory

end MarketStats

import Mathlib.Data.List.Basic
import MarketStats.Proofs.Cache.Ranking
import MarketStats.Proofs.Deployment.Requests
import MarketStats.Proofs.Registry.Agreement
import MarketStats.Proofs.Registry.Mappings
import MarketStats.Proofs.Statistics.Published
import MarketStats.Proofs.Statistics.Served

/-!
# Pages of a leaderboard

The line of a member shows its own mapping and its own statistics.  Reading one
line leaves everything that other lines show as it is, whether or not a copy of
a mapping is kept.  A page therefore lists the members at its ranks that have a
line, in the order of their ranks, and leaves out those whose statistics are
out of reach.  Pages that follow each other list what one page with all ranks
lists.
-/

namespace MarketStats

/-- The counters behind some more members that were left out of pages. -/
def Counters.withSkipped (counters : Counters) (count : Nat) : Counters :=
  { counters with entriesSkipped := counters.entriesSkipped + count }

theorem Counters.withSkipped_withSkipped (counters : Counters) (first second : Nat) :
    (counters.withSkipped first).withSkipped second = counters.withSkipped (first + second) := by
  unfold withSkipped
  rw [Nat.add_assoc]

namespace LeaderboardDimension

/-- A request names a dimension if it spells its name, the case of ASCII letters
apart. -/
theorem ofRequest?_eq_some_iff {request : String} {dimension : LeaderboardDimension} :
    ofRequest? request = some dimension ↔ lowerCase request = dimension.name := by
  constructor
  · intro named
    unfold ofRequest? ofName? at named
    split at named
    · next isItems => cases named; exact isItems
    split at named
    · next isOwners => cases named; exact isOwners
    split at named
    · next isFloorPrice => cases named; exact isFloorPrice
    split at named
    · next isVolume => cases named; exact isVolume
    · cases named
  · intro spelled
    rw [ofRequest?, spelled, ofName?_name]

theorem ofRequest?_eq_none {request : String}
    (unnamed : ∀ dimension : LeaderboardDimension, lowerCase request ≠ dimension.name) :
    ofRequest? request = none := by
  cases named : ofRequest? request with
  | none => rfl
  | some dimension => exact absurd (ofRequest?_eq_some_iff.mp named) (unnamed dimension)

end LeaderboardDimension

namespace Deployment

/-- The mapping that a search for a token identifier finds. -/
def mapping? (deployment : Deployment) (tokenId : String) : Option CollectionInfo :=
  (deployment.registry.lookup deployment.now tokenId).1.toOption

/-- The statistics of a collection that are present and can be read. -/
def statistics? (deployment : Deployment) (tokenId : String) : Option CollectionStatistics :=
  (deployment.statisticsText? deployment.now tokenId).bind fun written =>
    Json.decode? CollectionStatistics.ofJson? (Text.ofString written)

/-- The line of a member that has a mapping and statistics. -/
def line? (deployment : Deployment) (tokenId : String) : Option LeaderboardEntry :=
  (deployment.mapping? tokenId).bind fun info =>
    (deployment.statistics? tokenId).map fun statistics =>
      { tokenId := info.tokenId
        collectionId := info.collectionId
        name := info.name
        statistics }

def statisticsRead (tokenId : String) : Request :=
  .shared (.get (statisticsKey tokenId))

def rankingRead (dimension : LeaderboardDimension) (first last : Int) (descending : Bool) :
    Request :=
  .shared (.ranked (leaderboardKey dimension) first last descending)

/-- The members at a range of ranks, in the order of their ranks. -/
def members (deployment : Deployment) (dimension : LeaderboardDimension) (first last : Int)
    (descending : Bool) : List String :=
  deployment.shared.rankings.range (leaderboardKey dimension) first last descending

/-- The members whose statistics are asked for. -/
def mapped (deployment : Deployment) (members : List String) : List String :=
  members.filter fun tokenId => (deployment.mapping? tokenId).isSome

/-- The members whose statistics are out of reach when they are asked for in
this order. -/
def unreached (deployment : Deployment) (members : List String) : List String :=
  (((deployment.mapped members).zip (Outage.failures deployment.outages
    ((deployment.mapped members).map statisticsRead))).filter Prod.snd).map Prod.fst

/-- What a page with some members shows of one of them. -/
def shown? (deployment : Deployment) (members : List String) (tokenId : String) :
    Option LeaderboardEntry :=
  if tokenId ∈ deployment.unreached members then none else deployment.line? tokenId

def page (deployment : Deployment) (members : List String) : List LeaderboardEntry :=
  members.filterMap (deployment.shown? members)

/-- How many members a page leaves out. -/
def omitted (deployment : Deployment) (members : List String) : Nat :=
  members.countP fun tokenId => (deployment.shown? members tokenId).isNone

/-- The shared tier is the same at the same time, and the same mappings are
found. -/
structure SameLines (before after : Deployment) : Prop where
  now_eq : after.now = before.now
  shared_eq : after.shared = before.shared
  lookup_eq : ∀ tokenId, (after.registry.lookup after.now tokenId).1 =
    (before.registry.lookup before.now tokenId).1

namespace SameLines

variable {before after : Deployment}

theorem of_registry_eq (now_eq : after.now = before.now) (shared_eq : after.shared = before.shared)
    (registry_eq : after.registry = before.registry) : SameLines before after where
  now_eq := now_eq
  shared_eq := shared_eq
  lookup_eq _ := by rw [now_eq, registry_eq]

theorem of_outages (deployment : Deployment) (outages : List Outage) :
    SameLines deployment { deployment with outages } :=
  .of_registry_eq rfl rfl rfl

theorem mapping?_eq (same : SameLines before after) (tokenId : String) :
    after.mapping? tokenId = before.mapping? tokenId := by
  rw [mapping?, same.lookup_eq]
  rfl

theorem statistics?_eq (same : SameLines before after) (tokenId : String) :
    after.statistics? tokenId = before.statistics? tokenId := by
  rw [statistics?, statisticsText?, same.now_eq, same.shared_eq]
  rfl

theorem line?_eq (same : SameLines before after) (tokenId : String) :
    after.line? tokenId = before.line? tokenId := by
  rw [line?, same.mapping?_eq, same.statistics?_eq]
  rfl

theorem mapped_eq (same : SameLines before after) (members : List String) :
    after.mapped members = before.mapped members := by
  apply List.filter_congr
  intro tokenId _
  rw [same.mapping?_eq]

theorem members_eq (same : SameLines before after) (dimension : LeaderboardDimension)
    (first last : Int) (descending : Bool) :
    after.members dimension first last descending =
      before.members dimension first last descending := by
  rw [members, same.shared_eq]
  rfl

end SameLines

end Deployment

namespace Operation

open Deployment

theorem chains_sameLines : Chains SameLines where
  refl _ := .of_registry_eq rfl rfl rfl
  trans first second :=
    { now_eq := second.now_eq.trans first.now_eq
      shared_eq := second.shared_eq.trans first.shared_eq
      lookup_eq := fun tokenId => (second.lookup_eq tokenId).trans (first.lookup_eq tokenId) }

/-- Searches for mappings and requests that leave the shared tier alone do not
change what a line shows. -/
theorem composes_sameLines :
    Composes LeavesShared.Leaving (fun _ => True) (Within SameLines) := by
  apply chains_sameLines.composes
  · exact fun _ _ => .of_registry_eq rfl rfl rfl
  · intro request _ deployment
    rcases runOn_askMarket_cases request deployment with ⟨_, ran⟩ | ⟨_, _, ran⟩
    · rw [ran]
      exact .of_registry_eq rfl rfl rfl
    · rw [ran]
      exact .of_registry_eq rfl rfl rfl
  · intro request reads deployment
    rcases runOn_askShared_cases request deployment with ⟨_, ran⟩ | ⟨_, ran⟩
    · rw [ran]
      exact .of_registry_eq rfl rfl rfl
    · rw [ran]
      exact .of_registry_eq rfl (reads _ _) rfl
  · intro tokenId _ deployment
    rw [lookup, runOn_useRegistry]
    exact
      { now_eq := rfl
        shared_eq := rfl
        lookup_eq := deployment.registry.lookup_behind_lookup deployment.now tokenId }

end Operation

namespace Deployment

open Operation

variable {before after : Deployment} {first rest members : List String} {tokenId : String}

theorem mapped_append (deployment : Deployment) (first rest : List String) :
    deployment.mapped (first ++ rest) = deployment.mapped first ++ deployment.mapped rest :=
  List.filter_append _ _

theorem mem_of_mem_unreached (unreached : tokenId ∈ before.unreached members) :
    tokenId ∈ members := by
  obtain ⟨⟨_, struck⟩, paired, rfl⟩ := List.mem_map.mp unreached
  exact (List.mem_filter.mp (List.of_mem_zip (List.mem_filter.mp paired).1).1).1

theorem line?_of_unmapped (unmapped : before.mapping? tokenId = none) :
    before.line? tokenId = none := by
  rw [line?, unmapped]
  rfl

theorem mapped_singleton (before : Deployment) (tokenId : String) :
    before.mapped [tokenId] = if (before.mapping? tokenId).isSome then [tokenId] else [] := by
  unfold mapped
  rw [List.filter_singleton, cond_eq_ite]

/-- Only the statistics of a member with a mapping are asked for. -/
theorem shown?_singleton (before : Deployment) (tokenId : String) :
    before.shown? [tokenId] tokenId =
      if before.isStruckBy (statisticsRead tokenId) then none else before.line? tokenId := by
  unfold shown? unreached
  rw [mapped_singleton]
  cases found : before.mapping? tokenId with
  | none =>
      -- Nothing is asked for, and there is no line either way.
      simp [line?_of_unmapped found]
  | some info =>
      simp only [Option.isSome_some, if_true, List.map_cons, List.map_nil, Outage.failures,
        List.zip_cons_cons, List.zip_nil_right]
      change _ = if (Outage.strikeAll before.outages (statisticsRead tokenId)).1 then _ else _
      cases (Outage.strikeAll before.outages (statisticsRead tokenId)).1 with
      | true => simp
      | false => simp

/-- Reading the lines of some members takes up the outages that their reads
meet. -/
structure HasRead (members : List String) (before after : Deployment) : Prop where
  sameLines : SameLines before after
  outages : after.outages =
    Outage.leftBy before.outages ((before.mapped members).map statisticsRead)

namespace HasRead

theorem nothing (deployment : Deployment) : HasRead [] deployment deployment where
  sameLines := .of_registry_eq rfl rfl rfl
  outages := rfl

theorem count (read : HasRead members before after) (counters : Counters) :
    HasRead members before { after with counters } where
  sameLines := chains_sameLines.trans read.sameLines (.of_registry_eq rfl rfl rfl)
  outages := read.outages

theorem append {middle : Deployment} (read : HasRead first before middle)
    (readNext : HasRead rest middle after) : HasRead (first ++ rest) before after where
  sameLines := chains_sameLines.trans read.sameLines readNext.sameLines
  outages := by
    rw [readNext.outages, read.outages, read.sameLines.mapped_eq, mapped_append, List.map_append]
    exact List.foldl_append.symm

theorem unreached_append (read : HasRead first before after) (rest : List String) :
    before.unreached (first ++ rest) = before.unreached first ++ after.unreached rest := by
  unfold unreached
  rw [read.outages, read.sameLines.mapped_eq, mapped_append, List.map_append,
    Outage.failures_append, List.zip_append (by rw [Outage.length_failures, List.length_map]),
    List.filter_append, List.map_append]

theorem shown?_append_of_mem_first (read : HasRead first before after)
    (disjoint : first.Disjoint rest) (inFirst : tokenId ∈ first) :
    before.shown? (first ++ rest) tokenId = before.shown? first tokenId := by
  have notInRest : tokenId ∉ after.unreached rest :=
    fun unreached => disjoint inFirst (mem_of_mem_unreached unreached)
  unfold shown?
  rw [read.unreached_append]
  simp only [List.mem_append, notInRest, or_false]

theorem shown?_append_of_mem_rest (read : HasRead first before after)
    (disjoint : first.Disjoint rest) (inRest : tokenId ∈ rest) :
    before.shown? (first ++ rest) tokenId = after.shown? rest tokenId := by
  have notInFirst : tokenId ∉ before.unreached first :=
    fun unreached => disjoint (mem_of_mem_unreached unreached) inRest
  unfold shown?
  rw [read.unreached_append, read.sameLines.line?_eq]
  simp only [List.mem_append, notInFirst, false_or]

/-- A page goes on with what is shown behind its first lines. -/
theorem page_append (read : HasRead first before after) (disjoint : first.Disjoint rest) :
    before.page (first ++ rest) = before.page first ++ after.page rest := by
  unfold page
  rw [List.filterMap_append]
  congr 1
  · apply List.filterMap_congr
    exact fun _ inFirst => read.shown?_append_of_mem_first disjoint inFirst
  · apply List.filterMap_congr
    exact fun _ inRest => read.shown?_append_of_mem_rest disjoint inRest

theorem omitted_append (read : HasRead first before after) (disjoint : first.Disjoint rest) :
    before.omitted (first ++ rest) = before.omitted first + after.omitted rest := by
  unfold omitted
  rw [List.countP_append]
  congr 1
  · apply List.countP_congr
    intro tokenId inFirst
    rw [read.shown?_append_of_mem_first disjoint inFirst]
  · apply List.countP_congr
    intro tokenId inRest
    rw [read.shown?_append_of_mem_rest disjoint inRest]

end HasRead

theorem page_singleton (before : Deployment) (tokenId : String) :
    before.page [tokenId] = (before.shown? [tokenId] tokenId).toList := by
  unfold page
  cases shown : before.shown? [tokenId] tokenId with
  | none => rw [List.filterMap_cons_none shown]; rfl
  | some entry => rw [List.filterMap_cons_some shown]; rfl

theorem omitted_singleton (before : Deployment) (tokenId : String) :
    before.omitted [tokenId] =
      if (before.shown? [tokenId] tokenId).isNone then 1 else 0 := by
  unfold omitted
  rw [List.countP_singleton]

end Deployment

namespace Operation

open Deployment

theorem exists_runOn_readStatistics (tokenId : String) (before : Deployment) :
    ∃ outcome : Except StatsError CollectionStatistics, (readStatistics tokenId).runOn before =
        (outcome.mapError Failure.error, before.afterRequest (statisticsRead tokenId)) ∧
      outcome.toOption =
        if before.isStruckBy (statisticsRead tokenId) then none
        else before.statistics? tokenId := by
  have ran := runOn_readStatistics tokenId before
  unfold statistics?
  cases struck : before.isStruckBy (statisticsRead tokenId) with
  | true =>
      rw [statisticsRead] at struck
      rw [if_pos struck] at ran
      exact ⟨.error _, ran, rfl⟩
  | false =>
      rw [statisticsRead] at struck
      rw [if_neg (by rw [struck]; decide)] at ran
      cases present : before.statisticsText? before.now tokenId with
      | none =>
          rw [present] at ran
          exact ⟨.error _, ran, rfl⟩
      | some written =>
          rw [present] at ran
          dsimp only at ran
          cases decoded : Json.decode? CollectionStatistics.ofJson? (Text.ofString written) with
          | none =>
              rw [decoded] at ran
              exact ⟨.error _, ran, decoded.symm⟩
          | some statistics =>
              rw [decoded] at ran
              exact ⟨.ok statistics, ran, decoded.symm⟩

/-- The line of a member is read, or it is not, and nothing is counted yet. -/
theorem exists_runOn_readEntry (tokenId : String) (before : Deployment) :
    ∃ outcome after, (attempt (readEntry tokenId)).runOn before = (.ok outcome, after) ∧
      outcome.toOption = before.shown? [tokenId] tokenId ∧
      after.counters = before.counters ∧ HasRead [tokenId] before after := by
  have keepsLines : Within SameLines (attempt (readEntry tokenId)) :=
    composes_sameLines.attempt
      (composes_sameLines.readEntry (fun _ => trivial) (fun _ _ _ => rfl) tokenId)
  -- A copy of the mapping may have been kept, which no later line notices.
  let middle : Deployment :=
    { before with registry := (before.registry.lookup before.now tokenId).2 }
  have looked : (lookup tokenId).runOn before =
      ((before.registry.lookup before.now tokenId).1.mapError Failure.error, middle) :=
    runOn_useRegistry _ before
  have sameLines : SameLines before middle :=
    (composes_sameLines.lookup trivial).of_ran looked
  cases found : (before.registry.lookup before.now tokenId).1 with
  | error cause =>
      have unmapped : before.mapping? tokenId = none := by
        rw [mapping?, found]
        rfl
      rw [found] at looked
      have failed : (readEntry tokenId).runOn before = (.error (.error cause), middle) :=
        runOn_bind_of_error looked
      have ran := runOn_attempt_of_error failed
      refine ⟨_, _, ran, ?_, rfl, keepsLines.of_ran ran, ?_⟩
      · rw [shown?_singleton, line?_of_unmapped unmapped, ite_self]
        rfl
      · rw [mapped_singleton, unmapped]
        rfl
  | ok info =>
      have isMapped : before.mapping? tokenId = some info := by
        rw [mapping?, found]
        rfl
      have takesUp : (middle.afterRequest (statisticsRead tokenId)).outages =
          Outage.leftBy before.outages ((before.mapped [tokenId]).map statisticsRead) := by
        rw [mapped_singleton, isMapped]
        rfl
      rw [found] at looked
      have reads : (readEntry tokenId).runOn before = _ := runOn_bind_of_ok looked
      obtain ⟨outcome, read, outcome_eq⟩ := exists_runOn_readStatistics tokenId middle
      have shown : before.shown? [tokenId] tokenId = outcome.toOption.map fun statistics =>
          { tokenId := info.tokenId
            collectionId := info.collectionId
            name := info.name
            statistics } := by
        rw [shown?_singleton, line?, isMapped, outcome_eq, sameLines.statistics?_eq]
        change _ = Option.map _ (if before.isStruckBy (statisticsRead tokenId) then _ else _)
        split
        · rfl
        · rfl
      rw [shown]
      cases outcome with
      | error cause =>
          rw [runOn_bind_of_error read] at reads
          have ran := runOn_attempt_of_error reads
          exact ⟨_, _, ran, rfl, rfl, keepsLines.of_ran ran, takesUp⟩
      | ok statistics =>
          rw [runOn_bind_of_ok read] at reads
          have ran := runOn_attempt_of_ok reads
          exact ⟨_, _, ran, rfl, rfl, keepsLines.of_ran ran, takesUp⟩

/-- Reading the lines of members lists what is shown of them, and counts the
others. -/
theorem exists_runOn_readEntries {members : List String} (nodup : members.Nodup)
    (before : Deployment) :
    ∃ after, (readEntries members).runOn before = (.ok (before.page members), after) ∧
      after.counters = before.counters.withSkipped (before.omitted members) ∧
      HasRead members before after := by
  -- Every line takes up the outages that it meets, so the deployment is general.
  induction members generalizing before with
  | nil => exact ⟨before, rfl, rfl, .nothing before⟩
  | cons tokenId rest ih =>
      obtain ⟨notInRest, nodupRest⟩ := List.nodup_cons.mp nodup
      have disjoint : [tokenId].Disjoint rest := List.singleton_disjoint.mpr notInRest
      obtain ⟨outcome, middle, ran, shown, counted, read⟩ := exists_runOn_readEntry tokenId before
      unfold readEntries
      rw [runOn_bind_of_ok ran, ← List.singleton_append]
      cases outcome with
      | ok entry =>
          obtain ⟨after, ranRest, countedRest, readRest⟩ := ih nodupRest middle
          refine ⟨after, ?_, ?_, read.append readRest⟩
          · rw [read.page_append disjoint, page_singleton, ← shown]
            exact runOn_bind_of_ok ranRest
          · rw [countedRest, counted, read.omitted_append disjoint, omitted_singleton, ← shown]
            exact congrArg before.counters.withSkipped (Nat.zero_add _).symm
      | error cause =>
          let skipped : Deployment := { middle with counters := middle.counters.withSkipped 1 }
          have readSkipped : HasRead [tokenId] before skipped := read.count _
          obtain ⟨after, ranRest, countedRest, readRest⟩ := ih nodupRest skipped
          refine ⟨after, ?_, ?_, readSkipped.append readRest⟩
          · rw [readSkipped.page_append disjoint, page_singleton, ← shown]
            exact (runOn_bind_of_ok (runOn_count _ _)).trans ranRest
          · rw [countedRest, readSkipped.omitted_append disjoint, omitted_singleton, ← shown]
            change (middle.counters.withSkipped 1).withSkipped _ = _
            rw [counted, Counters.withSkipped_withSkipped]
            rfl

theorem runOn_leaderboard_of_unnamed {request : String}
    (unnamed : ∀ dimension : LeaderboardDimension,
      LeaderboardDimension.lowerCase request ≠ dimension.name)
    (first last : Int) (descending : Bool) (before : Deployment) :
    (leaderboard request first last descending).runOn before =
      (.error (.error (.invalidDimension request)), before) := by
  unfold leaderboard
  rw [LeaderboardDimension.ofRequest?_eq_none unnamed]
  rfl

section Named

variable {request : String} {dimension : LeaderboardDimension}
variable (named : LeaderboardDimension.lowerCase request = dimension.name)
variable {first last : Int} {descending : Bool} {before : Deployment}

include named

theorem runOn_leaderboard_of_struck
    (struck : before.isStruckBy (rankingRead dimension first last descending) = true) :
    (leaderboard request first last descending).runOn before =
      (.error (.error (Endpoint.outageError .ranked)),
        before.afterRequest (rankingRead dimension first last descending)) := by
  unfold rankingRead at struck
  unfold leaderboard
  rw [LeaderboardDimension.ofRequest?_eq_some_iff.mpr named]
  apply runOn_bind_of_error
  rw [runOn_askShared, if_pos struck]
  rfl

theorem exists_runOn_leaderboard
    (reached : before.isStruckBy (rankingRead dimension first last descending) = false) :
    ∃ after, (leaderboard request first last descending).runOn before =
        (.ok ((before.afterRequest (rankingRead dimension first last descending)).page
          (before.members dimension first last descending)), after) ∧
      after.counters = before.counters.withSkipped
        ((before.afterRequest (rankingRead dimension first last descending)).omitted
          (before.members dimension first last descending)) ∧
      HasRead (before.members dimension first last descending)
        (before.afterRequest (rankingRead dimension first last descending)) after := by
  have ranked : (askShared (.ranked (leaderboardKey dimension) first last descending)).runOn
      before = (.ok (before.members dimension first last descending),
        before.afterRequest (rankingRead dimension first last descending)) := by
    unfold rankingRead at reached
    rw [runOn_askShared, if_neg (by rw [reached]; decide)]
    rfl
  obtain ⟨after, ran, counted, read⟩ := exists_runOn_readEntries
    (Rankings.nodup_range : (before.members dimension first last descending).Nodup)
    (before.afterRequest (rankingRead dimension first last descending))
  refine ⟨after, ?_, counted, read⟩
  unfold leaderboard
  rw [LeaderboardDimension.ofRequest?_eq_some_iff.mpr named]
  exact (runOn_bind_of_ok ranked).trans ran

end Named

end Operation

namespace Deployment

open Operation

theorem members_page (before : Deployment) (dimension : LeaderboardDimension) (start : Nat)
    {size : Nat} (nonempty : 0 < size) (descending : Bool) :
    before.members dimension start (start + size - 1) descending =
      ((before.members dimension 0 (-1) descending).drop start).take size := by
  unfold members Rankings.range
  rw [selectRanks_page _ _ nonempty, selectRanks_all]

theorem map_fst_filter_zip_map (tokenIds : List String) (fails : String → Bool) :
    ((tokenIds.zip (tokenIds.map fails)).filter Prod.snd).map Prod.fst =
      tokenIds.filter fails := by
  induction tokenIds with
  | nil => rfl
  | cons tokenId rest ih =>
      rw [List.map_cons, List.zip_cons_cons]
      cases failed : fails tokenId with
      | true => simp [failed, ih]
      | false => simp [failed, ih]

/-- Whichever statistics are to be out of reach, there are outages that leave
the ranking within reach and only them out of reach. -/
theorem exists_outages (deployment : Deployment) (ranking : Request) (members : List String)
    (fails : String → Bool) :
    ∃ outages, { deployment with outages }.isStruckBy ranking = false ∧
      ({ deployment with outages }.afterRequest ranking).page members =
        members.filterMap fun tokenId =>
          if fails tokenId then none else deployment.line? tokenId := by
  let asked := deployment.mapped members
  -- The plan starts with the request for the ranking, which passes.
  obtain ⟨outages, asPlanned⟩ := Outage.exists_failures_eq
    ((ranking, false) :: asked.map fun tokenId => (statisticsRead tokenId, fails tokenId))
  rw [List.map_cons, List.map_cons, List.map_map, List.map_map, Outage.failures,
    List.cons.injEq] at asPlanned
  obtain ⟨passes, planned⟩ := asPlanned
  let ranked := { deployment with outages }.afterRequest ranking
  change Outage.failures ranked.outages (asked.map statisticsRead) = asked.map fails at planned
  have sameLines : SameLines deployment ranked := .of_registry_eq rfl rfl rfl
  have unreached : ranked.unreached members = asked.filter fails := by
    rw [Deployment.unreached, sameLines.mapped_eq, planned, map_fst_filter_zip_map]
  refine ⟨outages, passes, ?_⟩
  apply List.filterMap_congr
  intro tokenId listed
  change ranked.shown? members tokenId = _
  rw [shown?, unreached, sameLines.line?_eq]
  cases failed : fails tokenId with
  | false => simp [failed]
  | true =>
      cases found : deployment.mapping? tokenId with
      | none => simp [line?_of_unmapped found]
      | some info => simp [asked, mapped, listed, found, failed]

/-- Any mappings may be missing, and any statistics may be out of reach. -/
theorem exists_registry_outages (deployment : Deployment) (ranking : Request)
    (members : List String) (unmapped unreached : String → Bool) :
    ∃ registry outages, { deployment with registry, outages }.isStruckBy ranking = false ∧
      ({ deployment with registry, outages }.afterRequest ranking).page members =
        members.filterMap fun tokenId =>
          if unmapped tokenId || unreached tokenId then none else deployment.line? tokenId := by
  obtain ⟨registry, lookup_eq⟩ := Registry.exists_lookup_eq
    (fun tokenId => if unmapped tokenId then none else deployment.mapping? tokenId) members
  obtain ⟨outages, reached, listed⟩ :=
    exists_outages { deployment with registry } ranking members unreached
  refine ⟨registry, outages, reached, listed.trans ?_⟩
  apply List.filterMap_congr
  intro tokenId isMember
  have mapping?_eq : { deployment with registry }.mapping? tokenId =
      if unmapped tokenId then none else deployment.mapping? tokenId :=
    lookup_eq deployment.now tokenId isMember
  cases missing : unmapped tokenId with
  | true =>
      rw [missing, if_pos rfl] at mapping?_eq
      simp [line?_of_unmapped mapping?_eq]
  | false =>
      rw [missing, if_neg Bool.false_ne_true] at mapping?_eq
      rw [line?, mapping?_eq, Bool.false_or]
      rfl

/-- The requests that are made to put a page together. -/
def IsRead : Request → Prop
  | .shared (.get _) => True
  | .shared (.ranked _ _ _ _) => True
  | _ => False

/-- Whatever is read from now on, no read meets an outage. -/
def ReadsPass (deployment : Deployment) : Prop :=
  ∀ requests, (∀ request ∈ requests, IsRead request) →
    ∀ failed ∈ Outage.failures deployment.outages requests, failed = false

namespace ReadsPass

variable {before after : Deployment}

theorem isStruckBy_eq_false (pass : ReadsPass before) {request : Request}
    (isRead : IsRead request) : before.isStruckBy request = false :=
  pass [request] (List.forall_mem_singleton.mpr isRead) _ List.mem_cons_self

theorem behind (pass : ReadsPass before) {requests : List Request}
    (areReads : ∀ request ∈ requests, IsRead request)
    (outages : after.outages = Outage.leftBy before.outages requests) : ReadsPass after := by
  intro later laterReads failed met
  rw [outages] at met
  have allReads : ∀ request ∈ requests ++ later, IsRead request := by
    intro request listed
    rcases List.mem_append.mp listed with earlier | behind
    · exact areReads request earlier
    · exact laterReads request behind
  apply pass (requests ++ later) allReads failed
  rw [Outage.failures_append]
  exact List.mem_append_right _ met

theorem isRead_of_mem_map_statisticsRead {tokenIds : List String} :
    ∀ request ∈ tokenIds.map statisticsRead, IsRead request := by
  intro request listed
  obtain ⟨tokenId, -, rfl⟩ := List.mem_map.mp listed
  exact trivial

theorem of_no_outages (clear : before.outages = []) : ReadsPass before := by
  intro requests areReads failed met
  rw [clear] at met
  induction requests with
  | nil => cases met
  | cons request rest ih =>
      obtain ⟨-, restAreReads⟩ := List.forall_mem_cons.mp areReads
      rcases List.mem_cons.mp met with first | later
      · exact first
      · exact ih restAreReads later

theorem unreached_eq_nil (pass : ReadsPass before) (members : List String) :
    before.unreached members = [] := by
  have noneFails : ∀ pair ∈ (before.mapped members).zip (Outage.failures before.outages
      ((before.mapped members).map statisticsRead)), ¬pair.2 = true := by
    intro pair paired
    rw [pass _ isRead_of_mem_map_statisticsRead _ (List.of_mem_zip paired).2]
    exact Bool.false_ne_true
  rw [unreached, List.filter_eq_nil_iff.mpr noneFails, List.map_nil]

/-- Without failing reads every member that has a line is shown. -/
theorem page_eq (pass : ReadsPass before) (members : List String) :
    before.page members = members.filterMap before.line? := by
  unfold page
  apply List.filterMap_congr
  intro tokenId _
  rw [shown?, pass.unreached_eq_nil, if_neg List.not_mem_nil]

end ReadsPass

end Deployment

namespace Operation

open Deployment

/-- Some pages of a leaderboard that follow each other. -/
def pages (request : String) (size : Nat) (descending : Bool) :
    Nat → Nat → Operation (List LeaderboardEntry)
  | _, 0 => pure []
  | start, count + 1 => do
      let page ← leaderboard request start (start + size - 1) descending
      let rest ← pages request size descending (start + size) count
      pure (page ++ rest)

section Named

variable {request : String} {dimension : LeaderboardDimension}
variable (named : LeaderboardDimension.lowerCase request = dimension.name)
variable {descending : Bool} {before : Deployment} (pass : ReadsPass before)

include named pass

/-- Without failing reads a page shows the lines of its members, and the next
one can be read in the same way. -/
theorem exists_runOn_leaderboard_of_readsPass (first last : Int) (descending : Bool) :
    ∃ after, (leaderboard request first last descending).runOn before =
        (.ok ((before.members dimension first last descending).filterMap before.line?), after) ∧
      ReadsPass after ∧ SameLines before after := by
  let ranking := rankingRead dimension first last descending
  have isRead : IsRead ranking := trivial
  have sameLines : SameLines before (before.afterRequest ranking) := .of_registry_eq rfl rfl rfl
  have passRanked : ReadsPass (before.afterRequest ranking) :=
    pass.behind (List.forall_mem_singleton.mpr isRead) rfl
  obtain ⟨after, ran, -, read⟩ :=
    exists_runOn_leaderboard named (pass.isStruckBy_eq_false isRead)
  have linesEq : (before.afterRequest ranking).line? = before.line? := funext sameLines.line?_eq
  rw [passRanked.page_eq, linesEq] at ran
  exact ⟨after, ran,
    passRanked.behind ReadsPass.isRead_of_mem_map_statisticsRead read.outages,
    chains_sameLines.trans sameLines read.sameLines⟩

/-- Pages that follow each other list what one page with all their ranks
lists. -/
theorem runOn_pages {size : Nat} (nonempty : 0 < size) (start count : Nat) :
    ((pages request size descending start count).runOn before).1 =
      .ok ((((before.members dimension 0 (-1) descending).drop start).take
        (count * size)).filterMap before.line?) := by
  induction count generalizing start before with
  | zero =>
      rw [Nat.zero_mul, List.take_zero]
      rfl
  | succ count ih =>
      obtain ⟨middle, ran, passNext, sameLines⟩ :=
        exists_runOn_leaderboard_of_readsPass named pass start (start + size - 1) descending
      have ranRest := ih passNext (start + size)
      rcases outcome : (pages request size descending (start + size) count).runOn middle with
        ⟨result, after⟩
      rw [outcome, sameLines.members_eq, funext sameLines.line?_eq] at ranRest
      cases ranRest
      unfold pages
      rw [runOn_bind_of_ok ran, runOn_bind_of_ok outcome, members_page _ _ _ nonempty _,
        Nat.succ_mul, Nat.add_comm (count * size), List.take_add, List.drop_drop,
        List.filterMap_append]
      rfl

end Named

end Operation

namespace Deployment

open Operation

theorem length_page_add_omitted (deployment : Deployment) (members : List String) :
    (deployment.page members).length + deployment.omitted members = members.length := by
  unfold page omitted
  rw [List.length_filterMap_eq_countP, List.length_eq_countP_add_countP
    (fun tokenId => (deployment.shown? members tokenId).isSome) (l := members)]
  congr 2
  funext tokenId
  cases deployment.shown? members tokenId with
  | none => rfl
  | some entry => rfl

/-- A page along a dimension fails only if its ranking is out of reach.
Otherwise it shows the members at its ranks, in the order of their ranks, but for
those without a mapping or without statistics that can be read, which are
counted.  Any of them may be without either. -/
structure DegradesByOmission (deployment : Deployment) (request : String)
    (dimension : LeaderboardDimension) (first last : Int) (descending : Bool) : Prop where
  unranked : deployment.isStruckBy (rankingRead dimension first last descending) = true →
    (leaderboard request first last descending).runOn deployment =
      (.error (.error (Endpoint.outageError .ranked)),
        deployment.afterRequest (rankingRead dimension first last descending))
  ranked : deployment.isStruckBy (rankingRead dimension first last descending) = false →
    ∃ entries after,
      (leaderboard request first last descending).runOn deployment = (.ok entries, after) ∧
      entries = (deployment.afterRequest (rankingRead dimension first last descending)).page
        (deployment.members dimension first last descending) ∧
      after.counters = deployment.counters.withSkipped
        ((deployment.members dimension first last descending).length - entries.length)
  anyFailures : ∀ unmapped unreached : String → Bool, ∃ registry outages,
    ((leaderboard request first last descending).runOn
      { deployment with registry, outages }).1 =
        .ok ((deployment.members dimension first last descending).filterMap fun tokenId =>
          if unmapped tokenId || unreached tokenId then none else deployment.line? tokenId)

/-- The pages along a dimension that follow each other, up to the end, list what
one page with all ranks lists: the line of every member that has one, once. -/
structure TilesRanking (deployment : Deployment) (request : String)
    (dimension : LeaderboardDimension) (descending : Bool) : Prop where
  nodup : (deployment.members dimension 0 (-1) descending).Nodup
  listed : ((leaderboard request 0 (-1) descending).runOn deployment).1 =
    .ok ((deployment.members dimension 0 (-1) descending).filterMap deployment.line?)
  tiled : ∀ size count, 0 < size →
    (deployment.members dimension 0 (-1) descending).length ≤ count * size →
      ((pages request size descending 0 count).runOn deployment).1 =
        ((leaderboard request 0 (-1) descending).runOn deployment).1

/-- A request that names no dimension fails and reads nothing.  Pages along a
dimension degrade by omission only, and they tile the ranking as long as no read
fails. -/
theorem leaderboard_degrades_by_omission_and_tiles (deployment : Deployment) (request : String)
    (descending : Bool) :
    ((∀ dimension : LeaderboardDimension,
        LeaderboardDimension.lowerCase request ≠ dimension.name) →
      ∀ first last, (leaderboard request first last descending).runOn deployment =
        (.error (.error (.invalidDimension request)), deployment)) ∧
      ∀ dimension : LeaderboardDimension,
        LeaderboardDimension.lowerCase request = dimension.name →
          (∀ first last,
            deployment.DegradesByOmission request dimension first last descending) ∧
          (deployment.ReadsPass → deployment.TilesRanking request dimension descending) := by
  constructor
  · intro unnamed first last
    exact runOn_leaderboard_of_unnamed unnamed first last descending deployment
  intro dimension named
  constructor
  · intro first last
    constructor
    case unranked => exact runOn_leaderboard_of_struck named
    case ranked =>
      intro reached
      obtain ⟨after, ran, counted, -⟩ := exists_runOn_leaderboard named reached
      refine ⟨_, after, ran, rfl, ?_⟩
      rw [counted, ← length_page_add_omitted
        (deployment.afterRequest (rankingRead dimension first last descending)),
        Nat.add_sub_cancel_left]
    case anyFailures =>
      intro unmapped unreached
      obtain ⟨registry, outages, reached, listed⟩ := deployment.exists_registry_outages
        (rankingRead dimension first last descending)
        (deployment.members dimension first last descending) unmapped unreached
      obtain ⟨after, ran, -⟩ := exists_runOn_leaderboard named reached
      refine ⟨registry, outages, ?_⟩
      rw [ran, ← listed]
      rfl
  · intro pass
    obtain ⟨after, ran, -⟩ :=
      exists_runOn_leaderboard_of_readsPass named pass 0 (-1) descending
    constructor
    case nodup => exact Rankings.nodup_range
    case listed => rw [ran]
    case tiled =>
      intro size count nonempty covers
      rw [runOn_pages named pass nonempty, ran, List.drop_zero, List.take_of_length_le covers]

/-- Of three collections that have statistics the first one was invalidated, and
the statistics of the last one are out of reach once. -/
def withOmissions : Deployment :=
  (ServiceHistory.ofEvents .quarterHour (.empty 0 30 1048576 3600 none)
    [.register { tokenId := "ALPHA", collectionId := 1, name := "Alpha" },
      .register { tokenId := "BETA", collectionId := 2, name := "Beta" },
      .register { tokenId := "GAMMA", collectionId := 3, name := "Gamma" },
      .getStatistics "ALPHA", .getStatistics "BETA", .getStatistics "GAMMA",
      .invalidate "ALPHA",
      .meet [{ endpoint := .get, labelStart := "stats:collection:G", skip := 0,
               remaining := some 1 }]]).current

/-- The same deployment when nothing is out of reach. -/
def withinReach : Deployment :=
  { withOmissions with outages := [] }

theorem members_withOmissions :
    withOmissions.members .volume 0 (-1) true = ["GAMMA", "BETA", "ALPHA"] := by
  unfold members Rankings.range Ranking.listed
  rw [if_pos rfl, Ranking.ascending_of_pairwise (by decide +kernel), selectRanks_all]
  decide +kernel

theorem leaderboard_degrades_by_omission_and_tiles_withOmissions :
    (leaderboard "price" 0 9 true).runOn withOmissions =
        (.error (.error (.invalidDimension "price")), withOmissions) ∧
      (∃ entries after,
        (leaderboard "Volume" 0 (-1) true).runOn withOmissions = (.ok entries, after) ∧
        entries.map LeaderboardEntry.tokenId = ["BETA"] ∧
        after.counters.entriesSkipped = 2) ∧
      ∃ entries,
        ((leaderboard "Volume" 0 (-1) true).runOn withinReach).1 = .ok entries ∧
        entries.map LeaderboardEntry.tokenId = ["GAMMA", "BETA"] ∧
        ((pages "Volume" 2 true 0 2).runOn withinReach).1 = .ok entries := by
  have noDimension : ∀ dimension : LeaderboardDimension,
      LeaderboardDimension.lowerCase "price" ≠ dimension.name := by
    rintro (_ | _ | _ | _) <;> decide
  have isVolume : LeaderboardDimension.lowerCase "Volume" = LeaderboardDimension.volume.name := by
    decide
  obtain ⟨unnamed, -⟩ := leaderboard_degrades_by_omission_and_tiles withOmissions "price" true
  obtain ⟨-, named⟩ := leaderboard_degrades_by_omission_and_tiles withOmissions "Volume" true
  obtain ⟨-, namedWithout⟩ :=
    leaderboard_degrades_by_omission_and_tiles withinReach "Volume" true
  obtain ⟨entries, after, ran, entries_eq, counted⟩ :=
    ((named .volume isVolume).1 0 (-1)).ranked (by decide +kernel)
  have tiles := (namedWithout .volume isVolume).2 (.of_no_outages rfl)
  have membersWithout : withinReach.members .volume 0 (-1) true = ["GAMMA", "BETA", "ALPHA"] := by
    have sameLines : SameLines withOmissions withinReach := .of_outages withOmissions []
    rw [sameLines.members_eq, members_withOmissions]
  have listed := tiles.listed
  rw [membersWithout] at listed
  rw [members_withOmissions] at entries_eq counted
  have shown : entries.map LeaderboardEntry.tokenId = ["BETA"] := by
    rw [entries_eq]
    decide +kernel
  have count : entries.length = 1 := by
    rw [← List.length_map LeaderboardEntry.tokenId, shown]
    rfl
  refine ⟨unnamed noDimension 0 9, ⟨entries, after, ran, shown, ?_⟩, _, listed, ?_, ?_⟩
  · rw [counted, count]
    decide +kernel
  · decide +kernel
  · rw [tiles.tiled 2 2 (by decide) (by rw [membersWithout]; decide), listed]

end Deployment

end MarketStats

import MarketStats.Proofs.Registry.Mappings
import MarketStats.Proofs.Statistics.History

/-!
# The registry behind a history

Whatever happens to a deployment, its registry stands for some map of token
identifiers.  Only registrations and changes of names change the map; calls for
statistics and reads leave it and the marketplace store as they are.
-/

namespace MarketStats

namespace Deployment

/-- The clock and the marketplace store are the same, there are no outages if
there were none, and the registry stands for the same map. -/
structure KeepsServing (before after : Deployment) : Prop where
  now_eq : after.now = before.now
  market_eq : after.market = before.market
  clear : before.outages = [] → after.outages = []
  refines : ∀ mappings, before.registry.Refines mappings → after.registry.Refines mappings

end Deployment

namespace Operation

open Deployment

theorem chains_keepsServing : Chains KeepsServing where
  refl _ := ⟨rfl, rfl, id, fun _ => id⟩
  trans first second :=
    { now_eq := second.now_eq.trans first.now_eq
      market_eq := second.market_eq.trans first.market_eq
      clear := second.clear ∘ first.clear
      refines := fun mappings => second.refines mappings ∘ first.refines mappings }

/-- All requests but those that change the marketplace store. -/
def Serving : Request → Prop
  | .market request => request.Reads
  | .shared _ => True

theorem composes_keepsServing : Composes Serving (fun _ => True) (Within KeepsServing) := by
  refine chains_keepsServing.composes (fun _ _ => ⟨rfl, rfl, id, fun _ => id⟩) ?_ ?_ ?_
  · intro request reads deployment
    rcases runOn_askMarket_cases request deployment with ⟨_, ran⟩ | ⟨_, _, ran⟩
    · rw [ran]
      exact ⟨rfl, rfl, fun clear => outages_afterRequest_of_no_outages clear _, fun _ => id⟩
    · rw [ran]
      exact ⟨rfl, reads _ _, fun clear => outages_afterRequest_of_no_outages clear _, fun _ => id⟩
  · intro request _ deployment
    rcases runOn_askShared_cases request deployment with ⟨_, ran⟩ | ⟨_, ran⟩
    · rw [ran]
      exact ⟨rfl, rfl, fun clear => outages_afterRequest_of_no_outages clear _, fun _ => id⟩
    · rw [ran]
      exact ⟨rfl, rfl, fun clear => outages_afterRequest_of_no_outages clear _, fun _ => id⟩
  · intro tokenId _ deployment
    rw [lookup, runOn_useRegistry]
    exact ⟨rfl, rfl, id, fun _ refines => (refines.lookup deployment.now tokenId).2⟩

theorem keepsServing_collections : Within KeepsServing collections := by
  intro deployment
  rw [collections, runOn_useRegistry]
  exact ⟨rfl, rfl, id, fun _ => id⟩

theorem keepsServing_claim (settings : LeaseSettings) (tokenId : String) :
    Within KeepsServing (claim settings tokenId) :=
  composes_keepsServing.claim (fun _ _ => trivial) settings

theorem keepsServing_getStatistics (settings : LeaseSettings) (tokenId : String) :
    Within KeepsServing (getStatistics settings tokenId) :=
  composes_keepsServing.getStatistics (fun _ _ => trivial) settings (fun _ => id) trivial

theorem keepsServing_warm (settings : LeaseSettings) : Within KeepsServing (warm settings) := by
  refine composes_keepsServing.bind keepsServing_collections fun infos => ?_
  induction infos with
  | nil => exact composes_keepsServing.pure _
  | cons info rest ih =>
      exact composes_keepsServing.bind (keepsServing_getStatistics settings info.tokenId).attempt
        fun _ => composes_keepsServing.bind ih fun _ => composes_keepsServing.pure _

theorem keepsServing_leaderboard (request : String) (first last : Int) (descending : Bool) :
    Within KeepsServing (leaderboard request first last descending) :=
  composes_keepsServing.leaderboard (fun _ => trivial) (fun _ => trivial) request first last
    descending fun _ => trivial

end Operation

namespace Deployment

open Operation

/-- Whatever happens, the registry stands for a map. -/
theorem exists_refines_afterEvent {deployment : Deployment} {mappings : Mappings}
    (refines : deployment.registry.Refines mappings) (settings : LeaseSettings)
    (event : ServiceEvent) :
    ∃ later, (deployment.afterEvent settings event).registry.Refines later := by
  have served {α : Type} {operation : Operation α} (keeps : Within KeepsServing operation) :
      ∃ later, (deployment.after operation).registry.Refines later :=
    ⟨mappings, (keeps deployment).refines mappings refines⟩
  cases event with
  | register info =>
      refine ⟨(mappings.register info).2, ?_⟩
      rw [afterEvent, after, Operation.register, runOn_useRegistry]
      exact (refines.register info).2
  | rename tokenId name =>
      refine ⟨(mappings.rename tokenId name).2, ?_⟩
      rw [afterEvent, after, Operation.rename, runOn_useRegistry]
      exact (refines.rename tokenId name).2
  | lookup tokenId => exact served (composes_keepsServing.lookup trivial)
  | collections => exact served keepsServing_collections
  | getStatistics tokenId => exact served (keepsServing_getStatistics settings tokenId)
  | cachedStatistics tokenId => exact served (composes_keepsServing.cachedStatistics trivial)
  | warm => exact served (keepsServing_warm settings)
  | leaderboard request first last descending =>
      exact served (keepsServing_leaderboard request first last descending)
  | invalidate tokenId => exact served (composes_keepsServing.askShared trivial)
  | record transaction => exact ⟨mappings, refines⟩
  | addToken collectionId token => exact ⟨mappings, refines⟩
  | restart => exact ⟨mappings, refines.reopen⟩
  | wait span => exact ⟨mappings, refines⟩
  | meet outages => exact ⟨mappings, refines⟩
  | forget keys => exact ⟨mappings, refines.forget keys⟩

/-- No event but the coming of outages brings any. -/
theorem outages_afterEvent {deployment : Deployment} (clear : deployment.outages = [])
    (settings : LeaseSettings) {event : ServiceEvent}
    (noOutages : ∀ outages, event ≠ .meet outages) :
    (deployment.afterEvent settings event).outages = [] := by
  have served {α : Type} {operation : Operation α} (keeps : Within KeepsServing operation) :
      (deployment.after operation).outages = [] := (keeps deployment).clear clear
  cases event with
  | register info =>
      rw [afterEvent, after, Operation.register, runOn_useRegistry]
      exact clear
  | rename tokenId name =>
      rw [afterEvent, after, Operation.rename, runOn_useRegistry]
      exact clear
  | lookup tokenId => exact served (composes_keepsServing.lookup trivial)
  | collections => exact served keepsServing_collections
  | getStatistics tokenId => exact served (keepsServing_getStatistics settings tokenId)
  | cachedStatistics tokenId => exact served (composes_keepsServing.cachedStatistics trivial)
  | warm => exact served (keepsServing_warm settings)
  | leaderboard request first last descending =>
      exact served (keepsServing_leaderboard request first last descending)
  | invalidate tokenId => exact served (composes_keepsServing.askShared trivial)
  | record transaction => exact clear
  | addToken collectionId token => exact clear
  | restart => exact clear
  | wait span => exact clear
  | meet outages => exact absurd rfl (noOutages outages)
  | forget keys => exact clear

end Deployment

namespace ServiceHistory

/-- A history without the coming of outages ends without any. -/
theorem outages_ofEvents (settings : LeaseSettings) {start : Deployment}
    (clear : start.outages = []) {events : List ServiceEvent}
    (noOutages : ∀ outages, .meet outages ∉ events) :
    (ofEvents settings start events).current.outages = [] := by
  have preserved : ∀ history : ServiceHistory, history.current.outages = [] →
      (events.foldl (extend settings) history).current.outages = [] := by
    induction events with
    | nil => exact fun _ => id
    | cons event rest ih =>
        intro history clear
        refine ih (fun outages listed => noOutages outages (List.mem_cons_of_mem _ listed))
          (history.extend settings event) ?_
        refine Deployment.outages_afterEvent clear settings fun outages same => ?_
        exact noOutages outages (by rw [same]; exact List.mem_cons_self)
  exact preserved (ServiceHistory.start start) clear

theorem exists_refines_ofEvents (settings : LeaseSettings) {start : Deployment}
    {mappings : Mappings} (refines : start.registry.Refines mappings)
    (events : List ServiceEvent) :
    ∃ later, (ofEvents settings start events).current.registry.Refines later := by
  have preserved : ∀ history : ServiceHistory,
      (∃ known, history.current.registry.Refines known) →
        ∃ later, (events.foldl (extend settings) history).current.registry.Refines later := by
    induction events with
    | nil => exact fun _ => id
    | cons event rest ih =>
        rintro history ⟨known, refinesKnown⟩
        exact ih (history.extend settings event)
          (Deployment.exists_refines_afterEvent refinesKnown settings event)
  exact preserved (ServiceHistory.start start) ⟨mappings, refines⟩

end ServiceHistory

end MarketStats

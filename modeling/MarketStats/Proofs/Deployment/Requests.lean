import MarketStats.Proofs.Deployment.Outage
import MarketStats.Proofs.Deployment.Parts

/-!
# The requests that an operation makes

Every request leaves its traces in the journal and in the outages, whether or
not it fails, and nothing else does.  Which requests were made between two
deployments is therefore known from the two alone.  What becomes of a request
does not depend on earlier requests to other endpoints.
-/

namespace MarketStats

namespace Outage

/-- What some requests leave of outages. -/
def leftBy (outages : List Outage) (requests : List Request) : List Outage :=
  requests.foldl (fun left request => (strikeAll left request).2) outages

theorem leftBy_nil_outages (requests : List Request) : leftBy [] requests = [] := by
  induction requests with
  | nil => rfl
  | cons request rest ih => exact ih

/-- Later requests meet what the earlier ones leave. -/
theorem failures_append (outages : List Outage) (requests later : List Request) :
    failures outages (requests ++ later) =
      failures outages requests ++ failures (leftBy outages requests) later := by
  induction requests generalizing outages with
  | nil => rfl
  | cons request rest ih =>
      rw [List.cons_append, failures, failures, ih, List.cons_append]
      rfl

variable {first second : Request}

/-- An outage of one endpoint lets the requests to another one pass. -/
theorem strike_of_endpoint_ne {outage : Outage} (different : outage.endpoint ≠ second.endpoint) :
    outage.strike second = (false, outage) := by
  rw [strike, if_neg]
  simp [concerns, different]

theorem endpoint_strike (outage : Outage) (request : Request) :
    (outage.strike request).2.endpoint = outage.endpoint := by
  unfold strike
  split
  · split
    · rfl
    · split <;> rfl
  · rfl

/-- Whether a request fails does not depend on an earlier one to another
endpoint. -/
theorem strikeAll_strikeAll_of_endpoint_ne (different : first.endpoint ≠ second.endpoint)
    (outages : List Outage) :
    (strikeAll (strikeAll outages first).2 second).1 = (strikeAll outages second).1 := by
  induction outages with
  | nil => rfl
  | cons outage rest ih =>
      by_cases concerned : outage.endpoint = second.endpoint
      · have passes : outage.strike first = (false, outage) :=
          strike_of_endpoint_ne fun same => different (same.symm.trans concerned)
        simp only [strikeAll, passes]
        rcases outage.strike second with ⟨_ | _, left⟩
        · exact ih
        · rfl
      · have unconcerned : ∀ left : Outage, left.endpoint = outage.endpoint →
            left.strike second = (false, left) := by
          intro left same
          apply strike_of_endpoint_ne
          rw [same]
          exact concerned
        have sameEndpoint := outage.endpoint_strike first
        simp only [strikeAll, unconcerned outage rfl]
        rcases struck : outage.strike first with ⟨_ | _, left⟩
        · rw [struck] at sameEndpoint
          simp only [strikeAll, unconcerned left sameEndpoint]
          exact ih
        · rw [struck] at sameEndpoint
          simp only [strikeAll, unconcerned left sameEndpoint]

end Outage

namespace Deployment

theorem isStruckBy_afterRequest_of_endpoint_ne {first second : Request}
    (different : first.endpoint ≠ second.endpoint) (deployment : Deployment) :
    (deployment.afterRequest first).isStruckBy second = deployment.isStruckBy second :=
  Outage.strikeAll_strikeAll_of_endpoint_ne different deployment.outages

/-- Some requests, in their order, were made between two deployments. -/
structure Made (requests : List Request) (before after : Deployment) : Prop where
  journal : after.journal = requests.reverse ++ before.journal
  outages : after.outages = Outage.leftBy before.outages requests

/-- Only requests of one sort were made between two deployments. -/
def AsksOnly (allowed : Request → Prop) (before after : Deployment) : Prop :=
  ∃ requests, Made requests before after ∧ ∀ request ∈ requests, allowed request

namespace Made

variable {before middle after : Deployment} {requests later : List Request}

theorem nothing (deployment : Deployment) : Made [] deployment deployment :=
  ⟨rfl, rfl⟩

theorem one (deployment : Deployment) (request : Request) :
    Made [request] deployment (deployment.afterRequest request) :=
  ⟨rfl, rfl⟩

theorem append (first : Made requests before middle) (second : Made later middle after) :
    Made (requests ++ later) before after where
  journal := by
    rw [second.journal, first.journal, List.reverse_append, List.append_assoc]
  outages := by
    rw [second.outages, first.outages]
    exact List.foldl_append.symm

/-- Without outages there are none later. -/
theorem outages_eq_nil (made : Made requests before after) (clear : before.outages = []) :
    after.outages = [] := by
  rw [made.outages, clear, Outage.leftBy_nil_outages]

end Made

end Deployment

namespace Operation

open Deployment

variable {allowed : Request → Prop}

theorem chains_asksOnly (allowed : Request → Prop) : Chains (AsksOnly allowed) where
  refl deployment := ⟨[], .nothing deployment, List.forall_mem_nil _⟩
  trans := by
    rintro _ _ _ ⟨requests, made, areAllowed⟩ ⟨later, madeLater, areAllowedLater⟩
    refine ⟨requests ++ later, made.append madeLater, fun request member => ?_⟩
    rcases List.mem_append.mp member with inFirst | inSecond
    · exact areAllowed request inFirst
    · exact areAllowedLater request inSecond

theorem asksOnly_askShared {request : SharedRequest} (isAllowed : allowed (.shared request)) :
    Within (AsksOnly allowed) (askShared request) := by
  intro deployment
  refine ⟨[.shared request], ?_, List.forall_mem_singleton.mpr isAllowed⟩
  rcases runOn_askShared_cases request deployment with ⟨_, ran⟩ | ⟨_, ran⟩
  · rw [ran]
    exact .one deployment _
  · rw [ran]
    exact ⟨rfl, rfl⟩

theorem asksOnly_askMarket {request : MarketRequest} (isAllowed : allowed (.market request)) :
    Within (AsksOnly allowed) (askMarket request) := by
  intro deployment
  refine ⟨[.market request], ?_, List.forall_mem_singleton.mpr isAllowed⟩
  rcases runOn_askMarket_cases request deployment with ⟨_, ran⟩ | ⟨_, _, ran⟩
  · rw [ran]
    exact .one deployment _
  · rw [ran]
    exact ⟨rfl, rfl⟩

theorem composes_asksOnly (allowed : Request → Prop) :
    Composes allowed (fun _ => True) (Within (AsksOnly allowed)) := by
  refine (chains_asksOnly allowed).composes ?_ asksOnly_askMarket asksOnly_askShared fun _ => ?_
  · exact fun _ _ => ⟨[], ⟨rfl, rfl⟩, List.forall_mem_nil _⟩
  · intro deployment
    rw [lookup, runOn_useRegistry]
    exact ⟨[], ⟨rfl, rfl⟩, List.forall_mem_nil _⟩

end Operation

end MarketStats

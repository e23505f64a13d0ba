import MarketStats.Deployment.Outage

/-!
# Outages can strike anywhere

Outages are given by counts of requests, but they lack nothing: whichever of
some requests are to fail and whichever are to pass, there are outages that
have it so.  What holds whatever the outages are therefore holds wherever
failures occur.
-/

namespace MarketStats

namespace Outage

/-- Let requests meet outages one after the other: which of them fail. -/
def failures : List Outage → List Request → List Bool
  | _, [] => []
  | outages, request :: rest =>
      (strikeAll outages request).1 :: failures (strikeAll outages request).2 rest

theorem length_failures (outages : List Outage) (requests : List Request) :
    (failures outages requests).length = requests.length := by
  induction requests generalizing outages with
  | nil => rfl
  | cons request rest ih => rw [failures, List.length_cons, List.length_cons, ih]

def once (request : Request) : Outage :=
  { endpoint := request.endpoint, labelStart := "", skip := 0, remaining := some 1 }

/-- The outage with one request let pass in front. -/
def behind (request : Request) (outage : Outage) : Outage :=
  if outage.concerns request then { outage with skip := outage.skip + 1 } else outage

def spent (request : Request) : Outage :=
  { once request with remaining := some 0 }

theorem strike_once (request : Request) :
    (once request).strike request = (true, spent request) := by
  have concerned : (once request).concerns request = true := by
    simp [concerns, once]
  rw [strike, if_pos concerned]
  rfl

theorem strike_spent (request other : Request) :
    (spent request).strike other = (false, spent request) := by
  rw [strike]
  split
  · rfl
  · rfl

theorem strike_behind (request : Request) (outage : Outage) :
    (behind request outage).strike request = (false, outage) := by
  unfold behind
  by_cases concerned : outage.concerns request
  · have concernedBehind : { outage with skip := outage.skip + 1 }.concerns request = true :=
      concerned
    rw [if_pos concerned, strike, if_pos concernedBehind, if_pos (Nat.succ_pos _)]
    rfl
  · rw [if_neg concerned, strike, if_neg concerned]

theorem strikeAll_map_behind (request : Request) (outages : List Outage) :
    strikeAll (outages.map (behind request)) request = (false, outages) := by
  induction outages with
  | nil => rfl
  | cons outage rest ih => rw [List.map_cons, strikeAll, strike_behind, ih]

theorem failures_spent (request : Request) (outages : List Outage) (requests : List Request) :
    failures (spent request :: outages) requests = failures outages requests := by
  induction requests generalizing outages with
  | nil => rfl
  | cons other rest ih => rw [failures, failures, strikeAll, strike_spent, ih]

/-- Every pattern of failures comes from some outages. -/
theorem exists_failures_eq (plan : List (Request × Bool)) :
    ∃ outages, failures outages (plan.map Prod.fst) = plan.map Prod.snd := by
  induction plan with
  | nil => exact ⟨[], rfl⟩
  | cons planned rest ih =>
      obtain ⟨outages, asPlanned⟩ := ih
      obtain ⟨request, fails⟩ := planned
      cases fails with
      | true =>
          refine ⟨once request :: outages, ?_⟩
          rw [List.map_cons, List.map_cons, failures, strikeAll, strike_once, failures_spent,
            asPlanned]
      | false =>
          refine ⟨outages.map (behind request), ?_⟩
          rw [List.map_cons, List.map_cons, failures, strikeAll_map_behind, asPlanned]

end Outage

end MarketStats

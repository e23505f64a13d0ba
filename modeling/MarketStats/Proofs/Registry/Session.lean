import MarketStats.Proofs.Registry.Mappings

/-!
# What a registry answers over time

A registry is asked to set, rename, find and list mappings, in any order.
Between its answers its process may be started anew, time passes, and the local
tier drops copies as it likes.  What it answers is what the plain map answers,
and nothing of the rest is ever seen.
-/

namespace MarketStats

namespace Registry

/-- What happens to a registry. -/
inductive Event
  | register (info : CollectionInfo)
  | rename (tokenId name : String)
  | lookup (tokenId : String)
  | list
  | reopen
  | drop (keys : List String)
  | wait (span : Nat)

/-- What is heard of an event. -/
inductive Answer
  | mapping (result : Except StatsError CollectionInfo)
  | listing (result : Except StatsError (List CollectionInfo))
  | silence

def Answer.isError : Answer → Bool
  | .mapping (.error _) => true
  | .listing (.error _) => true
  | _ => false

theorem Answer.eq_error_of_isError {result : Except StatsError CollectionInfo}
    (failed : (mapping result).isError = true) : ∃ cause, result = .error cause := by
  cases result with
  | ok info => exact nomatch failed
  | error cause => exact ⟨cause, rfl⟩

/-- A registry and the moment at which it is asked next. -/
structure Session where
  registry : Registry
  now : Nat

namespace Session

/-- A registry over an empty side store, with a local tier of any size. -/
def fresh (budget defaultLifetime now : Nat) : Session :=
  { registry := { store := .empty, copies := .empty budget defaultLifetime }
    now }

def meet (session : Session) : Event → Answer × Session
  | .register info =>
      let (result, registry) := session.registry.register info
      (.mapping result, { session with registry })
  | .rename tokenId name =>
      let (result, registry) := session.registry.rename tokenId name
      (.mapping result, { session with registry })
  | .lookup tokenId =>
      let (result, registry) := session.registry.lookup session.now tokenId
      (.mapping result, { session with registry })
  | .list => (.listing session.registry.list, session)
  | .reopen => (.silence, { session with registry := session.registry.reopen })
  | .drop keys =>
      (.silence,
        { session with
          registry :=
            { session.registry with copies := session.registry.copies.removeAll keys } })
  | .wait span => (.silence, { session with now := session.now + span })

def after (session : Session) (events : List Event) : Session :=
  events.foldl (fun reached event => (reached.meet event).2) session

end Session

end Registry

namespace Mappings

/-- What the plain map makes of an event. -/
def meet (mappings : Mappings) : Registry.Event → Registry.Answer × Mappings
  | .register info =>
      let (result, changed) := mappings.register info
      (.mapping result, changed)
  | .rename tokenId name =>
      let (result, changed) := mappings.rename tokenId name
      (.mapping result, changed)
  | .lookup tokenId => (.mapping (mappings.lookup tokenId), mappings)
  | .list => (.listing (.ok mappings.list), mappings)
  | .reopen => (.silence, mappings)
  | .drop _ => (.silence, mappings)
  | .wait _ => (.silence, mappings)

def after (mappings : Mappings) (events : List Registry.Event) : Mappings :=
  events.foldl (fun reached event => (reached.meet event).2) mappings

theorem register_of_error {mappings : Mappings} {info : CollectionInfo} {cause : StatsError}
    (failed : (mappings.register info).1 = .error cause) :
    (mappings.register info).2 = mappings := by
  unfold register at failed ⊢
  split at failed <;> rename_i admissible
  · rw [if_pos admissible]
    cases found : mappings.find? info.tokenId with
    | none =>
        rw [found] at failed
        exact nomatch failed
    | some existing =>
        rw [found] at failed
        dsimp only at failed ⊢
        split at failed <;> rename_i sameCollection
        · exact nomatch failed
        · rw [if_neg sameCollection]
  · rw [if_neg admissible]

theorem rename_of_error {mappings : Mappings} {tokenId name : String} {cause : StatsError}
    (failed : (mappings.rename tokenId name).1 = .error cause) :
    (mappings.rename tokenId name).2 = mappings := by
  unfold rename at failed ⊢
  cases found : mappings.find? tokenId with
  | none => rfl
  | some existing =>
      rw [found] at failed
      exact register_of_error failed

theorem meet_of_isError {mappings : Mappings} {event : Registry.Event}
    (failed : (mappings.meet event).1.isError = true) : (mappings.meet event).2 = mappings := by
  cases event with
  | register info =>
      obtain ⟨cause, result⟩ := Registry.Answer.eq_error_of_isError failed
      exact register_of_error result
  | rename tokenId name =>
      obtain ⟨cause, result⟩ := Registry.Answer.eq_error_of_isError failed
      exact rename_of_error result
  | lookup tokenId => rfl
  | list => rfl
  | reopen => rfl
  | drop keys => rfl
  | wait span => rfl

end Mappings

namespace Registry

theorem register_of_error {registry : Registry} {info : CollectionInfo} {cause : StatsError}
    (failed : (registry.register info).1 = .error cause) :
    (registry.register info).2 = registry := by
  unfold register at failed ⊢
  split at failed <;> rename_i valid
  · rw [if_pos valid]
    cases found : registry.stored info.tokenId with
    | ok existing =>
        rw [found] at failed
        dsimp only at failed ⊢
        split at failed <;> rename_i otherCollection
        · rw [if_pos otherCollection]
        · split at failed
          · exact nomatch failed
          · exact nomatch failed
    | error missing =>
        rw [found] at failed
        dsimp only at failed ⊢
        split at failed <;> rename_i isNotFound
        · exact nomatch failed
        · rw [if_neg isNotFound]
  · rw [if_neg valid]

theorem rename_of_error {registry : Registry} {tokenId name : String} {cause : StatsError}
    (failed : (registry.rename tokenId name).1 = .error cause) :
    (registry.rename tokenId name).2 = registry := by
  unfold rename at failed ⊢
  cases found : registry.stored tokenId with
  | ok existing =>
      rw [found] at failed
      exact register_of_error failed
  | error missing => rfl

theorem lookup_of_error {registry : Registry} {now : Nat} {tokenId : String}
    {cause : StatsError} (failed : (registry.lookup now tokenId).1 = .error cause) :
    (registry.lookup now tokenId).2 = registry := by
  unfold lookup at failed ⊢
  cases copied : registry.copy? now tokenId with
  | some info => rfl
  | none =>
      rw [copied] at failed
      cases found : registry.stored tokenId with
      | ok info =>
          rw [found] at failed
          exact nomatch failed
      | error missing => rfl

namespace Session

theorem meet_of_isError {session : Session} {event : Event}
    (failed : (session.meet event).1.isError = true) : (session.meet event).2 = session := by
  cases event with
  | register info =>
      obtain ⟨cause, result⟩ := Answer.eq_error_of_isError failed
      exact congrArg (fun registry => { session with registry }) (register_of_error result)
  | rename tokenId name =>
      obtain ⟨cause, result⟩ := Answer.eq_error_of_isError failed
      exact congrArg (fun registry => { session with registry }) (rename_of_error result)
  | lookup tokenId =>
      obtain ⟨cause, result⟩ := Answer.eq_error_of_isError failed
      exact congrArg (fun registry => { session with registry }) (lookup_of_error result)
  | list => rfl
  | reopen => exact nomatch failed
  | drop keys => exact nomatch failed
  | wait span => exact nomatch failed

/-- An event is answered as by the map, and the registry stands for the map
again. -/
theorem meet_eq {session : Session} {mappings : Mappings}
    (refines : session.registry.Refines mappings) (event : Event) :
    (session.meet event).1 = (mappings.meet event).1 ∧
      (session.meet event).2.registry.Refines (mappings.meet event).2 := by
  cases event with
  | register info =>
      obtain ⟨sameResult, refinesNext⟩ := refines.register info
      exact ⟨congrArg Answer.mapping sameResult, refinesNext⟩
  | rename tokenId name =>
      obtain ⟨sameResult, refinesNext⟩ := refines.rename tokenId name
      exact ⟨congrArg Answer.mapping sameResult, refinesNext⟩
  | lookup tokenId =>
      obtain ⟨sameResult, refinesNext⟩ := refines.lookup session.now tokenId
      exact ⟨congrArg Answer.mapping sameResult, refinesNext⟩
  | list => exact ⟨congrArg Answer.listing refines.list, refines⟩
  | reopen => exact ⟨rfl, refines.reopen⟩
  | drop keys => exact ⟨rfl, refines.forget keys⟩
  | wait span => exact ⟨rfl, refines⟩

theorem refines_fresh (budget defaultLifetime now : Nat) :
    (fresh budget defaultLifetime now).registry.Refines .empty where
  stored := fun tokenId => by
    simp [fresh, SideStore.get?, SideStore.bucket, SideStore.empty, Mappings.empty,
      Mappings.find?]
  copied := fun tokenId entry found => by
    simp [fresh, LocalTier.empty] at found

theorem refines_after {session : Session} {mappings : Mappings}
    (refines : session.registry.Refines mappings) (events : List Event) :
    (session.after events).registry.Refines (mappings.after events) := by
  induction events generalizing session mappings with
  | nil => exact refines
  | cons event events ih => exact ih (meet_eq refines event).2

/-- A registry is a map to whoever asks it: it gives the answers of the map, an
error leaves everything as it is, and the list holds every mapping once, in the
order of the bytes of the token identifiers. -/
structure Follows (session : Session) (mappings : Mappings) : Prop where
  answer_eq : ∀ event, (session.meet event).1 = (mappings.meet event).1
  unchanged : ∀ event, (session.meet event).1.isError = true →
    (session.meet event).2 = session ∧ (mappings.meet event).2 = mappings
  listed : ∃ infos, session.registry.list = .ok infos ∧
    (∀ info, info ∈ infos ↔ mappings.find? info.tokenId = some info) ∧
      infos.Pairwise fun first second =>
        Text.bytes first.tokenId < Text.bytes second.tokenId

/-- Whatever happens to a registry over an empty side store, with a local tier
of any size and any lifetime of copies, it stays the map that the same events
make of the empty map. -/
theorem follows_after (budget defaultLifetime now : Nat) (events : List Event) :
    ((fresh budget defaultLifetime now).after events).Follows
      (Mappings.empty.after events) := by
  have refines := refines_after (refines_fresh budget defaultLifetime now) events
  refine ⟨fun event => (meet_eq refines event).1, fun event failed => ?_,
    _, refines.list, fun info => Mappings.mem_list_iff, Mappings.pairwise_list _⟩
  refine ⟨meet_of_isError failed, Mappings.meet_of_isError ?_⟩
  rw [← (meet_eq refines event).1]
  exact failed

end Session

end Registry

end MarketStats

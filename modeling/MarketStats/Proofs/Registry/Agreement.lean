import MarketStats.Proofs.Registry.Session

/-!
# Registries that cannot be told apart

What a registry answers about a token identifier depends on the side store and
on the local copy of this one mapping.  Two registries over the same side
store, with the same local copies, therefore give the same answers from now on,
whatever they are asked.
-/

namespace MarketStats

namespace LocalTier

variable {tier : LocalTier}

/-- A value that was put is not noticed under another key. -/
theorem getElem?_putChecked_of_ne {key other : String} (different : key ≠ other) (now : Nat)
    (value : String) (lifetime : Nat) :
    (tier.putChecked now key value lifetime).2.entries[other]? = tier.entries[other]? := by
  rw [putChecked_snd]
  split
  · rw [Std.TreeMap.getElem?_insert]
    simp only [Std.LawfulEqCmp.compare_eq_iff_eq, different, if_false]
  · rfl

theorem limits_putChecked (now : Nat) (key value : String) (lifetime : Nat) :
    (tier.putChecked now key value lifetime).2.budget = tier.budget ∧
      (tier.putChecked now key value lifetime).2.defaultLifetime = tier.defaultLifetime := by
  rw [putChecked_snd]
  split
  · exact ⟨rfl, rfl⟩
  · exact ⟨rfl, rfl⟩

/-- Whether a value is kept depends on the budget alone. -/
theorem getElem?_putChecked_congr {first second : LocalTier} {key : String}
    (sameBudget : second.budget = first.budget)
    (sameEntry : second.entries[key]? = first.entries[key]?) (now : Nat) (value : String)
    (lifetime : Nat) :
    (second.putChecked now key value lifetime).2.entries[key]? =
      (first.putChecked now key value lifetime).2.entries[key]? := by
  rw [putChecked_snd, putChecked_snd, sameBudget]
  split
  · rw [Std.TreeMap.getElem?_insert_self, Std.TreeMap.getElem?_insert_self]
  · exact sameEntry

theorem getElem?_removeAll (keys : List String) (other : String) :
    (tier.removeAll keys).entries[other]? =
      if other ∈ keys then none else tier.entries[other]? := by
  unfold removeAll
  induction keys generalizing tier with
  | nil => rfl
  | cons removed keys ih =>
      rw [List.foldl_cons, ih, getElem?_remove]
      by_cases same : removed = other
      · simp [same]
      · simp [same, Ne.symm same]

theorem limits_removeAll (keys : List String) :
    (tier.removeAll keys).budget = tier.budget ∧
      (tier.removeAll keys).defaultLifetime = tier.defaultLifetime := by
  unfold removeAll
  induction keys generalizing tier with
  | nil => exact ⟨rfl, rfl⟩
  | cons removed keys ih => exact ih

end LocalTier

namespace Registry

theorem copies_remember (registry : Registry) (now : Nat) (tokenId : String)
    (info : CollectionInfo) :
    (registry.remember now tokenId info).copies =
      (registry.copies.putChecked now (copyKey tokenId) info.toJson.toText
        registry.copies.defaultLifetime).2 := by
  rw [remember]

/-- Two registries agree on a token identifier: they have the same side store
and the same local copy of its mapping, within the same limits. -/
structure AgreesOn (tokenId : String) (first second : Registry) : Prop where
  store_eq : second.store = first.store
  copy_eq : second.copies.entries[copyKey tokenId]? = first.copies.entries[copyKey tokenId]?
  budget_eq : second.copies.budget = first.copies.budget
  lifetime_eq : second.copies.defaultLifetime = first.copies.defaultLifetime

namespace AgreesOn

variable {tokenId other : String} {first second third : Registry}

theorem refl (registry : Registry) : AgreesOn tokenId registry registry :=
  ⟨rfl, rfl, rfl, rfl⟩

theorem symm (agrees : AgreesOn tokenId first second) : AgreesOn tokenId second first where
  store_eq := agrees.store_eq.symm
  copy_eq := agrees.copy_eq.symm
  budget_eq := agrees.budget_eq.symm
  lifetime_eq := agrees.lifetime_eq.symm

theorem trans (agrees : AgreesOn tokenId first second)
    (agreesNext : AgreesOn tokenId second third) : AgreesOn tokenId first third where
  store_eq := agreesNext.store_eq.trans agrees.store_eq
  copy_eq := agreesNext.copy_eq.trans agrees.copy_eq
  budget_eq := agreesNext.budget_eq.trans agrees.budget_eq
  lifetime_eq := agreesNext.lifetime_eq.trans agrees.lifetime_eq

theorem stored_eq (agrees : AgreesOn tokenId first second) (other : String) :
    second.stored other = first.stored other := by
  rw [stored, agrees.store_eq]
  rfl

theorem list_eq (agrees : AgreesOn tokenId first second) : second.list = first.list := by
  rw [list, agrees.store_eq]
  rfl

theorem copy?_eq (agrees : AgreesOn tokenId first second) (now : Nat) :
    second.copy? now tokenId = first.copy? now tokenId := by
  unfold copy? LocalTier.get? LocalTier.live?
  rw [agrees.copy_eq]

/-- The local copy of one mapping is not noticed by the others. -/
theorem remember_of_ne (different : tokenId ≠ other) (registry : Registry) (now : Nat)
    (info : CollectionInfo) : AgreesOn other registry (registry.remember now tokenId info) where
  store_eq := registry.store_remember now tokenId info
  copy_eq := by
    rw [copies_remember, LocalTier.getElem?_putChecked_of_ne (mt copyKey_inj.mp different)]
  budget_eq := by rw [copies_remember, (LocalTier.limits_putChecked _ _ _ _).1]
  lifetime_eq := by rw [copies_remember, (LocalTier.limits_putChecked _ _ _ _).2]

theorem remember (agrees : AgreesOn tokenId first second) (now : Nat) (info : CollectionInfo) :
    AgreesOn tokenId (first.remember now tokenId info) (second.remember now tokenId info) where
  store_eq := by rw [store_remember, store_remember, agrees.store_eq]
  copy_eq := by
    rw [copies_remember, copies_remember, agrees.lifetime_eq]
    exact LocalTier.getElem?_putChecked_congr agrees.budget_eq agrees.copy_eq _ _ _
  budget_eq := by
    rw [copies_remember, copies_remember, (LocalTier.limits_putChecked _ _ _ _).1,
      (LocalTier.limits_putChecked _ _ _ _).1, agrees.budget_eq]
  lifetime_eq := by
    rw [copies_remember, copies_remember, (LocalTier.limits_putChecked _ _ _ _).2,
      (LocalTier.limits_putChecked _ _ _ _).2, agrees.lifetime_eq]

theorem lookup_of_ne (different : tokenId ≠ other) (registry : Registry) (now : Nat) :
    AgreesOn other registry (registry.lookup now tokenId).2 := by
  unfold lookup
  cases registry.copy? now tokenId with
  | some info => exact refl registry
  | none =>
      cases registry.stored tokenId with
      | ok info => exact remember_of_ne different registry now info
      | error cause => exact refl registry

theorem lookup (agrees : AgreesOn tokenId first second) (now : Nat) :
    (second.lookup now tokenId).1 = (first.lookup now tokenId).1 ∧
      AgreesOn tokenId (first.lookup now tokenId).2 (second.lookup now tokenId).2 := by
  unfold Registry.lookup
  rw [agrees.copy?_eq, agrees.stored_eq]
  cases first.copy? now tokenId with
  | some info => exact ⟨rfl, agrees⟩
  | none =>
      cases first.stored tokenId with
      | ok info => exact ⟨rfl, agrees.remember now info⟩
      | error cause => exact ⟨rfl, agrees⟩

end AgreesOn

/-- A mapping that was looked up is found in the same way again, whether or not a
copy of it was kept. -/
theorem lookup_behind_lookup_self (registry : Registry) (now : Nat) (tokenId : String) :
    ((registry.lookup now tokenId).2.lookup now tokenId).1 = (registry.lookup now tokenId).1 := by
  cases copied : registry.copy? now tokenId with
  | some info => simp [lookup, copied]
  | none =>
      cases found : registry.stored tokenId with
      | error cause => simp [lookup, copied, found]
      | ok info =>
          have behind : registry.lookup now tokenId =
              (.ok info, registry.remember now tokenId info) := by
            simp [lookup, copied, found]
          have stillStored : (registry.remember now tokenId info).stored tokenId = .ok info := by
            rw [stored, store_remember]
            exact found
          rw [behind, lookup, stillStored]
          -- The copy is read back as the mapping, or there is none.
          cases kept : (registry.remember now tokenId info).copy? now tokenId with
          | none => rfl
          | some other =>
              obtain ⟨written, live, decoded⟩ := Option.bind_eq_some_iff.mp kept
              obtain ⟨entry, present, rfl⟩ := Option.map_eq_some_iff.mp live
              obtain ⟨listed, lasts⟩ := Option.filter_eq_some_iff.mp present
              rw [copies_remember] at listed
              rcases LocalTier.getElem?_putChecked listed with before | ⟨-, isText⟩
              · have alreadyCopied : registry.copy? now tokenId = some other := by
                  rw [copy?, LocalTier.get?, LocalTier.live?, before, Option.filter_some,
                    if_pos lasts]
                  exact decoded
                rw [copied] at alreadyCopied
                cases alreadyCopied
              · rw [isText, info.decode?_toText] at decoded
                cases decoded
                rfl

/-- Looking up one mapping does not change what is found of any. -/
theorem lookup_behind_lookup (registry : Registry) (now : Nat) (tokenId other : String) :
    ((registry.lookup now tokenId).2.lookup now other).1 = (registry.lookup now other).1 := by
  by_cases same : tokenId = other
  · subst same
    exact registry.lookup_behind_lookup_self now tokenId
  · exact ((AgreesOn.lookup_of_ne same registry now).lookup now).1

/-- Two registries agree on every token identifier. -/
def Agrees (first second : Registry) : Prop :=
  ∀ tokenId, AgreesOn tokenId first second

namespace Agrees

variable {first second : Registry}

theorem lookup (agrees : first.Agrees second) (now : Nat) (tokenId : String) :
    (second.lookup now tokenId).1 = (first.lookup now tokenId).1 ∧
      (first.lookup now tokenId).2.Agrees (second.lookup now tokenId).2 := by
  obtain ⟨sameAnswer, agreesThere⟩ := (agrees tokenId).lookup now
  refine ⟨sameAnswer, fun other => ?_⟩
  by_cases same : tokenId = other
  · rw [← same]
    exact agreesThere
  · have firstLeft := AgreesOn.lookup_of_ne same first now
    have secondLeft := AgreesOn.lookup_of_ne same second now
    exact (firstLeft.symm.trans (agrees other)).trans secondLeft

theorem write (agrees : first.Agrees second) (info : CollectionInfo) :
    (first.write info).Agrees (second.write info) := fun tokenId =>
  { store_eq := by rw [Registry.write, Registry.write, (agrees tokenId).store_eq]
    copy_eq := by
      rw [Registry.write, Registry.write, LocalTier.getElem?_remove, LocalTier.getElem?_remove,
        (agrees tokenId).copy_eq]
    budget_eq := (agrees tokenId).budget_eq
    lifetime_eq := (agrees tokenId).lifetime_eq }

theorem register (agrees : first.Agrees second) (info : CollectionInfo) :
    (second.register info).1 = (first.register info).1 ∧
      (first.register info).2.Agrees (second.register info).2 := by
  unfold Registry.register
  rw [(agrees info.tokenId).stored_eq]
  split
  · cases first.stored info.tokenId with
    | ok existing =>
        dsimp only
        split
        · exact ⟨rfl, agrees⟩
        · split
          · exact ⟨rfl, agrees⟩
          · exact ⟨rfl, agrees.write info⟩
    | error cause =>
        dsimp only
        split
        · exact ⟨rfl, agrees.write info⟩
        · exact ⟨rfl, agrees⟩
  · exact ⟨rfl, agrees⟩

theorem rename (agrees : first.Agrees second) (tokenId name : String) :
    (second.rename tokenId name).1 = (first.rename tokenId name).1 ∧
      (first.rename tokenId name).2.Agrees (second.rename tokenId name).2 := by
  unfold Registry.rename
  rw [(agrees tokenId).stored_eq]
  cases first.stored tokenId with
  | ok existing => exact agrees.register _
  | error cause => exact ⟨rfl, agrees⟩

theorem reopen (agrees : first.Agrees second) : first.reopen.Agrees second.reopen := fun tokenId =>
  { store_eq := (agrees tokenId).store_eq
    copy_eq := rfl
    budget_eq := (agrees tokenId).budget_eq
    lifetime_eq := (agrees tokenId).lifetime_eq }

theorem forget (agrees : first.Agrees second) (keys : List String) :
    Agrees { first with copies := first.copies.removeAll keys }
      { second with copies := second.copies.removeAll keys } := fun tokenId =>
  { store_eq := (agrees tokenId).store_eq
    copy_eq := by
      rw [LocalTier.getElem?_removeAll, LocalTier.getElem?_removeAll, (agrees tokenId).copy_eq]
    budget_eq := by
      rw [(LocalTier.limits_removeAll keys).1, (LocalTier.limits_removeAll keys).1,
        (agrees tokenId).budget_eq]
    lifetime_eq := by
      rw [(LocalTier.limits_removeAll keys).2, (LocalTier.limits_removeAll keys).2,
        (agrees tokenId).lifetime_eq] }

end Agrees

namespace Session

variable {first second : Registry} {now : Nat}

/-- Registries that agree answer an event in the same way, and agree again. -/
theorem meet_of_agrees (agrees : first.Agrees second) (event : Event) :
    (meet ⟨second, now⟩ event).1 = (meet ⟨first, now⟩ event).1 ∧
      (meet ⟨second, now⟩ event).2.now = (meet ⟨first, now⟩ event).2.now ∧
      (meet ⟨first, now⟩ event).2.registry.Agrees (meet ⟨second, now⟩ event).2.registry := by
  cases event with
  | register info =>
      obtain ⟨sameResult, agreesNext⟩ := agrees.register info
      exact ⟨congrArg Answer.mapping sameResult, rfl, agreesNext⟩
  | rename tokenId name =>
      obtain ⟨sameResult, agreesNext⟩ := agrees.rename tokenId name
      exact ⟨congrArg Answer.mapping sameResult, rfl, agreesNext⟩
  | lookup tokenId =>
      obtain ⟨sameResult, agreesNext⟩ := agrees.lookup now tokenId
      exact ⟨congrArg Answer.mapping sameResult, rfl, agreesNext⟩
  | list => exact ⟨congrArg Answer.listing (agrees "").list_eq, rfl, agrees⟩
  | reopen => exact ⟨rfl, rfl, agrees.reopen⟩
  | drop keys => exact ⟨rfl, rfl, agrees.forget keys⟩
  | wait span => exact ⟨rfl, rfl, agrees⟩

/-- Registries that agree give the same answer also behind the same events. -/
theorem meet_after_of_agrees (agrees : first.Agrees second) (events : List Event)
    (event : Event) :
    ((after ⟨second, now⟩ events).meet event).1 = ((after ⟨first, now⟩ events).meet event).1 := by
  induction events generalizing first second now with
  | nil => exact (meet_of_agrees agrees event).1
  | cons met events ih =>
      have split (registry : Registry) : after ⟨registry, now⟩ (met :: events) =
          after (meet ⟨registry, now⟩ met).2 events := rfl
      rw [split, split]
      rcases ranFirst : meet ⟨first, now⟩ met with ⟨firstAnswer, firstNext, firstNow⟩
      rcases ranSecond : meet ⟨second, now⟩ met with ⟨secondAnswer, secondNext, secondNow⟩
      obtain ⟨-, sameTime, agreesNext⟩ := @meet_of_agrees first second now agrees met
      rw [ranFirst, ranSecond] at sameTime agreesNext
      cases sameTime
      exact ih agreesNext

end Session

end Registry

end MarketStats

import MarketStats.Proofs.Model.Collection
import MarketStats.Proofs.Text.ByteOrder
import MarketStats.Registry

/-!
# The mappings behind a registry

Whatever copies a registry holds, it stands for a plain map from token
identifiers to collections and names.  The map says what each operation
answers; the side store holds a text for every mapping, and no copy is older
than the mapping it was made of.
-/

namespace MarketStats

/-- The collection and the name that each token identifier stands for. -/
structure Mappings where
  entries : Std.TreeMap String (Int64 × String)

namespace CollectionInfo

/-- The limits of the fields of a mapping. -/
def IsAdmissible (info : CollectionInfo) : Prop :=
  (1 ≤ info.tokenId.length ∧ info.tokenId.length ≤ 128) ∧
    (1 ≤ info.name.length ∧ info.name.length ≤ 256) ∧ 0 ≤ info.collectionId

instance (info : CollectionInfo) : Decidable info.IsAdmissible :=
  inferInstanceAs (Decidable (_ ∧ _ ∧ _))

theorem isValid_iff_isAdmissible (info : CollectionInfo) :
    info.isValid = true ↔ info.IsAdmissible := by
  rw [isValid_iff, IsAdmissible, maxNameLength, maxTokenIdLength]
  constructor
  · rintro ⟨collectionId, name, tokenId⟩
    exact ⟨tokenId, name, collectionId⟩
  · rintro ⟨tokenId, name, collectionId⟩
    exact ⟨collectionId, name, tokenId⟩

end CollectionInfo

namespace Mappings

def empty : Mappings :=
  { entries := {} }

def infoOf (tokenId : String) (mapped : Int64 × String) : CollectionInfo :=
  { tokenId, collectionId := mapped.1, name := mapped.2 }

def find? (mappings : Mappings) (tokenId : String) : Option CollectionInfo :=
  mappings.entries[tokenId]?.map (infoOf tokenId)

def put (mappings : Mappings) (info : CollectionInfo) : Mappings :=
  { entries := mappings.entries.insert info.tokenId (info.collectionId, info.name) }

def unmapped (tokenId : String) : StatsError :=
  .notFound (SideStore.place Registry.bucketName tokenId)

/-- A mapping is set unless a field is outside its limits or the token
identifier stands for another collection. -/
def register (mappings : Mappings) (info : CollectionInfo) :
    Except StatsError CollectionInfo × Mappings :=
  if info.IsAdmissible then
    match mappings.find? info.tokenId with
    | none => (.ok info, mappings.put info)
    | some existing =>
        if existing.collectionId = info.collectionId then
          (.ok info, mappings.put info)
        else
          (.error (Registry.alreadyMapped info.tokenId existing.collectionId), mappings)
  else
    (.error (Registry.faulty info), mappings)

/-- A mapping that exists is set anew with the same collection. -/
def rename (mappings : Mappings) (tokenId name : String) :
    Except StatsError CollectionInfo × Mappings :=
  match mappings.find? tokenId with
  | some existing => mappings.register { existing with name }
  | none => (.error (unmapped tokenId), mappings)

def lookup (mappings : Mappings) (tokenId : String) : Except StatsError CollectionInfo :=
  match mappings.find? tokenId with
  | some info => .ok info
  | none => .error (unmapped tokenId)

def list (mappings : Mappings) : List CollectionInfo :=
  mappings.entries.toList.map fun entry => infoOf entry.1 entry.2

variable {mappings : Mappings}

theorem tokenId_of_find? {tokenId : String} {info : CollectionInfo}
    (found : mappings.find? tokenId = some info) : info.tokenId = tokenId := by
  obtain ⟨mapped, -, rfl⟩ := Option.map_eq_some_iff.mp found
  rfl

theorem find?_put (info : CollectionInfo) (tokenId : String) :
    (mappings.put info).find? tokenId =
      if info.tokenId = tokenId then some info else mappings.find? tokenId := by
  unfold put find?
  rw [Std.TreeMap.getElem?_insert]
  simp only [Std.LawfulEqCmp.compare_eq_iff_eq]
  split
  · next same =>
      subst same
      rfl
  · rfl

theorem mem_list_iff {info : CollectionInfo} :
    info ∈ mappings.list ↔ mappings.find? info.tokenId = some info := by
  unfold list find?
  rw [List.mem_map, Option.map_eq_some_iff]
  constructor
  · rintro ⟨⟨tokenId, mapped⟩, listed, rfl⟩
    exact ⟨mapped, Std.TreeMap.mem_toList_iff_getElem?_eq_some.mp listed, rfl⟩
  · rintro ⟨mapped, found, same⟩
    exact ⟨(info.tokenId, mapped), Std.TreeMap.mem_toList_iff_getElem?_eq_some.mpr found, same⟩

theorem pairwise_list (mappings : Mappings) :
    mappings.list.Pairwise fun first second =>
      Text.bytes first.tokenId < Text.bytes second.tokenId := by
  refine List.pairwise_map.mpr (Std.TreeMap.ordered_keys_toList.imp fun ordered => ?_)
  exact Text.bytes_lt (compareOfLessAndEq_eq_lt.mp ordered)

/-- No token identifier has two mappings. -/
theorem nodup_list (mappings : Mappings) :
    (mappings.list.map CollectionInfo.tokenId).Nodup := by
  have tokenIds : mappings.list.map CollectionInfo.tokenId = mappings.entries.keys := by
    rw [list, List.map_map, ← Std.TreeMap.map_fst_toList_eq_keys]
    rfl
  rw [tokenIds]
  exact Std.TreeMap.nodup_keys

end Mappings

theorem values_eq_map_toList {Value : Type} (map : Std.TreeMap String Value) :
    map.values = map.toList.map Prod.snd := by
  have folded : map.values = map.foldr (fun _ value values => value :: values) [] := rfl
  rw [folded, Std.TreeMap.foldr_eq_foldr_toList]
  induction map.toList with
  | nil => rfl
  | cons entry entries ih => rw [List.foldr_cons, ih, List.map_cons]

namespace LocalTier

variable {tier : LocalTier} {entry : CacheEntry}

theorem getElem?_remove (key other : String) :
    (tier.remove key).entries[other]? = if key = other then none else tier.entries[other]? := by
  rw [remove, Std.TreeMap.getElem?_erase]
  simp only [Std.LawfulEqCmp.compare_eq_iff_eq]

theorem mem_of_mem_removeAll {keys : List String} {other : String}
    (found : (tier.removeAll keys).entries[other]? = some entry) :
    tier.entries[other]? = some entry := by
  unfold removeAll at found
  induction keys generalizing tier with
  | nil => exact found
  | cons key keys ih =>
      have kept := ih found
      rw [getElem?_remove] at kept
      split at kept
      · exact nomatch kept
      · exact kept

/-- A value is kept if it fits into the budget, and otherwise nothing
happens. -/
theorem putChecked_snd (now : Nat) (key value : String) (lifetime : Nat) :
    (tier.putChecked now key value lifetime).2 =
      if cost key value ≤ tier.budget ∧ tier.budget ≠ 0 then
        { tier with entries := tier.entries.insert key ⟨value, some (now + lifetime)⟩ }
      else tier := by
  unfold putChecked put
  by_cases fits : cost key value ≤ tier.budget
  · rw [if_neg (Nat.not_lt.mpr fits)]
    by_cases noBudget : tier.budget = 0
    · rw [if_pos noBudget, if_neg fun both => both.2 noBudget]
      dsimp only
      split
      · rfl
      · rfl
    · rw [if_neg noBudget, if_pos ⟨fits, noBudget⟩]
      dsimp only [Option.map_some]
      split
      · rfl
      · rfl
  · rw [if_pos (Nat.not_le.mp fits), if_neg fun both => fits both.1]

/-- Whether or not a value was kept, there is nothing else that is new. -/
theorem getElem?_putChecked {now lifetime : Nat} {key value other : String}
    (found : (tier.putChecked now key value lifetime).2.entries[other]? = some entry) :
    tier.entries[other]? = some entry ∨ key = other ∧ entry.value = value := by
  rw [putChecked_snd] at found
  split at found
  · rw [Std.TreeMap.getElem?_insert] at found
    simp only [Std.LawfulEqCmp.compare_eq_iff_eq] at found
    split at found
    · next same =>
        cases found
        exact .inr ⟨same, rfl⟩
    · exact .inl found
  · exact .inl found

end LocalTier

namespace Registry

/-- The text that is kept of a mapping. -/
def textOf (info : CollectionInfo) : Text.RawText :=
  Text.ofChars info.toJson.toChars

theorem decode?_textOf (info : CollectionInfo) :
    Json.decode? CollectionInfo.ofJson? (textOf info) = some info := by
  rw [← info.decode?_toText, textOf, Text.ofString, Json.toText, String.toList_ofList]

theorem stored_of_present {registry : Registry} {tokenId : String} {info : CollectionInfo}
    (present : registry.store.get? bucketName tokenId = some (textOf info)) :
    registry.stored tokenId = .ok info := by
  rw [stored, SideStore.getJson, SideStore.get, present]
  change SideStore.readJson _ (textOf info) = _
  rw [SideStore.readJson, decode?_textOf]

theorem stored_of_absent {registry : Registry} {tokenId : String}
    (absent : registry.store.get? bucketName tokenId = none) :
    registry.stored tokenId = .error (.notFound (SideStore.place bucketName tokenId)) := by
  rw [stored, SideStore.getJson, SideStore.get, absent]
  rfl

theorem copyKey_inj {first second : String} :
    copyKey first = copyKey second ↔ first = second := by
  unfold copyKey
  exact String.append_right_inj _

/-- A registry stands for a map: the side store holds the text of every mapping
and nothing else, and a copy that is in memory is a copy of the mapping. -/
structure Refines (registry : Registry) (mappings : Mappings) : Prop where
  stored : ∀ tokenId, registry.store.get? bucketName tokenId =
    (mappings.find? tokenId).map textOf
  copied : ∀ tokenId entry, registry.copies.entries[copyKey tokenId]? = some entry →
    ∃ info, mappings.find? tokenId = some info ∧ entry.value = info.toJson.toText

namespace Refines

variable {registry : Registry} {mappings : Mappings}

theorem stored_eq_lookup (refines : registry.Refines mappings) (tokenId : String) :
    registry.stored tokenId = mappings.lookup tokenId := by
  have held := refines.stored tokenId
  unfold Mappings.lookup
  cases found : mappings.find? tokenId with
  | none =>
      rw [found] at held
      exact stored_of_absent held
  | some info =>
      rw [found] at held
      exact stored_of_present held

theorem find?_of_copy? (refines : registry.Refines mappings) {now : Nat} {tokenId : String}
    {info : CollectionInfo} (copied : registry.copy? now tokenId = some info) :
    mappings.find? tokenId = some info := by
  obtain ⟨written, live, decoded⟩ := Option.bind_eq_some_iff.mp copied
  obtain ⟨entry, found, rfl⟩ := Option.map_eq_some_iff.mp live
  obtain ⟨current, mapped, same⟩ :=
    refines.copied tokenId entry (Option.filter_eq_some_iff.mp found).1
  rw [same, current.decode?_toText] at decoded
  rw [mapped, decoded]

/-- Only what is in the side store and which copies there are matters. -/
theorem of_fewer (refines : registry.Refines mappings) {changed : Registry}
    (sameStore : changed.store = registry.store)
    (fewer : ∀ (key : String) (entry : CacheEntry), changed.copies.entries[key]? = some entry →
      registry.copies.entries[key]? = some entry) :
    changed.Refines mappings where
  stored := fun tokenId => by rw [sameStore, refines.stored]
  copied := fun tokenId entry found => refines.copied tokenId entry (fewer _ _ found)

theorem reopen (refines : registry.Refines mappings) : registry.reopen.Refines mappings := by
  refine refines.of_fewer registry.store_reopen fun key entry found => ?_
  rw [Registry.reopen, LocalTier.empty, Std.TreeMap.getElem?_emptyc] at found
  cases found

theorem forget (refines : registry.Refines mappings) (keys : List String) :
    Refines { registry with copies := registry.copies.removeAll keys } mappings :=
  refines.of_fewer rfl fun _ _ => LocalTier.mem_of_mem_removeAll

theorem write (refines : registry.Refines mappings) (info : CollectionInfo) :
    (registry.write info).Refines (mappings.put info) where
  stored := by
    intro tokenId
    rw [Registry.write, SideStore.putJson, SideStore.get?_put, Mappings.find?_put,
      refines.stored]
    by_cases same : info.tokenId = tokenId
    · rw [if_pos ⟨rfl, same⟩, if_pos same]
      rfl
    · rw [if_neg fun both => same both.2, if_neg same]
  copied := by
    intro tokenId entry found
    rw [Registry.write, LocalTier.getElem?_remove] at found
    split at found
    · exact nomatch found
    · next different =>
        rw [Mappings.find?_put, if_neg (mt copyKey_inj.mpr different)]
        exact refines.copied tokenId entry found

/-- Setting a mapping anew that is there already changes nothing. -/
theorem put_same (refines : registry.Refines mappings) {info : CollectionInfo}
    (found : mappings.find? info.tokenId = some info) :
    registry.Refines (mappings.put info) := by
  have same : ∀ tokenId, (mappings.put info).find? tokenId = mappings.find? tokenId := by
    intro tokenId
    rw [Mappings.find?_put]
    split
    · next sameToken => rw [← sameToken, found]
    · rfl
  exact
    { stored := fun tokenId => by rw [same, refines.stored]
      copied := fun tokenId entry copied => by
        rw [same]
        exact refines.copied tokenId entry copied }

theorem remember (refines : registry.Refines mappings) {tokenId : String}
    {info : CollectionInfo} (found : mappings.find? tokenId = some info) (now : Nat) :
    (registry.remember now tokenId info).Refines mappings where
  stored := fun other => by rw [registry.store_remember, refines.stored]
  copied := by
    intro other entry copied
    unfold Registry.remember at copied
    dsimp only at copied
    obtain kept | ⟨sameKey, written⟩ := LocalTier.getElem?_putChecked copied
    · exact refines.copied other entry kept
    · cases copyKey_inj.mp sameKey
      exact ⟨info, found, written⟩

theorem register (refines : registry.Refines mappings) (info : CollectionInfo) :
    (registry.register info).1 = (mappings.register info).1 ∧
      (registry.register info).2.Refines (mappings.register info).2 := by
  unfold Registry.register Mappings.register
  rw [refines.stored_eq_lookup, Mappings.lookup]
  by_cases admissible : info.IsAdmissible
  · rw [if_pos (info.isValid_iff_isAdmissible.mpr admissible), if_pos admissible]
    cases found : mappings.find? info.tokenId with
    | none =>
        have isNotFound : (Mappings.unmapped info.tokenId).isNotFound = true := rfl
        simp only [isNotFound, if_true]
        exact ⟨trivial, refines.write info⟩
    | some existing =>
        by_cases sameCollection : existing.collectionId = info.collectionId
        · simp only [sameCollection, ne_eq, not_true_eq_false, if_false, if_true]
          split
          · next same =>
              subst same
              exact ⟨rfl, refines.put_same found⟩
          · exact ⟨rfl, refines.write info⟩
        · simp only [sameCollection, ne_eq, not_false_eq_true, if_true, if_false]
          exact ⟨trivial, refines⟩
  · rw [if_neg (mt info.isValid_iff_isAdmissible.mp admissible), if_neg admissible]
    exact ⟨rfl, refines⟩

theorem rename (refines : registry.Refines mappings) (tokenId name : String) :
    (registry.rename tokenId name).1 = (mappings.rename tokenId name).1 ∧
      (registry.rename tokenId name).2.Refines (mappings.rename tokenId name).2 := by
  unfold Registry.rename Mappings.rename
  rw [refines.stored_eq_lookup, Mappings.lookup]
  cases found : mappings.find? tokenId with
  | none => exact ⟨rfl, refines⟩
  | some existing =>
      have sameToken := Mappings.tokenId_of_find? found
      subst sameToken
      exact refines.register { existing with name }

theorem lookup (refines : registry.Refines mappings) (now : Nat) (tokenId : String) :
    (registry.lookup now tokenId).1 = mappings.lookup tokenId ∧
      (registry.lookup now tokenId).2.Refines mappings := by
  unfold Registry.lookup
  cases copied : registry.copy? now tokenId with
  | some info =>
      rw [Mappings.lookup, refines.find?_of_copy? copied]
      exact ⟨rfl, refines⟩
  | none =>
      rw [refines.stored_eq_lookup, Mappings.lookup]
      cases found : mappings.find? tokenId with
      | none => exact ⟨rfl, refines⟩
      | some info => exact ⟨rfl, refines.remember found now⟩

/-- The texts in the bucket are those of the mappings, in the same order. -/
theorem values_bucket (refines : registry.Refines mappings) :
    (registry.store.bucket bucketName).values = mappings.list.map textOf := by
  let texts := mappings.entries.map fun tokenId mapped => textOf (Mappings.infoOf tokenId mapped)
  have sameTexts : (registry.store.bucket bucketName).Equiv texts := by
    refine Std.TreeMap.Equiv.of_forall_constGet?_eq fun tokenId => ?_
    rw [Std.TreeMap.getElem?_map]
    have stored := refines.stored tokenId
    rw [SideStore.get?, Mappings.find?, Option.map_map] at stored
    exact stored
  rw [sameTexts.values_eq, values_eq_map_toList, Std.TreeMap.toList_map, Mappings.list,
    List.map_map, List.map_map]
  rfl

theorem list (refines : registry.Refines mappings) : registry.list = .ok mappings.list := by
  have readable : (SideStore.readJson CollectionInfo.ofJson?) ∘ textOf = Except.ok := by
    funext info
    rw [Function.comp, SideStore.readJson, decode?_textOf]
  rw [Registry.list, SideStore.values, refines.values_bucket, List.mapM_map, readable]
  exact List.mapM_pure.trans (congrArg Except.ok (List.map_id _))

end Refines

/-- A side store with the mappings that some token identifiers are to have. -/
def storeOf (mapping? : String → Option CollectionInfo) : List String → SideStore
  | [] => .empty
  | tokenId :: rest =>
      match mapping? tokenId with
      | some info => (storeOf mapping? rest).putJson bucketName tokenId info.toJson
      | none => storeOf mapping? rest

theorem get?_storeOf (mapping? : String → Option CollectionInfo) (tokenIds : List String)
    (tokenId : String) :
    (storeOf mapping? tokenIds).get? bucketName tokenId =
      if tokenId ∈ tokenIds then (mapping? tokenId).map textOf else none := by
  induction tokenIds with
  | nil =>
      rw [if_neg List.not_mem_nil]
      simp [storeOf, SideStore.get?, SideStore.bucket, SideStore.empty]
  | cons stored rest ih =>
      cases wanted : mapping? stored with
      | none =>
          simp only [storeOf, wanted]
          rw [ih]
          by_cases same : tokenId = stored
          · subst same
            simp [wanted]
          · simp [same]
      | some info =>
          simp only [storeOf, wanted]
          rw [SideStore.putJson, SideStore.get?_put, ih]
          by_cases same : stored = tokenId
          · subst same
            simp [wanted, textOf]
          · simp [same, Ne.symm same]

/-- Whichever mappings are to be found, there is a registry in which just they
are. -/
theorem exists_lookup_eq (mapping? : String → Option CollectionInfo) (tokenIds : List String) :
    ∃ registry : Registry, ∀ now, ∀ tokenId ∈ tokenIds,
      (registry.lookup now tokenId).1.toOption = mapping? tokenId := by
  let registry : Registry := { store := storeOf mapping? tokenIds, copies := .empty 0 0 }
  refine ⟨registry, ?_⟩
  intro now tokenId listed
  have held := get?_storeOf mapping? tokenIds tokenId
  rw [if_pos listed] at held
  have noCopy : registry.copy? now tokenId = none := by
    simp [registry, copy?, LocalTier.get?, LocalTier.live?, LocalTier.empty]
  unfold lookup
  rw [noCopy]
  cases wanted : mapping? tokenId with
  | none =>
      rw [wanted] at held
      rw [stored_of_absent held]
      rfl
  | some info =>
      rw [wanted] at held
      rw [stored_of_present held]
      rfl

end Registry

end MarketStats

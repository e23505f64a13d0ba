import MarketStats.Proofs.Model.Attributes
import MarketStats.Proofs.Text.ByteOrder
import MarketStats.Statistics.Census
import Mathlib.Data.List.Dedup

/-!
# What a census counts

A census tells the owners of its tokens apart.  For every trait and value that
some token carries it has one count, the number of the tokens that carry them,
and it has no others.
-/

namespace MarketStats

/-- Whether the attributes of a token give a trait a value. -/
def Token.carries (token : Token) (traitName value : String) : Bool :=
  Attributes.value? token.attributes traitName == some value

/-- Counts stand in the order of the bytes of their traits, and of their values
where the traits are the same. -/
def AttributeCount.Precedes (first second : AttributeCount) : Prop :=
  Text.bytes first.traitName < Text.bytes second.traitName ∨
    first.traitName = second.traitName ∧ Text.bytes first.value < Text.bytes second.value

namespace Census

variable {tokens : List Token} {traitName value : String}

theorem mem_owners_ofTokens {ownerId : Int64} :
    ownerId ∈ (ofTokens tokens).owners ↔ ownerId ∈ tokens.map Token.ownerId := by
  suffices ∀ census : Census, ownerId ∈ (tokens.foldl addToken census).owners ↔
      ownerId ∈ census.owners ∨ ownerId ∈ tokens.map Token.ownerId by
    rw [ofTokens, this, empty]
    simp only [Std.TreeSet.not_mem_emptyc, false_or]
  induction tokens with
  | nil => simp
  | cons token rest ih =>
      intro census
      simp only [List.foldl_cons, ih, addToken, Std.TreeSet.mem_insert,
        Std.LawfulEqCmp.compare_eq_iff_eq, List.map_cons, List.mem_cons, eq_comm (a := ownerId)]
      tauto

/-- As many owners are told apart as there are different ones. -/
theorem size_owners_ofTokens (tokens : List Token) :
    (ofTokens tokens).owners.size = (tokens.map Token.ownerId).dedup.length := by
  rw [← Std.TreeSet.length_toList]
  have distinct : (ofTokens tokens).owners.toList.Nodup :=
    Std.TreeSet.distinct_toList.imp fun different same => different (by simp [same])
  refine List.Perm.length_eq
    ((List.perm_ext_iff_of_nodup distinct (List.nodup_dedup _)).mpr fun ownerId => ?_)
  rw [Std.TreeSet.mem_toList, mem_owners_ofTokens, List.mem_dedup]

/-- A count is the number of the tokens that carry the trait with the value. -/
theorem getD_attributeCounts_ofTokens (tokens : List Token) (traitName value : String) :
    (ofTokens tokens).attributeCounts.getD (traitName, value) 0 =
      tokens.countP fun token => token.carries traitName value := by
  suffices ∀ census : Census,
      (tokens.foldl addToken census).attributeCounts.getD (traitName, value) 0 =
        census.attributeCounts.getD (traitName, value) 0 +
          tokens.countP fun token => token.carries traitName value by
    rw [ofTokens, this, empty, Std.TreeMap.getD_emptyc, Nat.zero_add]
  induction tokens with
  | nil => exact fun census => rfl
  | cons token rest ih =>
      intro census
      rw [List.foldl_cons, ih, addToken, getD_foldl_countAttribute, Attributes.count_parse?,
        List.countP_cons, Token.carries]
      simp only [beq_iff_eq]
      omega

/-- Nothing is counted that did not occur. -/
def CountsOccurred (counts : Std.TreeMap (String × String) Nat traitOrder) : Prop :=
  ∀ (attributePair : String × String) count, counts[attributePair]? = some count → 0 < count

theorem CountsOccurred.foldl {counts : Std.TreeMap (String × String) Nat traitOrder}
    (occurred : CountsOccurred counts) (attributePairs : List (String × String)) :
    CountsOccurred (attributePairs.foldl countAttribute counts) := by
  induction attributePairs generalizing counts with
  | nil => exact occurred
  | cons attributePair rest ih =>
      refine ih fun wanted count found => ?_
      rw [countAttribute, Std.TreeMap.getElem?_insert] at found
      split at found
      · obtain rfl := Option.some.inj found
        exact Nat.succ_pos _
      · exact occurred wanted count found

theorem countsOccurred_ofTokens (tokens : List Token) :
    CountsOccurred (ofTokens tokens).attributeCounts := by
  suffices ∀ census : Census, CountsOccurred census.attributeCounts →
      CountsOccurred (tokens.foldl addToken census).attributeCounts by
    refine this empty fun attributePair count found => ?_
    rw [empty, Std.TreeMap.getElem?_emptyc] at found
    cases found
  induction tokens with
  | nil => exact fun census occurred => occurred
  | cons token rest ih => exact fun census occurred => ih _ (occurred.foldl _)

theorem getElem?_attributeCounts_ofTokens {count : Nat} :
    (ofTokens tokens).attributeCounts[(traitName, value)]? = some count ↔
      0 < count ∧ count = tokens.countP fun token => token.carries traitName value := by
  rw [← getD_attributeCounts_ofTokens, Std.TreeMap.getD_eq_getD_getElem?]
  constructor
  · intro counted
    refine ⟨countsOccurred_ofTokens tokens _ _ counted, ?_⟩
    rw [counted, Option.getD_some]
  · rintro ⟨positive, rfl⟩
    cases found : (ofTokens tokens).attributeCounts[(traitName, value)]? with
    | none =>
        rw [found] at positive
        exact absurd positive (Nat.lt_irrefl 0)
    | some count => rfl

theorem mem_attributes_ofTokens {counted : AttributeCount} :
    counted ∈ (ofTokens tokens).attributes ↔
      (∃ token ∈ tokens, token.carries counted.traitName counted.value = true) ∧
        counted.count = UInt64.ofNat
          (tokens.countP fun token => token.carries counted.traitName counted.value) := by
  rw [← List.countP_pos_iff, attributes, List.mem_map]
  constructor
  · rintro ⟨⟨⟨traitName, value⟩, count⟩, listed, rfl⟩
    obtain ⟨positive, rfl⟩ := getElem?_attributeCounts_ofTokens.mp
      (Std.TreeMap.mem_toList_iff_getElem?_eq_some.mp listed)
    exact ⟨positive, rfl⟩
  · rintro ⟨positive, same⟩
    refine ⟨((counted.traitName, counted.value), _), Std.TreeMap.mem_toList_iff_getElem?_eq_some.mpr
      (getElem?_attributeCounts_ofTokens.mpr ⟨positive, rfl⟩), ?_⟩
    dsimp only
    rw [← same]

theorem pairwise_attributes (census : Census) :
    census.attributes.Pairwise AttributeCount.Precedes := by
  rw [attributes, List.pairwise_map]
  refine Std.TreeMap.ordered_keys_toList.imp ?_
  rintro ⟨⟨firstTrait, firstValue⟩, firstCount⟩ ⟨⟨secondTrait, secondValue⟩, secondCount⟩ less
  rcases Ordering.then_eq_lt.mp less with traits | ⟨traits, values⟩
  · exact .inl (Text.bytes_lt (compareOfLessAndEq_eq_lt.mp traits))
  · exact .inr ⟨Std.LawfulEqOrd.eq_of_compare traits,
      Text.bytes_lt (compareOfLessAndEq_eq_lt.mp values)⟩

end Census

end MarketStats

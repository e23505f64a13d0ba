import MarketStats.Proofs.Redis.Server
import MarketStats.Cache.Ranking

/-!
# Sorted sets and rankings

A sorted set is a ranking whose members are kept in their order all the time.
The ranks that are selected from it are the same ones.
-/

namespace MarketStats

namespace RedisValue

/-- Items from one position to another are what is left when those before them
are dropped and as many as fit are taken. -/
theorem map_filter_zipIdx {Item : Type} (items : List Item) (start : Nat) (first last : Int) :
    ((items.zipIdx start).filter fun (_, rank) =>
        decide (first ≤ rank ∧ rank ≤ last)).map Prod.fst =
      (items.drop (first - start).toNat).take (last + 1 - max first start).toNat := by
  induction items generalizing start with
  | nil => simp
  | cons item rest ih =>
      rw [List.zipIdx_cons]
      by_cases before : (start : Int) < first
      · have outside : ¬(first ≤ start ∧ (start : Int) ≤ last) := by omega
        have dropped : (first - start).toNat = (first - (start + 1 : Nat)).toNat + 1 := by omega
        have sameFirst : max first ((start + 1 : Nat) : Int) = max first start := by omega
        rw [List.filter_cons_of_neg (by simpa using outside), ih, dropped, List.drop_succ_cons,
          sameFirst]
      · have nothing : (first - start).toNat = 0 := by omega
        have nothingLater : (first - (start + 1 : Nat)).toNat = 0 := by omega
        by_cases behind : last < start
        · have outside : ¬(first ≤ start ∧ (start : Int) ≤ last) := by omega
          have none : (last + 1 - max first start).toNat = 0 := by omega
          have noneLater : (last + 1 - max first ((start + 1 : Nat) : Int)).toNat = 0 := by omega
          rw [List.filter_cons_of_neg (by simpa using outside), ih, none, noneLater, List.take_zero,
            List.take_zero]
        · have inside : first ≤ start ∧ (start : Int) ≤ last := by omega
          have taken : (last + 1 - max first start).toNat =
              (last + 1 - max first ((start + 1 : Nat) : Int)).toNat + 1 := by omega
          rw [List.filter_cons_of_pos (by simpa using inside), List.map_cons, ih, nothing,
            nothingLater, List.drop_zero, List.drop_zero, taken, List.take_succ_cons]

/-- What is taken behind some items does not change with the number that may be
taken beyond those there are. -/
theorem take_drop_eq {Item : Type} (items : List Item) {skipped other count most : Nat}
    (sameStart : skipped = other)
    (sameCount : min count (items.length - skipped) = min most (items.length - skipped)) :
    (items.drop skipped).take count = (items.drop other).take most := by
  subst sameStart
  rw [List.take_eq_take_iff, List.length_drop]
  exact sameCount

/-- Selecting ranks means to keep the members at them. -/
theorem membersBetween_eq_selectRanks (members : List String) (first last : Int) :
    membersBetween members first last = selectRanks members first last := by
  unfold membersBetween selectRanks
  dsimp only
  rw [map_filter_zipIdx]
  generalize firstRank : (if first < 0 then (members.length : Int) + first else first) = lower
  generalize lastRank : (if last < 0 then (members.length : Int) + last else last) = upper
  have start : (if first < 0 then max ((members.length : Int) + first) 0 else first) =
      max lower 0 := by
    split at firstRank <;> omega
  have stop : (if last < 0 then (members.length : Int) + last
      else min last ((members.length : Int) - 1)) = min upper ((members.length : Int) - 1) := by
    split at lastRank <;> omega
  rw [start, stop]
  split
  · apply List.eq_nil_of_length_eq_zero
    rw [List.length_take, List.length_drop]
    omega
  · apply take_drop_eq
    · omega
    · omega

instance : IsTrans (String × Double) InOrder where
  trans first second third := by
    rintro (less | ⟨same, ordered⟩) (lessThen | ⟨sameThen, orderedThen⟩)
    · exact .inl (Int.lt_trans less lessThen)
    · exact .inl (sameThen ▸ less)
    · exact .inl (same ▸ lessThen)
    · exact .inr ⟨same.trans sameThen, Std.le_trans ordered orderedThen⟩

instance : Std.Total InOrder where
  total first second := by
    rcases Int.lt_trichotomy first.2.rank second.2.rank with less | same | greater
    · exact .inl (.inl less)
    · rcases Std.le_total (a := Text.bytes first.1) (b := Text.bytes second.1) with
        ordered | ordered
      · exact .inl (.inr ⟨same, ordered⟩)
      · exact .inr (.inr ⟨same.symm, ordered⟩)
    · exact .inr (.inl greater)

/-- Rankings put members into the same order. -/
theorem inOrder_iff_precedes {first second : String × Double} :
    InOrder first second ↔ Ranking.precedes first second = true := by
  rw [InOrder, Text.bytes_le_iff, Ranking.precedes]
  simp only [Bool.or_eq_true, Bool.and_eq_true, decide_eq_true_eq, beq_iff_eq]

theorem pairwise_mergeSort (members : List (String × Double)) :
    (members.mergeSort Ranking.precedes).Pairwise InOrder := by
  refine List.Pairwise.imp inOrder_iff_precedes.mpr (List.pairwise_mergeSort ?_ ?_ _)
  · intro first second third
    simp only [← inOrder_iff_precedes]
    exact IsTrans.trans first second third
  · intro first second
    rw [Bool.or_eq_true, ← inOrder_iff_precedes, ← inOrder_iff_precedes]
    exact Std.Total.total first second

/-- A sorted set has the members of a ranking with their scores, in their
order. -/
structure Lists (members : List (String × Double)) (ranking : Ranking) : Prop where
  ordered : members.Pairwise InOrder
  same : members.Perm ranking.toList

variable {members : List (String × Double)} {ranking : Ranking}

theorem Lists.map_fst (lists : Lists members ranking) :
    members.map Prod.fst = ranking.ascending := by
  rw [Ranking.ascending]
  refine congrArg _ (List.Perm.eq_of_pairwise ?_ lists.ordered
    (pairwise_mergeSort ranking.toList) (lists.same.trans (List.mergeSort_perm _ _).symm))
  rintro ⟨member, score⟩ ⟨other, otherScore⟩ listed otherListed ordered reversed
  -- Neither score is larger, nor is either member, and a member has one score.
  rw [InOrder, Text.bytes_le_iff] at ordered reversed
  have sameMember : member = other := by
    rcases ordered with less | ⟨same, notAfter⟩
    · omega
    · rcases reversed with greater | ⟨-, notBefore⟩
      · omega
      · exact Std.le_antisymm notAfter notBefore
  subst sameMember
  have found := Std.TreeMap.mem_toList_iff_getElem?_eq_some.mp (lists.same.mem_iff.mp listed)
  have otherFound :=
    Std.TreeMap.mem_toList_iff_getElem?_eq_some.mp (List.mem_mergeSort.mp otherListed)
  cases found.symm.trans otherFound
  rfl

theorem Lists.addMember (lists : Lists members ranking) (member : String) (score : Double) :
    Lists (addMember members member score) (ranking.insert member score) where
  ordered := List.Pairwise.orderedInsert _ _ (lists.ordered.filter _)
  same := by
    refine (List.perm_orderedInsert _ _ _).trans
      (List.Perm.trans ?_ Std.TreeMap.toList_insert_perm.symm)
    refine List.Perm.cons _ ((lists.same.filter _).trans (.of_eq ?_))
    refine List.filter_congr fun entry _ => ?_
    by_cases isMember : entry.1 = member
    · simp [isMember]
    · simp [isMember, Ne.symm isMember]

end RedisValue

end MarketStats

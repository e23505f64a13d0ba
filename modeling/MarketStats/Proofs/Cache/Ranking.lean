import MarketStats.Cache.Ranking

/-!
# The members of a ranking

A ranking lists each of its members once, in either order.  The range from the
first rank to the last one is the whole list, and pages of ranks are pages of
the list.
-/

namespace MarketStats

theorem selectRanks_all {α : Type} (ranked : List α) : selectRanks ranked 0 (-1) = ranked := by
  unfold selectRanks
  simp only [show ¬(0 : Int) < 0 by decide, show (-1 : Int) < 0 by decide, if_true, if_false]
  cases ranked with
  | nil => rfl
  | cons first rest =>
      have lastRank : ((first :: rest).length : Int) + -1 = rest.length := by
        rw [List.length_cons]
        omega
      rw [lastRank, if_neg (by rw [List.length_cons]; omega)]
      exact List.take_of_length_le (by simp)

theorem sublist_selectRanks {α : Type} (ranked : List α) (first last : Int) :
    (selectRanks ranked first last).Sublist ranked := by
  unfold selectRanks
  extract_lets size start stop
  split
  · exact List.nil_sublist ranked
  · exact (List.take_sublist _ _).trans (List.drop_sublist _ _)

/-- A range of ranks that does not count from the end is a page of the list. -/
theorem selectRanks_page {α : Type} (ranked : List α) (start : Nat) {size : Nat}
    (nonempty : 0 < size) :
    selectRanks ranked start (start + size - 1 : Int) = (ranked.drop start).take size := by
  unfold selectRanks
  have firstInFront : ¬(start : Int) < 0 := by omega
  have lastInFront : ¬(start + size - 1 : Int) < 0 := by omega
  simp only [if_neg firstInFront, if_neg lastInFront]
  by_cases behind : ranked.length ≤ start
  · rw [if_pos (by omega), List.drop_of_length_le behind, List.take_nil]
  · have selected : (min (start + size - 1 : Int) (ranked.length - 1) - start + 1).toNat =
        min size (ranked.drop start).length := by
      rw [List.length_drop]
      omega
    rw [if_neg (by omega), selected, Int.toNat_natCast, ← List.take_eq_take_min]

namespace Ranking

theorem perm_ascending (ranking : Ranking) : ranking.ascending.Perm ranking.keys := by
  unfold ascending
  rw [← Std.TreeMap.map_fst_toList_eq_keys]
  exact (List.mergeSort_perm _ _).map Prod.fst

theorem perm_listed (ranking : Ranking) (descending : Bool) :
    (ranking.listed descending).Perm ranking.keys := by
  unfold listed
  split
  · exact (List.reverse_perm _).trans ranking.perm_ascending
  · exact ranking.perm_ascending

/-- A ranking whose members have increasing scores lists them by their
bytes. -/
theorem ascending_of_pairwise {ranking : Ranking}
    (sorted : ranking.toList.Pairwise fun first second => precedes first second = true) :
    ranking.ascending = ranking.toList.map Prod.fst := by
  rw [ascending, List.mergeSort_of_pairwise sorted]

end Ranking

namespace Rankings

variable {rankings : Rankings} {key : String} {descending : Bool}

theorem nodup_range {first last : Int} : (rankings.range key first last descending).Nodup := by
  apply (sublist_selectRanks _ first last).nodup
  rw [(Ranking.perm_listed _ _).nodup_iff]
  exact Std.TreeMap.nodup_keys

theorem mem_range_iff {member : String} :
    member ∈ rankings.range key 0 (-1) descending ↔
      (rankings.score? key member).isSome = true := by
  rw [range, selectRanks_all, (Ranking.perm_listed _ _).mem_iff, Std.TreeMap.mem_keys,
    Std.TreeMap.mem_iff_isSome_getElem?]
  rfl

end Rankings

end MarketStats

import MarketStats.Double.Basic
import Std.Data.TreeMap

/-!
# Rankings

A ranking holds members with their latest scores.  Its members are ordered by
score, and by their bytes where scores are equal.  Ranges of ranks are given
by their first and last rank; negative ranks count from the end.
-/

namespace MarketStats

/-- Members with their latest scores. -/
abbrev Ranking := Std.TreeMap String Double

/-- Rankings under keys. -/
structure Rankings where
  sets : Std.TreeMap String Ranking

/-- The sublist of the ranks from `first` to `last`, both included.  Negative
ranks count from the end; a first rank in front of the list is its start, and a
last rank behind it is its end. -/
def selectRanks {α : Type} (ranked : List α) (first last : Int) : List α :=
  let size : Int := ranked.length
  let start := if first < 0 then max (size + first) 0 else first
  let stop := if last < 0 then size + last else min last (size - 1)
  if stop < start ∨ size ≤ start ∨ stop < 0 then
    []
  else
    (ranked.drop start.toNat).take (stop - start + 1).toNat

namespace Ranking

def precedes (first second : String × Double) : Bool :=
  decide (first.2.rank < second.2.rank)
    || (first.2.rank == second.2.rank && decide (first.1 ≤ second.1))

/-- The members by increasing score, equal scores by the bytes of the
members. -/
def ascending (ranking : Ranking) : List String :=
  (ranking.toList.mergeSort precedes).map Prod.fst

def listed (ranking : Ranking) (descending : Bool) : List String :=
  if descending then ranking.ascending.reverse else ranking.ascending

end Ranking

namespace Rankings

def empty : Rankings :=
  { sets := {} }

def ranking (rankings : Rankings) (key : String) : Ranking :=
  rankings.sets.getD key {}

/-- Give a member a score, in place of any earlier one. -/
def add (rankings : Rankings) (key member : String) (score : Double) : Rankings :=
  { sets := rankings.sets.insert key ((rankings.ranking key).insert member score) }

def range (rankings : Rankings) (key : String) (first last : Int) (descending : Bool) :
    List String :=
  selectRanks ((rankings.ranking key).listed descending) first last

def score? (rankings : Rankings) (key member : String) : Option Double :=
  (rankings.ranking key)[member]?

theorem ranking_add (rankings : Rankings) (key member : String) (score : Double)
    (other : String) :
    (rankings.add key member score).ranking other =
      if key = other then (rankings.ranking key).insert member score
      else rankings.ranking other := by
  simp only [ranking, add, Std.TreeMap.getD_insert, Std.LawfulEqCmp.compare_eq_iff_eq]

theorem score?_add (rankings : Rankings) (key member : String) (score : Double)
    (otherKey otherMember : String) :
    (rankings.add key member score).score? otherKey otherMember =
      if key = otherKey ∧ member = otherMember then some score
      else rankings.score? otherKey otherMember := by
  simp only [score?, ranking_add]
  by_cases sameKey : key = otherKey
  · subst sameKey
    simp [Std.TreeMap.getElem?_insert, Std.LawfulEqCmp.compare_eq_iff_eq]
  · simp [sameKey]

end Rankings

end MarketStats

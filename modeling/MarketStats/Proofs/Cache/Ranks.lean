import Mathlib.Data.List.Induction
import MarketStats.Proofs.Double.Order
import MarketStats.Proofs.Redis.SortedSet

/-!
# Ranks

Whatever scores were given to whatever members, a ranking lists each member
once, with the score that it was given last: by increasing values, and by bytes
where values are equal.  A range selects the members between two ranks.  Its
bounds are found without leaving the range of machine words, as long as the
number of members and the two ranks are within it.
-/

namespace MarketStats

/-- A finite score that is given to a member under a key. -/
structure Scoring where
  key : String
  member : String
  score : Double
  finite : score.isFinite = true

namespace Rankings

/-- The rankings behind some scorings, the latest of which is the last one. -/
def ofScorings (scorings : List Scoring) : Rankings :=
  scorings.foldl (fun rankings scoring => rankings.add scoring.key scoring.member scoring.score)
    .empty

end Rankings

namespace Scoring

/-- The score that a member was given last under a key. -/
def latest? (scorings : List Scoring) (key member : String) : Option Double :=
  (scorings.reverse.find? fun scoring => scoring.key = key ∧ scoring.member = member).map
    Scoring.score

theorem latest?_concat (scorings : List Scoring) (scoring : Scoring) (key member : String) :
    latest? (scorings ++ [scoring]) key member =
      if scoring.key = key ∧ scoring.member = member then some scoring.score
      else latest? scorings key member := by
  unfold latest?
  rw [List.reverse_append, List.reverse_singleton, List.singleton_append, List.find?_cons]
  by_cases concerned : scoring.key = key ∧ scoring.member = member <;> simp [concerned]

/-- A member stands in front of another one. -/
def InFront (first second : String × Double) : Prop :=
  first.2.value < second.2.value ∨
    first.2.value = second.2.value ∧ Text.bytes first.1 < Text.bytes second.1

instance : Std.Irrefl InFront where
  irrefl entry := by
    rintro (less | ⟨-, less⟩)
    · exact lt_irrefl _ less
    · exact String.lt_irrefl _ (Text.bytes_lt_iff.mp less)

instance : Std.Antisymm InFront where
  antisymm first second := by
    rintro (less | ⟨same, less⟩) (greater | ⟨sameThen, greater⟩)
    · exact absurd less greater.not_gt
    · exact absurd less sameThen.not_gt
    · exact absurd greater same.not_gt
    · rw [Text.bytes_lt_iff] at less greater
      exact absurd greater (String.lt_asymm less)

/-- A list has the members that were given scores under a key, each once with
its latest score, in the order of their ranks. -/
structure AreRanked (scorings : List Scoring) (key : String) (ranked : List (String × Double)) :
    Prop where
  nodup : (ranked.map Prod.fst).Nodup
  mem_iff : ∀ member score, (member, score) ∈ ranked ↔ latest? scorings key member = some score
  ordered : ranked.Pairwise InFront

variable {scorings others : List Scoring} {key : String} {ranked : List (String × Double)}

/-- Only the latest scores matter, and they leave one list. -/
theorem AreRanked.eq {otherRanked : List (String × Double)}
    (areRanked : AreRanked scorings key ranked) (otherAreRanked : AreRanked others key otherRanked)
    (sameScores : ∀ member, latest? others key member = latest? scorings key member) :
    otherRanked = ranked := by
  apply otherAreRanked.ordered.eq_of_mem_iff areRanked.ordered
  rintro ⟨member, score⟩
  rw [otherAreRanked.mem_iff, areRanked.mem_iff, sameScores]

/-- There are no more members than scorings. -/
theorem AreRanked.length_le (areRanked : AreRanked scorings key ranked) :
    ranked.length ≤ scorings.length := by
  have subset : ranked.map Prod.fst ⊆ scorings.map Scoring.member := by
    simp only [List.subset_def, List.mem_map, Prod.exists, exists_and_right, exists_eq_right]
    rintro member ⟨score, listed⟩
    rw [areRanked.mem_iff, latest?, Option.map_eq_some_iff] at listed
    obtain ⟨scoring, found, -⟩ := listed
    have isOwn := List.find?_some found
    simp only [decide_eq_true_eq] at isOwn
    exact ⟨scoring, List.mem_reverse.mp (List.mem_of_find?_eq_some found), isOwn.2⟩
  simpa using (areRanked.nodup.subperm subset).length_le

end Scoring

namespace RedisValue

/-- Of two members the one that is in order comes first. -/
theorem InOrder.inFront {first second : String × Double} (ordered : InOrder first second)
    (different : first.1 ≠ second.1) : Scoring.InFront first second := by
  rcases ordered with less | ⟨same, notAfter⟩
  · exact .inl (Double.rank_lt_iff.mp less)
  · right
    rw [Text.bytes_le_iff] at notAfter
    exact ⟨Double.rank_eq_iff.mp same, Text.bytes_lt (Std.lt_of_le_of_ne notAfter different)⟩

end RedisValue

namespace Rankings

open Scoring

theorem score?_ofScorings (scorings : List Scoring) (key member : String) :
    (ofScorings scorings).score? key member = latest? scorings key member := by
  induction scorings using List.reverseRecOn with
  | nil => rfl
  | append_singleton scorings scoring induction =>
      rw [latest?_concat, ← induction, ofScorings, List.foldl_concat]
      exact score?_add _ _ _ _ _ _

/-- The members of a ranking with their scores, in the order of their ranks. -/
def ranked (rankings : Rankings) (key : String) : List (String × Double) :=
  (rankings.ranking key).toList.mergeSort Ranking.precedes

theorem areRanked_ofScorings (scorings : List Scoring) (key : String) :
    AreRanked scorings key ((ofScorings scorings).ranked key) := by
  have same : ((ofScorings scorings).ranked key).Perm ((ofScorings scorings).ranking key).toList :=
    List.mergeSort_perm _ _
  have nodup : (((ofScorings scorings).ranked key).map Prod.fst).Nodup := by
    rw [(same.map Prod.fst).nodup_iff, Std.TreeMap.map_fst_toList_eq_keys]
    exact Std.TreeMap.nodup_keys
  refine ⟨nodup, fun member score => ?_, ?_⟩
  · rw [same.mem_iff, Std.TreeMap.mem_toList_iff_getElem?_eq_some, ← score?_ofScorings]
    rfl
  · have different : ((ofScorings scorings).ranked key).Pairwise fun first second =>
        first.1 ≠ second.1 := List.pairwise_map.mp nodup
    have ordered := RedisValue.pairwise_mergeSort ((ofScorings scorings).ranking key).toList
    exact ordered.imp₂ (fun _ _ => RedisValue.InOrder.inFront) different

end Rankings

/-- A number, if it fits a signed machine word.  Words hold the numbers from minus
`half` on that are smaller than `half`. -/
def fitWord? (half : Nat) (number : Int) : Option Int :=
  if -(half : Int) ≤ number ∧ number < half then some number else none

/-- The first and the last position that a range selects.  They are calculated with
machine words, and the outer option is empty as soon as a number does not fit.
The inner one is empty if there is nothing to select. -/
def positionsInWords? (half length : Nat) (first last : Int) : Option (Option (Nat × Nat)) :=
  if length = 0 then
    some none
  else
    (fitWord? half length).bind fun size =>
      (if first < 0 then (fitWord? half (size + first)).map (max · 0) else some first).bind
        fun start =>
          (if last < 0 then fitWord? half (size + last)
            else (fitWord? half (size - 1)).map (min last)).bind fun stop =>
              if stop < start ∨ size ≤ start ∨ stop < 0 then some none
              else some (some (start.toNat, stop.toNat))

section Words

variable {half : Nat} {first last : Int}

theorem fitWord?_of_fits {number : Int} (notBelow : -(half : Int) ≤ number)
    (below : number < half) : fitWord? half number = some number :=
  if_pos ⟨notBelow, below⟩

/-- The first rank of a range, counted from the start. -/
def startRank (size first : Int) : Int :=
  if first < 0 then max (size + first) 0 else first

/-- The last rank of a range, counted from the start. -/
def stopRank (size last : Int) : Int :=
  if last < 0 then size + last else min last (size - 1)

theorem startRank_nonneg (size first : Int) : 0 ≤ startRank size first := by
  unfold startRank
  split <;> omega

theorem stopRank_lt (size last : Int) : stopRank size last < size := by
  unfold stopRank
  split <;> omega

/-- There is nothing to select between two ranks. -/
abbrev SelectsNothing (size first last : Int) : Prop :=
  stopRank size last < startRank size first ∨ size ≤ startRank size first ∨ stopRank size last < 0

theorem selectRanks_eq {Item : Type} (items : List Item) (first last : Int) :
    selectRanks items first last =
      if SelectsNothing items.length first last then []
      else (items.drop (startRank items.length first).toNat).take
        (stopRank items.length last - startRank items.length first + 1).toNat :=
  rfl

/-- No sum leaves the range of machine words. -/
theorem positionsInWords?_eq {length : Nat} (nonempty : length ≠ 0) (fits : length < half)
    (firstFits : -(half : Int) ≤ first) (lastFits : -(half : Int) ≤ last) :
    positionsInWords? half length first last =
      some (if SelectsNothing length first last then none
        else some ((startRank length first).toNat, (stopRank length last).toNat)) := by
  have sizeInWord : fitWord? half length = some (length : Int) :=
    fitWord?_of_fits (by omega) (by omega)
  have startInWord : (if first < 0 then (fitWord? half (length + first)).map (max · 0)
      else some first) = some (startRank length first) := by
    unfold startRank
    split
    · rw [fitWord?_of_fits (by omega) (by omega)]
      rfl
    · rfl
  have stopInWord : (if last < 0 then fitWord? half (length + last)
      else (fitWord? half (length - 1)).map (min last)) = some (stopRank length last) := by
    unfold stopRank
    split
    · exact fitWord?_of_fits (by omega) (by omega)
    · rw [fitWord?_of_fits (by omega) (by omega)]
      rfl
  rw [positionsInWords?, if_neg nonempty, sizeInWord, Option.bind_some, startInWord,
    Option.bind_some, stopInWord, Option.bind_some]
  split <;> rfl

/-- Positions in machine words are positions of items, and the items between them
are selected. -/
theorem exists_positionsInWords? {Item : Type} (items : List Item)
    (fits : items.length < half) (firstFits : -(half : Int) ≤ first)
    (lastFits : -(half : Int) ≤ last) :
    ∃ positions, positionsInWords? half items.length first last = some positions ∧
      (positions = none → selectRanks items first last = []) ∧
      ∀ start stop, positions = some (start, stop) →
        start ≤ stop ∧ stop < items.length ∧
          selectRanks items first last = (items.drop start).take (stop + 1 - start) := by
  by_cases isEmpty : items.length = 0
  · refine ⟨none, if_pos isEmpty, fun _ => ?_, nofun⟩
    rw [List.length_eq_zero_iff.mp isEmpty]
    simp [selectRanks]
  refine ⟨_, positionsInWords?_eq isEmpty fits firstFits lastFits, ?_⟩
  rw [selectRanks_eq]
  split
  · exact ⟨fun _ => rfl, nofun⟩
  · next selects =>
    refine ⟨nofun, fun start stop positions => ?_⟩
    obtain ⟨rfl, rfl⟩ := Prod.mk.inj (Option.some.inj positions)
    have startNonneg := startRank_nonneg items.length first
    have stopBelow := stopRank_lt items.length last
    have sameCount : (stopRank items.length last - startRank items.length first + 1).toNat =
        (stopRank items.length last).toNat + 1 - (startRank items.length first).toNat := by
      omega
    rw [sameCount]
    exact ⟨by omega, by omega, rfl⟩

end Words

namespace Rankings

open Scoring

/-- The members of a ranked list in either order. -/
def listed (ranked : List (String × Double)) (descending : Bool) : List String :=
  if descending then (ranked.map Prod.fst).reverse else ranked.map Prod.fst

theorem length_listed (ranked : List (String × Double)) (descending : Bool) :
    (listed ranked descending).length = ranked.length := by
  unfold listed
  split <;> simp

theorem range_eq_selectRanks (rankings : Rankings) (key : String) (first last : Int)
    (descending : Bool) :
    rankings.range key first last descending =
      selectRanks (listed (rankings.ranked key) descending) first last :=
  rfl

/-- A range of a ranking has the members between two ranks of the one list in
which every member stands once, with the score that it was given last.  The
bounds of the range are found with machine words, and nothing but the latest
scores matters. -/
theorem range_selects_ranked (scorings : List Scoring) (key : String) :
    ∃ ranked, AreRanked scorings key ranked ∧
      (∀ first last descending, (ofScorings scorings).range key first last descending =
        RedisValue.membersBetween (listed ranked descending) first last) ∧
      (∀ (half : Nat) (first last : Int), ranked.length < half →
        -(half : Int) ≤ first ∧ first < half → -(half : Int) ≤ last ∧ last < half →
          ∃ positions, positionsInWords? half ranked.length first last = some positions ∧
            ∀ descending,
              (positions = none →
                (ofScorings scorings).range key first last descending = []) ∧
              ∀ start stop, positions = some (start, stop) →
                start ≤ stop ∧ stop < ranked.length ∧
                  (ofScorings scorings).range key first last descending =
                    ((listed ranked descending).drop start).take (stop + 1 - start)) ∧
      ∀ others, (∀ member, latest? others key member = latest? scorings key member) →
        ∀ first last descending, (ofScorings others).range key first last descending =
          (ofScorings scorings).range key first last descending := by
  refine ⟨(ofScorings scorings).ranked key, areRanked_ofScorings scorings key, ?_, ?_, ?_⟩
  · intro first last descending
    rw [range_eq_selectRanks, RedisValue.membersBetween_eq_selectRanks]
  · intro half first last fits firstFits lastFits
    have selected (descending : Bool) := exists_positionsInWords?
      (listed ((ofScorings scorings).ranked key) descending)
      (by rw [length_listed]; exact fits) firstFits.1 lastFits.1
    simp only [length_listed] at selected
    obtain ⟨positions, found, -⟩ := selected false
    refine ⟨positions, found, fun descending => ?_⟩
    obtain ⟨samePositions, foundAlso, isEmpty, inside⟩ := selected descending
    cases found.symm.trans foundAlso
    exact ⟨isEmpty, inside⟩
  · intro others sameScores first last descending
    have sameRanked := (areRanked_ofScorings scorings key).eq (areRanked_ofScorings others key)
      sameScores
    rw [range_eq_selectRanks, range_eq_selectRanks, sameRanked]

/-- Two members with equal scores, one of which had a lower score before, and one
with a lower score. -/
def tiedScores : List Scoring :=
  [⟨"board", "b", ⟨0x3FF0000000000000⟩, by decide⟩,
    ⟨"board", "a", ⟨0x4000000000000000⟩, by decide⟩,
    ⟨"other", "a", ⟨0x3FF0000000000000⟩, by decide⟩,
    ⟨"board", "c", ⟨0x8000000000000000⟩, by decide⟩,
    ⟨"board", "b", ⟨0x4000000000000000⟩, by decide⟩]

theorem latest?_tiedScores (member : String) :
    latest? tiedScores.tail.reverse "board" member = latest? tiedScores "board" member := by
  by_cases isFirst : member = "a"
  · subst isFirst
    decide
  by_cases isSecond : member = "b"
  · subst isSecond
    decide
  by_cases isThird : member = "c"
  · subst isThird
    decide
  simp [latest?, tiedScores, Ne.symm isFirst, Ne.symm isSecond, Ne.symm isThird]

theorem range_selects_ranked_tiedScores :
    ∃ ranked, AreRanked tiedScores "board" ranked ∧
      (ofScorings tiedScores).range "board" (-0x8000000000000000) (-2) true =
        RedisValue.membersBetween (listed ranked true) (-0x8000000000000000) (-2) ∧
      (∃ positions, positionsInWords? 0x8000000000000000 ranked.length (-0x8000000000000000)
        0x7FFFFFFFFFFFFFFF = some positions) ∧
      (∀ member, latest? tiedScores.tail.reverse "board" member =
        latest? tiedScores "board" member) ∧
      (ofScorings tiedScores.tail.reverse).range "board" 0 1 false =
        (ofScorings tiedScores).range "board" 0 1 false := by
  obtain ⟨ranked, areRanked, selects, inWords, onlyLatest⟩ :=
    range_selects_ranked tiedScores "board"
  have count : ranked.length < 0x8000000000000000 :=
    areRanked.length_le.trans_lt (by decide)
  refine ⟨ranked, areRanked, selects _ _ _, ?_, latest?_tiedScores,
    onlyLatest _ latest?_tiedScores _ _ _⟩
  obtain ⟨positions, found, -⟩ := inWords 0x8000000000000000 (-0x8000000000000000)
    0x7FFFFFFFFFFFFFFF count (by decide) (by decide)
  exact ⟨positions, found⟩

end Rankings

end MarketStats

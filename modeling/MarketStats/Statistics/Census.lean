import MarketStats.Model.Attributes
import MarketStats.Model.Statistics
import Std.Data.TreeMap
import Std.Data.TreeSet

/-!
# The census of a collection

A census counts the tokens of a collection, tells its owners apart, and counts
for every trait and value the tokens that carry them.  A token whose attributes
cannot be read carries none, but it is still an item and has an owner.
-/

namespace MarketStats

/-- Pairs of a trait and a value are ordered by trait and then by value. -/
abbrev traitOrder : String × String → String × String → Ordering :=
  compareLex (compareOn Prod.fst) (compareOn Prod.snd)

instance : Std.LawfulEqCmp traitOrder where
  eq_of_compare {first second} equal := by
    have ⟨traits, values⟩ := Ordering.then_eq_eq.mp equal
    exact Prod.ext (Std.LawfulEqOrd.eq_of_compare traits) (Std.LawfulEqOrd.eq_of_compare values)

/-- What a collection consists of. -/
structure Census where
  itemCount : Nat
  owners : Std.TreeSet Int64
  attributeCounts : Std.TreeMap (String × String) Nat traitOrder

namespace Census

def empty : Census :=
  { itemCount := 0, owners := {}, attributeCounts := {} }

def countAttribute (counts : Std.TreeMap (String × String) Nat traitOrder)
    (attributePair : String × String) : Std.TreeMap (String × String) Nat traitOrder :=
  counts.insert attributePair (counts.getD attributePair 0 + 1)

def addToken (census : Census) (token : Token) : Census :=
  { itemCount := census.itemCount + 1
    owners := census.owners.insert token.ownerId
    attributeCounts :=
      ((Attributes.parse? token.attributes).getD []).foldl countAttribute
        census.attributeCounts }

def ofTokens (tokens : List Token) : Census :=
  tokens.foldl addToken empty

/-- The counts of all traits and values, in their order. -/
def attributes (census : Census) : List AttributeCount :=
  census.attributeCounts.toList.map fun ((traitName, value), count) =>
    { traitName, value, count := UInt64.ofNat count }

/-- Counting a list of pairs raises the count of each pair by its occurrences. -/
theorem getD_foldl_countAttribute (attributePairs : List (String × String))
    (counts : Std.TreeMap (String × String) Nat traitOrder) (wanted : String × String) :
    (attributePairs.foldl countAttribute counts).getD wanted 0 =
      counts.getD wanted 0 + attributePairs.count wanted := by
  induction attributePairs generalizing counts with
  | nil => simp
  | cons attributePair rest ih =>
      simp only [List.foldl_cons, ih, countAttribute, Std.TreeMap.getD_insert,
        Std.LawfulEqCmp.compare_eq_iff_eq, List.count_cons, beq_iff_eq]
      by_cases same : attributePair = wanted
      · subst same
        simp only [if_true]
        omega
      · simp [same]

@[simp]
theorem itemCount_addToken (census : Census) (token : Token) :
    (census.addToken token).itemCount = census.itemCount + 1 := rfl

theorem itemCount_ofTokens (tokens : List Token) :
    (ofTokens tokens).itemCount = tokens.length := by
  suffices ∀ census : Census,
      (tokens.foldl addToken census).itemCount = census.itemCount + tokens.length by
    simpa [ofTokens, empty] using this empty
  induction tokens with
  | nil => simp
  | cons token rest ih =>
      intro census
      simp only [List.foldl_cons, ih, itemCount_addToken, List.length_cons]
      omega

end Census

end MarketStats

import MarketStats.Proofs.Decimal.Exact

/-!
# The least of some amounts

Amounts are compared by their values, whatever their scales.  Of several amounts
with the least value the earliest one is taken, with its own scale.
-/

namespace MarketStats

namespace Decimal

theorem lt_iff_units_lt (first second : Decimal) :
    first.lt second = true ↔ first.units < second.units := by
  have ofScale : max first.scale second.scale ≤ maxScale :=
    Nat.max_le.mpr ⟨first.scale_le, second.scale_le⟩
  have positive : (0 : Int) < (Nat.pow 10 (maxScale - max first.scale second.scale) : Nat) :=
    Int.natCast_pos.mpr (Nat.pow_pos (by decide))
  rw [lt, decide_eq_true_eq, units, units, first.coefficientAt_mul (Nat.le_max_left ..) ofScale,
    second.coefficientAt_mul (Nat.le_max_right ..) ofScale]
  exact (Int.mul_lt_mul_right positive).symm

/-- An amount has the least value in a list, and no earlier one has it too. -/
def IsEarliestLeast (amount : Decimal) (amounts : List Decimal) : Prop :=
  ∃ earlier later, amounts = earlier ++ amount :: later ∧
    (∀ other ∈ earlier, amount.units < other.units) ∧ ∀ other ∈ later, amount.units ≤ other.units

/-- The earliest least amount stays the same under a further amount, or it gives
way to it. -/
theorem IsEarliestLeast.append {amount : Decimal} {amounts : List Decimal}
    (isLeast : amount.IsEarliestLeast amounts) (next : Decimal) :
    (if next.lt amount then next else amount).IsEarliestLeast (amounts ++ [next]) := by
  obtain ⟨earlier, later, rfl, larger, noSmaller⟩ := isLeast
  split
  · rename_i smaller
    rw [lt_iff_units_lt] at smaller
    refine ⟨earlier ++ amount :: later, [], rfl, fun other listed => ?_, List.forall_mem_nil _⟩
    rcases List.mem_append.mp listed with before | behind
    · exact Int.lt_trans smaller (larger other before)
    · rcases List.mem_cons.mp behind with rfl | inLater
      · exact smaller
      · exact Int.lt_of_lt_of_le smaller (noSmaller other inLater)
  · rename_i notSmaller
    rw [lt_iff_units_lt] at notSmaller
    refine ⟨earlier, later ++ [next], by rw [List.append_assoc, List.cons_append], larger,
      fun other listed => ?_⟩
    rcases List.mem_append.mp listed with inLater | isNext
    · exact noSmaller other inLater
    · obtain rfl := List.mem_singleton.mp isNext
      exact Int.not_lt.mp notSmaller

theorem IsEarliestLeast.foldl {amount : Decimal} {amounts : List Decimal}
    (isLeast : amount.IsEarliestLeast amounts) (rest : List Decimal) :
    (rest.foldl (fun best next => if next.lt best then next else best) amount).IsEarliestLeast
      (amounts ++ rest) := by
  induction rest generalizing amount amounts with
  | nil =>
      rw [List.append_nil]
      exact isLeast
  | cons next rest ih =>
      rw [List.append_cons]
      exact ih (isLeast.append next)

theorem isEarliestLeast_of_least? {amount : Decimal} {amounts : List Decimal}
    (found : least? amounts = some amount) : amount.IsEarliestLeast amounts := by
  cases amounts with
  | nil => exact nomatch found
  | cons first rest =>
      obtain rfl := Option.some.inj found
      have alone : first.IsEarliestLeast [first] :=
        ⟨[], [], rfl, List.forall_mem_nil _, List.forall_mem_nil _⟩
      exact alone.foldl rest

/-- The earliest least price of the items that are kept is the price of one of
them. -/
theorem IsEarliestLeast.exists_of_filter {α : Type} {price : α → Decimal} {keep : α → Bool}
    {items : List α} {amount : Decimal}
    (isLeast : amount.IsEarliestLeast ((items.filter keep).map price)) :
    ∃ earlier item later, items = earlier ++ item :: later ∧ keep item = true ∧
      amount = price item ∧
      (∀ other ∈ earlier, keep other = true → amount.units < (price other).units) ∧
      ∀ other ∈ later, keep other = true → amount.units ≤ (price other).units := by
  obtain ⟨lower, upper, split, larger, noSmaller⟩ := isLeast
  obtain ⟨front, back, splitKept, rfl, mapped⟩ := List.map_eq_append_iff.mp split
  obtain ⟨item, behind, rfl, rfl, rfl⟩ := List.map_eq_cons_iff.mp mapped
  obtain ⟨first, second, rfl, rfl, keptSecond⟩ := List.filter_eq_append_iff.mp splitKept
  obtain ⟨skipped, later, rfl, noneKept, isKept, rfl⟩ := List.filter_eq_cons_iff.mp keptSecond
  refine ⟨first ++ skipped, item, later, by rw [List.append_assoc], isKept, rfl, ?_, ?_⟩
  · intro other listed kept
    rcases List.mem_append.mp listed with inFirst | inSkipped
    · exact larger _ (List.mem_map_of_mem (List.mem_filter.mpr ⟨inFirst, kept⟩))
    · exact absurd kept (noneKept other inSkipped)
  · intro other listed kept
    exact noSmaller _ (List.mem_map_of_mem (List.mem_filter.mpr ⟨listed, kept⟩))

theorem least?_eq_none_iff {amounts : List Decimal} : least? amounts = none ↔ amounts = [] := by
  cases amounts with
  | nil => exact ⟨fun _ => rfl, fun _ => rfl⟩
  | cons first rest => exact ⟨nofun, nofun⟩

end Decimal

end MarketStats

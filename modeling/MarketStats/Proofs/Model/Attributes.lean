import MarketStats.Model.Attributes

/-!
# What the attributes of a token say

A blob is an object of strings, or it says nothing.  The pairs that are read
from it are those that it ends up with when its fields are taken one after the
other, each trait with the value written last.
-/

namespace MarketStats

namespace Attributes

/-- A field whose name and value are strings. -/
def text? (field : Option String × Json) : Option (String × String) := do
  some (← field.1, ← field.2.asText?)

/-- The fields of an object of strings, in the order in which they are written. -/
def fields? (blob : String) : Option (List (String × String)) :=
  match Json.read? (Text.ofString blob) with
  | some (.object fields) => fields.mapM text?
  | _ => none

/-- The value that a blob gives a trait: the one that is written last. -/
def value? (blob traitName : String) : Option String :=
  (fields? blob).bind fun fields => fields.reverse.lookup traitName

variable {traitName otherName value : String} {sorted : List (String × String)}

def IsSorted (sorted : List (String × String)) : Prop :=
  sorted.Pairwise fun first second => first.1 < second.1

theorem mem_insert {entry : String × String} (listed : entry ∈ insert traitName value sorted) :
    entry = (traitName, value) ∨ entry ∈ sorted := by
  induction sorted with
  | nil => exact .inl (List.mem_singleton.mp listed)
  | cons head rest ih =>
      rw [insert] at listed
      split at listed
      · exact List.mem_cons.mp listed
      · split at listed
        · rcases List.mem_cons.mp listed with same | inRest
          · exact .inl same
          · exact .inr (List.mem_cons_of_mem _ inRest)
        · rcases List.mem_cons.mp listed with rfl | inserted
          · exact .inr List.mem_cons_self
          · exact (ih inserted).imp_right (List.mem_cons_of_mem _)

theorem IsSorted.insert (isSorted : IsSorted sorted) (traitName value : String) :
    IsSorted (insert traitName value sorted) := by
  induction sorted with
  | nil => exact List.pairwise_singleton _ _
  | cons head rest ih =>
      obtain ⟨headLeast, restSorted⟩ := List.pairwise_cons.mp isSorted
      rw [Attributes.insert]
      split
      · rename_i less
        refine List.pairwise_cons.mpr ⟨fun entry listed => ?_, isSorted⟩
        rcases List.mem_cons.mp listed with rfl | inRest
        · exact less
        · exact String.lt_trans less (headLeast entry inRest)
      · rename_i notLess
        split
        · rename_i same
          subst same
          exact List.pairwise_cons.mpr ⟨headLeast, restSorted⟩
        · rename_i different
          refine List.pairwise_cons.mpr ⟨fun entry listed => ?_, ih restSorted⟩
          rcases mem_insert listed with rfl | inRest
          · exact Std.lt_of_le_of_ne (String.not_lt.mp notLess) (Ne.symm different)
          · exact headLeast entry inRest

theorem lookup_cons_eq_ite (otherName : String) (entry : String × String)
    (rest : List (String × String)) :
    (entry :: rest).lookup otherName =
      if otherName = entry.1 then some entry.2 else rest.lookup otherName := by
  by_cases same : otherName = entry.1
  · rw [if_pos same, List.lookup_cons, beq_iff_eq.mpr same]
  · rw [if_neg same, List.lookup_cons, beq_eq_false_iff_ne.mpr same]

/-- Behind an insertion a trait has the new value, and every other one has the
value that it had. -/
theorem lookup_insert (traitName value otherName : String) (sorted : List (String × String)) :
    (insert traitName value sorted).lookup otherName =
      if otherName = traitName then some value else sorted.lookup otherName := by
  induction sorted with
  | nil => exact lookup_cons_eq_ite ..
  | cons head rest ih =>
      rw [insert]
      split
      · exact lookup_cons_eq_ite ..
      · split
        · rename_i same
          rw [lookup_cons_eq_ite, lookup_cons_eq_ite, same]
          split <;> rfl
        · rename_i different
          rw [lookup_cons_eq_ite, lookup_cons_eq_ite, ih]
          split
          · rename_i isHead
            rw [if_neg fun isNew => different (isNew.symm.trans isHead)]
          · rfl

theorem IsSorted.mem_iff (isSorted : IsSorted sorted) :
    (traitName, value) ∈ sorted ↔ sorted.lookup traitName = some value := by
  rw [List.lookup_eq_some_iff]
  constructor
  · intro listed
    obtain ⟨earlier, later, rfl⟩ := List.append_of_mem listed
    refine ⟨earlier, later, rfl, fun entry before => bne_iff_ne.mpr fun same => ?_⟩
    have less := (List.pairwise_append.mp isSorted).2.2 entry before _ List.mem_cons_self
    exact String.lt_irrefl _ (same ▸ less)
  · rintro ⟨earlier, later, rfl, -⟩
    exact List.mem_append_right _ List.mem_cons_self

/-- The pairs of some fields, sorted by trait. -/
def ofFields (fields : List (String × String)) : List (String × String) :=
  fields.foldl (fun sorted (name, content) => insert name content sorted) []

theorem isSorted_ofFields (fields : List (String × String)) : IsSorted (ofFields fields) := by
  suffices ∀ sorted, IsSorted sorted →
      IsSorted (fields.foldl (fun sorted (name, content) => insert name content sorted) sorted) from
    this [] .nil
  induction fields with
  | nil => exact fun sorted isSorted => isSorted
  | cons field rest ih => exact fun sorted isSorted => ih _ (isSorted.insert field.1 field.2)

theorem lookup_ofFields (fields : List (String × String)) (traitName : String) :
    (ofFields fields).lookup traitName = fields.reverse.lookup traitName := by
  suffices ∀ sorted : List (String × String),
      (fields.foldl (fun sorted (name, content) => insert name content sorted) sorted).lookup
        traitName = (fields.reverse ++ sorted).lookup traitName by
    rw [ofFields, this, List.append_nil]
  induction fields with
  | nil => exact fun sorted => rfl
  | cons field rest ih =>
      intro sorted
      rw [List.foldl_cons, ih, List.reverse_cons, List.append_assoc, List.lookup_append,
        List.lookup_append, List.singleton_append, lookup_cons_eq_ite]
      exact congrArg _ (lookup_insert field.1 field.2 traitName sorted)

theorem texts_of_object (fields : List (Option String × Json)) :
    ((Json.object fields).asFields?.bind fun named =>
        named.mapM fun (name, content) => content.asText?.map fun text => (name, text)) =
      fields.mapM text? := by
  rw [Json.asFields?]
  induction fields with
  | nil => rfl
  | cons field rest ih =>
      obtain ⟨name, content⟩ := field
      rw [List.mapM_cons, List.mapM_cons, ← ih]
      cases name with
      | none => rfl
      | some name =>
          generalize List.mapM (m := Option) _ rest = named
          cases named with
          | none => cases written : content.asText? <;> simp [text?, written]
          | some named => cases written : content.asText? <;> simp [text?, written]

theorem parse?_eq (blob : String) : parse? blob = (fields? blob).map ofFields := by
  rw [parse?, fields?, Json.decode?]
  cases Json.read? (Text.ofString blob) with
  | none => rfl
  | some value =>
      cases value with
      | object fields =>
          change ofJson? (.object fields) = (fields.mapM text?).map ofFields
          rw [← texts_of_object, ofJson?, Option.map_eq_bind, Option.bind_assoc]
          rfl
      | _ => rfl

/-- A blob says each of its pairs once, and these are the traits with their
values. -/
theorem count_parse? (blob traitName value : String) :
    ((parse? blob).getD []).count (traitName, value) =
      if value? blob traitName = some value then 1 else 0 := by
  rw [parse?_eq, value?]
  cases fields? blob with
  | none => rfl
  | some fields =>
      change (ofFields fields).count (traitName, value) =
        if fields.reverse.lookup traitName = some value then 1 else 0
      have isSorted := isSorted_ofFields fields
      have once : (ofFields fields).Nodup := by
        refine isSorted.imp fun {first second} less same => ?_
        rw [same] at less
        exact String.lt_irrefl _ less
      rw [once.count, ← lookup_ofFields]
      simp only [isSorted.mem_iff]

end Attributes

end MarketStats

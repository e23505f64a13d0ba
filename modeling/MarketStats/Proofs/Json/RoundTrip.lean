import MarketStats.Json.Decode
import MarketStats.Proofs.Json.Tokens

/-!
# Reading back what was written

The machine that puts tokens together goes from expecting a value to having
the value complete while it reads the tokens of the value.  Together with the
way a written value is cut into tokens this means that a written value is read
back as it was.
-/

namespace MarketStats

namespace Json

open Text (ofChars)

theorem run_cons (state : ReaderState) (token : Token) (rest : List Token) :
    run state (token :: rest) = (step state token).bind fun next => run next rest := rfl

/-- Where a container may also be closed, its first item is read as well. -/
theorem run_valueOrClose {stack after : List Frame} {items : List Token}
    (ran : run ⟨.value, stack⟩ items = some ⟨.separator, after⟩) :
    run ⟨.valueOrClose, stack⟩ items = some ⟨.separator, after⟩ := by
  cases items with
  | nil => cases ran
  | cons token rest =>
      rw [run_cons] at ran ⊢
      obtain ⟨next, started, ran⟩ := Option.bind_eq_some_iff.mp ran
      change startValue token stack = some next at started
      change ((startValue token stack).orElse _).bind _ = _
      rw [started]
      exact ran

/-- Where a container may also be closed, its first field is read as well. -/
theorem run_nameOrClose {stack after : List Frame} {fields : List Token}
    (ran : run ⟨.name, stack⟩ fields = some ⟨.separator, after⟩) :
    run ⟨.nameOrClose, stack⟩ fields = some ⟨.separator, after⟩ := by
  cases fields with
  | nil => cases ran
  | cons token rest =>
      rw [run_cons] at ran ⊢
      obtain ⟨next, taken, ran⟩ := Option.bind_eq_some_iff.mp ran
      change takeName token stack = some next at taken
      change ((takeName token stack).orElse _).bind _ = _
      rw [taken]
      exact ran

mutual

/-- The machine reads the tokens of a value and has the value complete. -/
theorem run_tokens (value : Json) (stack : List Frame) :
    run ⟨.value, stack⟩ value.tokens = some (complete value stack) := by
  match value with
  | .null => rfl
  | .bool _ => rfl
  | .number _ => rfl
  | .string _ => rfl
  | .array [] => rfl
  | .array (item :: items) =>
      have inner := run_valueOrClose (run_items (item :: items) (List.cons_ne_nil _ _) [] stack)
      change run ⟨.valueOrClose, .array [] :: stack⟩
        (separateTokens (itemTokens (item :: items)) ++ [.closeArray]) = _
      rw [run_append, inner]
      change some (complete (.array ((item :: items).reverse ++ []).reverse) stack) = _
      rw [List.append_nil, List.reverse_reverse]
  | .object [] => rfl
  | .object (field :: fields) =>
      have inner := run_nameOrClose (run_fields (field :: fields) (List.cons_ne_nil _ _) [] stack)
      change run ⟨.nameOrClose, .object [] none :: stack⟩
        (separateTokens (fieldTokens (field :: fields)) ++ [.closeObject]) = _
      rw [run_append, inner]
      change some (complete (.object ((field :: fields).reverse ++ []).reverse) stack) = _
      rw [List.append_nil, List.reverse_reverse]

/-- The machine reads the tokens of items into an array. -/
theorem run_items (items : List Json) (nonempty : items ≠ []) (earlier : List Json)
    (outer : List Frame) :
    run ⟨.value, .array earlier :: outer⟩ (separateTokens (itemTokens items)) =
      some ⟨.separator, .array (items.reverse ++ earlier) :: outer⟩ := by
  match items with
  | [] => exact absurd rfl nonempty
  | [item] => exact run_tokens item (.array earlier :: outer)
  | item :: next :: more =>
      have first := run_tokens item (.array earlier :: outer)
      have others := run_items (next :: more) (List.cons_ne_nil _ _) (item :: earlier) outer
      change run _ (item.tokens ++ .comma :: separateTokens (itemTokens (next :: more))) = _
      rw [run_append, first]
      change run ⟨.value, .array (item :: earlier) :: outer⟩ _ = _
      rw [others]
      simp

/-- The machine reads the tokens of fields into an object. -/
theorem run_fields (fields : List (Option String × Json)) (nonempty : fields ≠ [])
    (earlier : List (Option String × Json)) (outer : List Frame) :
    run ⟨.name, .object earlier none :: outer⟩ (separateTokens (fieldTokens fields)) =
      some ⟨.separator, .object (fields.reverse ++ earlier) none :: outer⟩ := by
  match fields with
  | [] => exact absurd rfl nonempty
  | [(name, value)] => exact run_tokens value (.object earlier name :: outer)
  | (name, value) :: next :: more =>
      have first := run_tokens value (.object earlier name :: outer)
      have others :=
        run_fields (next :: more) (List.cons_ne_nil _ _) ((name, value) :: earlier) outer
      change run ⟨.value, .object earlier name :: outer⟩
        (value.tokens ++ .comma :: separateTokens (fieldTokens (next :: more))) = _
      rw [run_append, first]
      change run ⟨.name, .object ((name, value) :: earlier) none :: outer⟩ _ = _
      rw [others]
      simp

end

theorem ofTokens?_tokens (value : Json) : ofTokens? value.tokens = some value := by
  unfold ofTokens?
  rw [run_tokens]
  rfl

theorem read?_toChars (value : Json) (writable : value.IsWritable) :
    read? (ofChars value.toChars) = some value := by
  have cut := tokens?_toChars value writable endsNumber_nil
  rw [List.append_nil] at cut
  unfold read?
  rw [cut, tokens?]
  change ofTokens? (value.tokens ++ []) = _
  rw [List.append_nil, ofTokens?_tokens]

/-- Taking a written text apart is taking the value apart. -/
theorem decode?_toText {α : Type} (take : Json → Option α) (value : Json)
    (writable : value.IsWritable) : decode? take (Text.ofString value.toText) = take value := by
  unfold decode? Text.ofString toText
  rw [String.toList_ofList, read?_toChars value writable]
  rfl

section Writing

theorem isWritable_int (value : Int) : (int value).IsWritable := ⟨value, rfl⟩

theorem isWritable_nat (value : Nat) : (nat value).IsWritable := ⟨value, rfl⟩

theorem isWritable_text (content : String) : (text content).IsWritable := rfl

theorem areWritable_map {α : Type} {items : List α} {form : α → Json}
    (writable : ∀ item ∈ items, (form item).IsWritable) : AreWritable (items.map form) := by
  induction items with
  | nil => trivial
  | cons item items ih =>
      obtain ⟨first, others⟩ := List.forall_mem_cons.mp writable
      exact ⟨first, ih others⟩

theorem isWritable_record {fields : List (String × Json)}
    (writable : ∀ field ∈ fields, field.2.IsWritable) : (record fields).IsWritable := by
  change AreWritableFields (fields.map fun field => (some field.1, field.2))
  induction fields with
  | nil => trivial
  | cons field fields ih =>
      obtain ⟨first, others⟩ := List.forall_mem_cons.mp writable
      exact ⟨rfl, first, ih others⟩

end Writing

section Taking

theorem asFields?_record (fields : List (String × Json)) :
    (record fields).asFields? = some fields := by
  change (fields.map _).mapM _ = _
  induction fields with
  | nil => rfl
  | cons field fields ih =>
      rw [List.map_cons, List.mapM_cons, ih]
      rfl

/-- If the names of fields are different, each field occurs once. -/
theorem uniqueField?_of_mem {fields : List (String × Json)}
    (distinct : (fields.map Prod.fst).Nodup) {field : String × Json} (member : field ∈ fields) :
    uniqueField? fields field.1 = some field.2 := by
  suffices once : (fields.filter fun other => other.1 == field.1) = [field] by
    unfold uniqueField?
    rw [once]
  induction fields with
  | nil => cases member
  | cons first fields ih =>
      obtain ⟨fresh, distinctRest⟩ := List.nodup_cons.mp distinct
      rcases List.mem_cons.mp member with rfl | later
      · rw [List.filter_cons_of_pos (by simp), List.filter_eq_nil_iff.mpr]
        intro other isOther sameName
        exact fresh (List.mem_map.mpr ⟨other, isOther, eq_of_beq sameName⟩)
      · rw [List.filter_cons_of_neg, ih distinctRest later]
        intro sameName
        exact fresh (List.mem_map.mpr ⟨field, later, (eq_of_beq sameName).symm⟩)

theorem asRecord?_record {fields : List (String × Json)} {names : List String}
    (named : fields.map Prod.fst = names) (distinct : names.Nodup) :
    (record fields).asRecord? names = some (fields.map Prod.snd) := by
  subst named
  change (asFields? (record fields)).bind _ = _
  rw [asFields?_record, Option.bind_some]
  suffices ∀ part : List (String × Json), part ⊆ fields →
      (part.map Prod.fst).mapM (uniqueField? fields) = some (part.map Prod.snd) from
    this fields fun _ member => member
  intro part inFields
  induction part with
  | nil => rfl
  | cons field part ih =>
      obtain ⟨member, others⟩ := List.forall_mem_cons.mp inFields
      rw [List.map_cons, List.mapM_cons, uniqueField?_of_mem distinct member, ih others]
      rfl

theorem asInt?_int {value : Int} (least : -0x8000000000000000 ≤ value)
    (greatest : value < UInt64.size) : (int value).asInt? = some value := by
  change (NumberText.ofInt value).toInt? = some value
  unfold NumberText.toInt? NumberText.ofInt
  rw [if_pos ⟨rfl, rfl⟩]
  simp only [Nat.ofDigitChars_ten_toDigits, decide_eq_true_eq]
  simp only [UInt64.size] at *
  by_cases negative : value < 0
  · rw [if_pos negative, if_pos (by omega)]
    congr 1
    omega
  · rw [if_neg negative, if_pos (by omega)]
    congr 1
    omega

theorem asUInt64?_nat (value : UInt64) : (nat value.toNat).asUInt64? = some value := by
  have below : value.toNat < UInt64.size := value.toNat_lt
  have taken : (nat value.toNat).asInt? = some (value.toNat : Int) :=
    asInt?_int (by omega) (by omega)
  unfold asUInt64? asNatBelow?
  rw [taken, Option.bind_some, if_pos (by omega)]
  simp

theorem asInt64?_int (value : Int64) : (int value.toInt).asInt64? = some value := by
  have least := value.le_toInt
  have greatest := value.toInt_lt
  have taken : (int value.toInt).asInt? = some value.toInt :=
    asInt?_int (by omega) (by simp only [UInt64.size]; omega)
  unfold asInt64?
  rw [taken, Option.bind_some, if_pos (by omega)]
  simp

theorem mapM_map_of_take {α : Type} {items : List α} {form : α → Json} {take : Json → Option α}
    (taken : ∀ item ∈ items, take (form item) = some item) :
    (items.map form).mapM take = some items := by
  induction items with
  | nil => rfl
  | cons item items ih =>
      obtain ⟨first, others⟩ := List.forall_mem_cons.mp taken
      rw [List.map_cons, List.mapM_cons, first, ih others]
      rfl

end Taking

end Json

end MarketStats

import MarketStats.Json.Reader

/-!
# Cutting written values into tokens

A written value is cut into the tokens that it was put together from.  Only
integers are written as numbers, and a number is read as far as there are
digits, so what stands behind a value must not go on with the number.
-/

namespace MarketStats

namespace Json

open Text (Symbol RawText ofChars)

mutual

/-- A value that is written in a way that can be read again: its numbers are
integers, and its strings and names have content. -/
def IsWritable : Json → Prop
  | .null => True
  | .bool _ => True
  | .number written => ∃ value, written = NumberText.ofInt value
  | .string content => content.isSome = true
  | .array items => AreWritable items
  | .object fields => AreWritableFields fields

def AreWritable : List Json → Prop
  | [] => True
  | item :: items => IsWritable item ∧ AreWritable items

def AreWritableFields : List (Option String × Json) → Prop
  | [] => True
  | (name, value) :: fields =>
      name.isSome = true ∧ IsWritable value ∧ AreWritableFields fields

end

/-- Lists of tokens with commas between them. -/
def separateTokens : List (List Token) → List Token
  | [] => []
  | [item] => item
  | item :: items => item ++ .comma :: separateTokens items

mutual

def tokens : Json → List Token
  | .null => [.scalar .null]
  | .bool value => [.scalar (.bool value)]
  | .number written => [.scalar (.number written)]
  | .string content => [.string content]
  | .array items => .openArray :: (separateTokens (itemTokens items) ++ [.closeArray])
  | .object fields => .openObject :: (separateTokens (fieldTokens fields) ++ [.closeObject])

def itemTokens : List Json → List (List Token)
  | [] => []
  | item :: items => tokens item :: itemTokens items

def fieldTokens : List (Option String × Json) → List (List Token)
  | [] => []
  | (name, value) :: fields => (.string name :: .colon :: tokens value) :: fieldTokens fields

end

/-- A text does not go on with a number. -/
def EndsNumber (text : RawText) : Prop :=
  ∀ symbol ∈ text.head?, symbol = .char ',' ∨ symbol = .char ']' ∨ symbol = .char '}'

theorem endsNumber_nil : EndsNumber [] := by
  rintro symbol ⟨⟩

theorem endsNumber_comma (rest : RawText) : EndsNumber (.char ',' :: rest) := by
  rintro symbol ⟨⟩
  exact .inl rfl

theorem endsNumber_closeArray (rest : RawText) : EndsNumber (.char ']' :: rest) := by
  rintro symbol ⟨⟩
  exact .inr (.inl rfl)

theorem endsNumber_closeObject (rest : RawText) : EndsNumber (.char '}' :: rest) := by
  rintro symbol ⟨⟩
  exact .inr (.inr rfl)

/-- Behind the first token of a text its other tokens follow. -/
theorem tokens?_of_readToken? {symbol : Symbol} {rest behind : RawText} {token : Token}
    (visible : isGap symbol = false) (read : readToken? (symbol :: rest) = some (token, behind)) :
    tokens? (symbol :: rest) = (tokens? behind).map (token :: ·) := by
  rw [tokens?, if_neg (by simp [visible])]
  split
  · rename_i found
    rw [read] at found
    cases found
    rfl
  · rename_i missing
    rw [read] at missing
    cases missing

section Numbers

theorem splitDigits_of_digits {digits : List Char} (allDigits : ∀ digit ∈ digits, digit.isDigit)
    {rest : RawText} (ends : EndsNumber rest) :
    splitDigits (ofChars digits ++ rest) = (digits, rest) := by
  induction digits with
  | nil =>
      change splitDigits rest = ([], rest)
      rcases rest with _ | ⟨symbol, rest⟩
      · rfl
      · rcases ends symbol rfl with rfl | rfl | rfl <;> rfl
  | cons digit digits ih =>
      obtain ⟨isDigit, others⟩ := List.forall_mem_cons.mp allDigits
      change splitDigits (.char digit :: (ofChars digits ++ rest)) = _
      rw [splitDigits, if_pos isDigit, ih others]

/-- The digits of a positive number do not start with a zero. -/
theorem head?_toDigits_ne_zero {value : Nat} (positive : 0 < value) :
    (Nat.toDigits 10 value).head? ≠ some '0' := by
  induction value using Nat.strongRecOn with
  | ind value ih =>
      by_cases small : value < 10
      · rw [Nat.toDigits_of_lt_base small]
        intro isZero
        have := Nat.digitChar_eq_zero.mp (Option.some.inj isZero)
        omega
      · rw [Nat.toDigits_of_base_le (by decide) (by omega)]
        have shorter := ih (value / 10) (by omega) (by omega)
        rcases digits : Nat.toDigits 10 (value / 10) with _ | ⟨first, others⟩
        · exact absurd digits Nat.toDigits_ne_nil
        · rw [digits] at shorter
          exact shorter

theorem readWhole?_toDigits (value : Nat) {rest : RawText} (ends : EndsNumber rest) :
    readWhole? (ofChars (Nat.toDigits 10 value) ++ rest) =
      some (Nat.toDigits 10 value, rest) := by
  have allDigits : ∀ digit ∈ Nat.toDigits 10 value, digit.isDigit := by
    intro digit member
    exact Nat.isDigit_of_mem_toDigits (by decide) (by decide) member
  by_cases isZero : value = 0
  · subst isZero
    rfl
  · have headNotZero := head?_toDigits_ne_zero (Nat.pos_of_ne_zero isZero)
    have split := splitDigits_of_digits allDigits ends
    rcases digits : Nat.toDigits 10 value with _ | ⟨first, others⟩
    · exact absurd digits Nat.toDigits_ne_nil
    rw [digits] at headNotZero split
    unfold readWhole?
    split
    · rename_i starts
      cases starts
      exact absurd rfl headNotZero
    · rw [split]

theorem readFraction?_of_endsNumber {rest : RawText} (ends : EndsNumber rest) :
    readFraction? rest = some ([], rest) := by
  rcases rest with _ | ⟨symbol, rest⟩
  · rfl
  · rcases ends symbol rfl with rfl | rfl | rfl <;> rfl

theorem readOptionalExponent?_of_endsNumber {rest : RawText} (ends : EndsNumber rest) :
    readOptionalExponent? rest = some (none, rest) := by
  rcases rest with _ | ⟨symbol, rest⟩
  · rfl
  · rcases ends symbol rfl with rfl | rfl | rfl <;> rfl

theorem readUnsigned?_toDigits (negative : Bool) (value : Nat) {rest : RawText}
    (ends : EndsNumber rest) :
    readUnsigned? negative (ofChars (Nat.toDigits 10 value) ++ rest) =
      some (⟨negative, Nat.toDigits 10 value, [], none⟩, rest) := by
  simp only [readUnsigned?, readWhole?_toDigits value ends, readFraction?_of_endsNumber ends,
    readOptionalExponent?_of_endsNumber ends, Option.bind_eq_bind, Option.bind_some]

theorem toChars_ofInt (value : Int) :
    (NumberText.ofInt value).toChars =
      (if value < 0 then ['-'] else []) ++ Nat.toDigits 10 value.natAbs := by
  simp [NumberText.toChars, NumberText.ofInt]

/-- A written integer is read as a number. -/
theorem readNumber?_ofInt (value : Int) {rest : RawText} (ends : EndsNumber rest) :
    readNumber? (ofChars (NumberText.ofInt value).toChars ++ rest) =
      some (NumberText.ofInt value, rest) := by
  rw [toChars_ofInt]
  have unsigned := fun negative => readUnsigned?_toDigits negative value.natAbs ends
  by_cases negative : value < 0
  · rw [if_pos negative]
    change readUnsigned? true (ofChars (Nat.toDigits 10 value.natAbs) ++ rest) = _
    rw [unsigned]
    simp [NumberText.ofInt, negative]
  · rw [if_neg negative, List.nil_append]
    have noSign : readNumber? (ofChars (Nat.toDigits 10 value.natAbs) ++ rest) =
        readUnsigned? false (ofChars (Nat.toDigits 10 value.natAbs) ++ rest) := by
      rcases digits : Nat.toDigits 10 value.natAbs with _ | ⟨first, others⟩
      · exact absurd digits Nat.toDigits_ne_nil
      have isDigit : first.isDigit := by
        apply Nat.isDigit_of_mem_toDigits (b := 10) (n := value.natAbs) (by decide) (by decide)
        rw [digits]
        exact List.mem_cons_self
      unfold readNumber?
      split
      · rename_i starts
        cases starts
        cases isDigit
      · rfl
    rw [noSign, unsigned]
    simp [NumberText.ofInt, negative]

end Numbers

section Strings

theorem hexUnit?_hexDigit {code : Nat} (small : code < 0x20) :
    hexUnit? '0' '0' (Text.hexDigit (code / 16)) (Text.hexDigit (code % 16)) = some code := by
  have all : ∀ code < 0x20,
      hexUnit? '0' '0' (Text.hexDigit (code / 16)) (Text.hexDigit (code % 16)) = some code := by
    decide
  exact all code small

/-- A unit below all surrogates stands for a character of its own. -/
theorem assemble?_codeUnit {code : Nat} (small : code < 0x20) (pieces : List Piece) :
    assemble? (.codeUnit code :: pieces) = (assemble? pieces).map (Char.ofNat code :: ·) := by
  have noHigh : ¬ (0xd800 ≤ code ∧ code < 0xdc00) := by omega
  have noLow : ¬ (0xdc00 ≤ code ∧ code < 0xe000) := by omega
  have noSurrogate : ¬ (0xd800 ≤ code ∧ code < 0xe000) := by omega
  rcases pieces with _ | ⟨character | low | _, pieces⟩
  · change (if 0xd800 ≤ code ∧ code < 0xe000 then none else _) = _
    rw [if_neg noSurrogate]
  · change (if 0xd800 ≤ code ∧ code < 0xe000 then none else _) = _
    rw [if_neg noSurrogate]
  · rw [assemble?, if_neg noHigh, if_neg noLow]
  · change (if 0xd800 ≤ code ∧ code < 0xe000 then none else _) = _
    rw [if_neg noSurrogate]

/-- A written character is read as one piece that stands for it. -/
theorem exists_piece (character : Char) :
    ∃ piece,
      (∀ rest, readPieces (ofChars (escapeChar character) ++ rest) =
        (readPieces rest).map fun (pieces, behind) => (piece :: pieces, behind)) ∧
      ∀ pieces, assemble? (piece :: pieces) = (assemble? pieces).map (character :: ·) := by
  by_cases isQuote : character = '"'
  · subst isQuote
    exact ⟨.char '"', fun _ => rfl, fun _ => rfl⟩
  by_cases isBackslash : character = '\\'
  · subst isBackslash
    exact ⟨.char '\\', fun _ => rfl, fun _ => rfl⟩
  by_cases isBackspace : character = '\x08'
  · subst isBackspace
    exact ⟨.char '\x08', fun _ => rfl, fun _ => rfl⟩
  by_cases isFormFeed : character = '\x0c'
  · subst isFormFeed
    exact ⟨.char '\x0c', fun _ => rfl, fun _ => rfl⟩
  by_cases isLineFeed : character = '\n'
  · subst isLineFeed
    exact ⟨.char '\n', fun _ => rfl, fun _ => rfl⟩
  by_cases isReturn : character = '\r'
  · subst isReturn
    exact ⟨.char '\r', fun _ => rfl, fun _ => rfl⟩
  by_cases isTab : character = '\t'
  · subst isTab
    exact ⟨.char '\t', fun _ => rfl, fun _ => rfl⟩
  by_cases isControl : character.toNat < 0x20
  · refine ⟨.codeUnit character.toNat, ?_, ?_⟩
    · intro rest
      have written : escapeChar character =
          ['\\', 'u', '0', '0', Text.hexDigit (character.toNat / 16),
            Text.hexDigit (character.toNat % 16)] := by
        simp only [escapeChar, isQuote, isBackslash, isBackspace, isFormFeed, isLineFeed, isReturn,
          isTab, isControl, if_true, if_false]
      rw [written]
      change (hexUnit? '0' '0' (Text.hexDigit (character.toNat / 16))
        (Text.hexDigit (character.toNat % 16))).bind _ = _
      rw [hexUnit?_hexDigit isControl]
      rfl
    · intro pieces
      rw [assemble?_codeUnit isControl, Char.ofNat_toNat]
  · refine ⟨.char character, ?_, fun _ => rfl⟩
    intro rest
    have written : escapeChar character = [character] := by
      simp only [escapeChar, isQuote, isBackslash, isBackspace, isFormFeed, isLineFeed, isReturn,
        isTab, isControl, if_false]
    rw [written]
    change readPieces (.char character :: rest) = _
    rw [readPieces, if_neg isControl]
    · exact isQuote
    · intro _ _ _ _ _ _
      exact isBackslash
    · intro _ _ _
      exact isBackslash
    · exact isBackslash

/-- The inside of a written string is read up to its closing quote. -/
theorem exists_pieces (content : List Char) (rest : RawText) :
    ∃ pieces,
      readPieces (ofChars (content.flatMap escapeChar ++ ['"']) ++ rest) = some (pieces, rest) ∧
        assemble? pieces = some content := by
  induction content with
  | nil => exact ⟨[], rfl, rfl⟩
  | cons character others ih =>
      obtain ⟨pieces, reads, assembles⟩ := ih
      obtain ⟨piece, readsOne, assemblesOne⟩ := exists_piece character
      refine ⟨piece :: pieces, ?_, ?_⟩
      · have split : ofChars ((character :: others).flatMap escapeChar ++ ['"']) ++ rest =
            ofChars (escapeChar character) ++
              (ofChars (others.flatMap escapeChar ++ ['"']) ++ rest) := by
          simp [ofChars]
        rw [split, readsOne, reads]
        rfl
      · rw [assemblesOne, assembles]
        rfl

/-- A written string is read as a token. -/
theorem readToken?_quote (content : String) (rest : RawText) :
    readToken? (ofChars (quote content.toList) ++ rest) =
      some (.string (some content), rest) := by
  obtain ⟨pieces, reads, assembles⟩ := exists_pieces content.toList rest
  change (readPieces (ofChars (content.toList.flatMap escapeChar ++ ['"']) ++ rest)).map _ = _
  rw [reads]
  simp [assembles]

end Strings

section Values

theorem tokens?_mark {mark : Char} {token : Token} (rest : RawText)
    (visible : isGap (.char mark) = false)
    (read : readToken? (.char mark :: rest) = some (token, rest)) :
    tokens? (.char mark :: rest) = (tokens? rest).map (token :: ·) :=
  tokens?_of_readToken? visible read

theorem tokens?_quote (content : String) (rest : RawText) :
    tokens? (ofChars (quote content.toList) ++ rest) =
      (tokens? rest).map (.string (some content) :: ·) :=
  tokens?_of_readToken? (by decide) (readToken?_quote content rest)

/-- A text that starts like a number has that number for its first token. -/
theorem tokens?_of_readNumber? {first : Char} {rest behind : RawText} {written : NumberText}
    (starts : first = '-' ∨ first.isDigit = true)
    (read : readNumber? (.char first :: rest) = some (written, behind)) :
    tokens? (.char first :: rest) = (tokens? behind).map (.scalar (.number written) :: ·) := by
  have different : ∀ mark : Char, mark ≠ '-' → mark.isDigit = false → first ≠ mark := by
    rintro mark noSign noDigit rfl
    rcases starts with isSign | isDigit
    · exact noSign isSign
    · rw [noDigit] at isDigit
      cases isDigit
  apply tokens?_of_readToken?
  · simp only [isGap, Bool.or_eq_false_iff, beq_eq_false_iff_ne, ne_eq, Symbol.char.injEq]
    exact ⟨⟨⟨different ' ' (by decide) rfl, different '\t' (by decide) rfl⟩,
      different '\n' (by decide) rfl⟩, different '\r' (by decide) rfl⟩
  · unfold readToken?
    split
    case h_11 =>
        rw [read]
        rfl
    all_goals
      rename_i mark
      cases mark
      exact absurd rfl (different _ (by decide) rfl)

theorem tokens?_ofInt (value : Int) {rest : RawText} (ends : EndsNumber rest) :
    tokens? (ofChars (NumberText.ofInt value).toChars ++ rest) =
      (tokens? rest).map (.scalar (.number (NumberText.ofInt value)) :: ·) := by
  have read := readNumber?_ofInt value ends
  have starts : ∀ first ∈ (NumberText.ofInt value).toChars, first = '-' ∨ first.isDigit = true := by
    intro first member
    rw [toChars_ofInt, List.mem_append] at member
    rcases member with isSign | isDigit
    · by_cases negative : value < 0
      · rw [if_pos negative] at isSign
        exact .inl (List.mem_singleton.mp isSign)
      · rw [if_neg negative] at isSign
        cases isSign
    · exact .inr (Nat.isDigit_of_mem_toDigits (by decide) (by decide) isDigit)
  rcases chars : (NumberText.ofInt value).toChars with _ | ⟨first, others⟩
  · simp [toChars_ofInt] at chars
  rw [chars] at read starts
  exact tokens?_of_readNumber? (starts first List.mem_cons_self) read

mutual

/-- A written value is cut into its tokens. -/
theorem tokens?_toChars (value : Json) (writable : value.IsWritable) {rest : RawText}
    (ends : EndsNumber rest) :
    tokens? (ofChars value.toChars ++ rest) = (tokens? rest).map (value.tokens ++ ·) := by
  match value with
  | .null => exact tokens?_of_readToken? (by decide) rfl
  | .bool true => exact tokens?_of_readToken? (by decide) rfl
  | .bool false => exact tokens?_of_readToken? (by decide) rfl
  | .number written =>
      obtain ⟨integer, rfl⟩ := writable
      exact tokens?_ofInt integer ends
  | .string content =>
      obtain ⟨content, rfl⟩ := Option.isSome_iff_exists.mp writable
      exact tokens?_quote content rest
  | .array items =>
      have inner := tokens?_separate_items items writable (endsNumber_closeArray rest)
      have split : ofChars (toChars (.array items)) ++ rest =
          .char '[' :: (ofChars (separate (itemsToChars items)) ++ .char ']' :: rest) := by
        simp [toChars, ofChars]
      rw [split, tokens?_mark _ (by decide) rfl, inner, tokens?_mark _ (by decide) rfl]
      simp [tokens, Option.map_map, Function.comp_def]
  | .object fields =>
      have inner := tokens?_separate_fields fields writable (endsNumber_closeObject rest)
      have split : ofChars (toChars (.object fields)) ++ rest =
          .char '{' :: (ofChars (separate (fieldsToChars fields)) ++ .char '}' :: rest) := by
        simp [toChars, ofChars]
      rw [split, tokens?_mark _ (by decide) rfl, inner, tokens?_mark _ (by decide) rfl]
      simp [tokens, Option.map_map, Function.comp_def]

theorem tokens?_separate_items (items : List Json) (writable : AreWritable items) {rest : RawText}
    (ends : EndsNumber rest) :
    tokens? (ofChars (separate (itemsToChars items)) ++ rest) =
      (tokens? rest).map (separateTokens (itemTokens items) ++ ·) := by
  match items with
  | [] => simp [itemsToChars, separate, itemTokens, separateTokens, ofChars]
  | [item] => exact tokens?_toChars item writable.1 ends
  | item :: next :: more =>
      have first := tokens?_toChars item writable.1
        (endsNumber_comma (ofChars (separate (itemsToChars (next :: more))) ++ rest))
      have others := tokens?_separate_items (next :: more) writable.2 ends
      have split : ofChars (separate (itemsToChars (item :: next :: more))) ++ rest =
          ofChars item.toChars ++
            .char ',' :: (ofChars (separate (itemsToChars (next :: more))) ++ rest) := by
        simp [itemsToChars, separate, ofChars]
      rw [split, first, tokens?_mark _ (by decide) rfl, others]
      simp [itemTokens, separateTokens, Option.map_map, Function.comp_def]

theorem tokens?_separate_fields (fields : List (Option String × Json))
    (writable : AreWritableFields fields) {rest : RawText} (ends : EndsNumber rest) :
    tokens? (ofChars (separate (fieldsToChars fields)) ++ rest) =
      (tokens? rest).map (separateTokens (fieldTokens fields) ++ ·) := by
  match fields with
  | [] => simp [fieldsToChars, separate, fieldTokens, separateTokens, ofChars]
  | [(name, value)] =>
      obtain ⟨hasName, writableValue, -⟩ := writable
      obtain ⟨name, rfl⟩ := Option.isSome_iff_exists.mp hasName
      have behind := tokens?_toChars value writableValue ends
      have split : ofChars (separate (fieldsToChars [(some name, value)])) ++ rest =
          ofChars (quote name.toList) ++ .char ':' :: (ofChars value.toChars ++ rest) := by
        simp [fieldsToChars, separate, ofChars]
      rw [split, tokens?_quote, tokens?_mark _ (by decide) rfl, behind]
      simp [fieldTokens, separateTokens, Option.map_map, Function.comp_def]
  | (name, value) :: next :: more =>
      obtain ⟨hasName, writableValue, writableOthers⟩ := writable
      obtain ⟨name, rfl⟩ := Option.isSome_iff_exists.mp hasName
      have behind := tokens?_toChars value writableValue
        (endsNumber_comma (ofChars (separate (fieldsToChars (next :: more))) ++ rest))
      have others := tokens?_separate_fields (next :: more) writableOthers ends
      have split : ofChars (separate (fieldsToChars ((some name, value) :: next :: more))) ++ rest =
          ofChars (quote name.toList) ++ .char ':' :: (ofChars value.toChars ++
            .char ',' :: (ofChars (separate (fieldsToChars (next :: more))) ++ rest)) := by
        simp [fieldsToChars, separate, ofChars]
      rw [split, tokens?_quote, tokens?_mark _ (by decide) rfl, behind,
        tokens?_mark _ (by decide) rfl, others]
      simp [fieldTokens, separateTokens, Option.map_map, Function.comp_def]

end

end Values

end Json

end MarketStats

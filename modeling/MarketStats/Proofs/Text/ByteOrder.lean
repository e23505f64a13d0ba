/-!
# The order of texts is the order of their bytes

Texts are compared character by character.  In UTF-8 a smaller character has
smaller bytes, and no character begins with all the bytes of another one, so
comparing texts byte by byte gives the same order.
-/

namespace MarketStats

namespace Text

/-- The bytes of a text in UTF-8. -/
def bytes (text : String) : List UInt8 :=
  text.toUTF8.data.toList

theorem bytes_eq (text : String) : bytes text = text.toList.flatMap String.utf8EncodeChar := by
  have encoded : text.toUTF8 = text.toList.utf8Encode := String.utf8Encode_toList.symm
  rw [bytes, encoded, List.utf8Encode, List.data_toByteArray]

/-- Two lists differ at a place where both have an element, and the first one
has the smaller one there.  Nothing that follows matters then. -/
inductive Below : List UInt8 → List UInt8 → Prop
  | here {first second : UInt8} (smaller : first < second) (firsts seconds : List UInt8) :
      Below (first :: firsts) (second :: seconds)
  | later (same : UInt8) {firsts seconds : List UInt8} (below : Below firsts seconds) :
      Below (same :: firsts) (same :: seconds)

theorem Below.append {firsts seconds : List UInt8} (below : Below firsts seconds)
    (more others : List UInt8) : firsts ++ more < seconds ++ others := by
  induction below with
  | here smaller firsts seconds => exact List.Lex.rel smaller
  | later same below ih => exact List.Lex.cons ih

theorem below_cons {first second : Nat} (firstByte : first < 256) (secondByte : second < 256)
    {firsts seconds : List UInt8}
    (below : first < second ∨ first = second ∧ Below firsts seconds) :
    Below (UInt8.ofNat first :: firsts) (UInt8.ofNat second :: seconds) := by
  obtain smaller | ⟨rfl, below⟩ := below
  · refine .here (UInt8.lt_iff_toNat_lt.mpr ?_) _ _
    rw [UInt8.toNat_ofNat_of_lt' firstByte, UInt8.toNat_ofNat_of_lt' secondByte]
    exact smaller
  · exact .later _ below

theorem quotient_lt_or_eq {first second : Nat} (less : first < second) (weight : Nat) :
    first / weight < second / weight ∨ first / weight = second / weight :=
  Nat.lt_or_eq_of_le (Nat.div_le_div_right (Nat.le_of_lt less))

/-- A byte behind the first one decides as the digit that it holds, where the
digits before it are the same. -/
theorem below_continued {first second : Nat} (less : first < second) (weight : Nat)
    {firsts seconds : List UInt8}
    (rest : first / weight = second / weight → Below firsts seconds)
    (same : first / (weight * 64) = second / (weight * 64)) :
    Below (UInt8.ofNat (first / weight % 64 + 128) :: firsts)
      (UInt8.ofNat (second / weight % 64 + 128) :: seconds) := by
  apply below_cons (by omega) (by omega)
  rw [← Nat.div_div_eq_div_mul, ← Nat.div_div_eq_div_mul] at same
  rcases quotient_lt_or_eq less weight with smaller | equal
  · exact .inl (by omega)
  · exact .inr ⟨by rw [equal], rest equal⟩

/-- A smaller character has no more bytes.  If it has fewer, then its first byte
is smaller; if both have as many, the bytes are the digits of the characters. -/
theorem below_utf8EncodeChar {first second : Char} (smaller : first < second) :
    Below (String.utf8EncodeChar first) (String.utf8EncodeChar second) := by
  have less : first.val.toNat < second.val.toNat := smaller
  have bounded : second.val.toNat < 1114112 := by
    rcases second.valid with low | ⟨-, high⟩
    · omega
    · exact high
  unfold String.utf8EncodeChar
  generalize first.val.toNat = value at less ⊢
  generalize second.val.toNat = limit at less bounded ⊢
  dsimp only
  have lastByte : value / 64 = limit / 64 →
      Below [UInt8.ofNat (value % 64 + 128)] [UInt8.ofNat (limit % 64 + 128)] := by
    intro same
    exact below_cons (by omega) (by omega) (.inl (by omega))
  have lastBytes := below_continued less 64 lastByte
  have lastThreeBytes := below_continued less 4096 lastBytes
  by_cases oneByte : value ≤ 127
  · rw [if_pos oneByte]
    repeat' split
    all_goals exact below_cons (by omega) (by omega) (.inl (by omega))
  rw [if_neg oneByte, if_neg (by omega : ¬limit ≤ 127)]
  by_cases twoBytes : value ≤ 2047
  · rw [if_pos twoBytes]
    repeat' split
    · apply below_cons (by omega) (by omega)
      rcases quotient_lt_or_eq less 64 with smaller | same
      · exact .inl (by omega)
      · exact .inr ⟨by rw [same], lastByte same⟩
    all_goals exact below_cons (by omega) (by omega) (.inl (by omega))
  rw [if_neg twoBytes, if_neg (by omega : ¬limit ≤ 2047)]
  by_cases threeBytes : value ≤ 65535
  · rw [if_pos threeBytes]
    split
    · apply below_cons (by omega) (by omega)
      rcases quotient_lt_or_eq less 4096 with smaller | same
      · exact .inl (by omega)
      · exact .inr ⟨by rw [same], lastBytes same⟩
    · exact below_cons (by omega) (by omega) (.inl (by omega))
  · rw [if_neg threeBytes, if_neg (by omega : ¬limit ≤ 65535)]
    apply below_cons (by omega) (by omega)
    rcases quotient_lt_or_eq less 262144 with smaller | same
    · exact .inl (by omega)
    · exact .inr ⟨by rw [same], lastThreeBytes same⟩

theorem flatMap_utf8EncodeChar_lt {firsts seconds : List Char} (smaller : firsts < seconds) :
    firsts.flatMap String.utf8EncodeChar < seconds.flatMap String.utf8EncodeChar := by
  induction smaller with
  | @nil second seconds =>
      rw [List.flatMap_nil, List.flatMap_cons]
      obtain ⟨byte, bytes, encoded⟩ :=
        List.exists_cons_of_ne_nil (String.utf8EncodeChar_ne_nil (c := second))
      rw [encoded]
      exact List.nil_lt_cons _ _
  | @cons same firsts seconds smaller ih =>
      rw [List.flatMap_cons, List.flatMap_cons]
      exact List.append_left_lt ih
  | @rel first firsts second seconds less =>
      rw [List.flatMap_cons, List.flatMap_cons]
      exact (below_utf8EncodeChar less).append _ _

theorem bytes_lt {first second : String} (smaller : first < second) :
    bytes first < bytes second := by
  rw [bytes_eq, bytes_eq]
  exact flatMap_utf8EncodeChar_lt smaller

theorem bytes_le_iff {first second : String} : bytes first ≤ bytes second ↔ first ≤ second := by
  constructor
  · intro ordered
    exact String.not_lt.mp fun less => List.not_lt.mpr ordered (bytes_lt less)
  · intro ordered
    by_cases same : first = second
    · rw [same]
      exact List.le_refl _
    · exact List.le_of_lt (bytes_lt (Std.lt_of_le_of_ne ordered same))

theorem bytes_lt_iff {first second : String} : bytes first < bytes second ↔ first < second := by
  rw [← Std.not_le, ← Std.not_le, bytes_le_iff]

end Text

end MarketStats

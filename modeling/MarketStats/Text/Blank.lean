/-!
# Blank characters

The characters with the Unicode property `White_Space`.
-/

namespace MarketStats

namespace Text

def singleBlanks : List Nat :=
  [0x20, 0x85, 0xa0, 0x1680, 0x2028, 0x2029, 0x202f, 0x205f, 0x3000]

def isBlank (character : Char) : Bool :=
  let code := character.toNat
  (9 ≤ code && code ≤ 13) || (0x2000 ≤ code && code ≤ 0x200a) || singleBlanks.contains code

def skipBlanks (text : List Char) : List Char :=
  text.dropWhile isBlank

theorem isBlank_of_isWhitespace {character : Char} (blank : character.isWhitespace = true) :
    isBlank character = true := by
  simp only [Char.isWhitespace, Bool.or_eq_true, decide_eq_true_eq] at blank
  rcases blank with ((rfl | rfl) | rfl) | rfl <;> rfl

theorem skipBlanks_cons_of_not_blank {character : Char} {rest : List Char}
    (visible : isBlank character = false) :
    skipBlanks (character :: rest) = character :: rest := by
  simp [skipBlanks, visible]

end Text

end MarketStats

import MarketStats.Proofs.Double.Written
import MarketStats.Proofs.Redis.Server
import Std.Data.String.ToInt

/-!
# The words of a command

A server takes the words of a command for that command.
-/

namespace MarketStats

namespace RedisCommand

/-- Scores are finite, and there are keys to be removed. -/
def IsSendable : RedisCommand → Prop
  | .remove keys => keys ≠ []
  | .addScore _ score _ => score.isFinite = true
  | _ => True

theorem ofWords?_words {command : RedisCommand} (sendable : command.IsSendable) :
    ofWords? command.words = some command := by
  cases command with
  | get key => rfl
  | setFor key milliseconds value =>
      change (milliseconds.repr.toNat?.map _) = _
      rw [Nat.toNat?_repr]
      rfl
  | set key value => rfl
  | setIfAbsent key value milliseconds =>
      change (milliseconds.repr.toNat?.map _) = _
      rw [Nat.toNat?_repr]
      rfl
  | remove keys =>
      cases keys with
      | nil => exact absurd rfl sendable
      | cons key keys => rfl
  | addScore key score member =>
      change (Double.read? score.written.toList).map _ = _
      rw [Double.read?_written sendable]
      rfl
  | range key first last =>
      change (first.repr.toInt?.bind fun _ => last.repr.toInt?.bind _) = _
      rw [Int.toInt?_repr, Int.toInt?_repr]
      rfl
  | reverseRange key first last =>
      change (first.repr.toInt?.bind fun _ => last.repr.toInt?.bind _) = _
      rw [Int.toInt?_repr, Int.toInt?_repr]
      rfl

end RedisCommand

end MarketStats

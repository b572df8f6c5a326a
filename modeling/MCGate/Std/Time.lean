import Mathlib.Data.Nat.Notation

/-!
# Time

An `Instant` and a `Duration` are nanoseconds, an instant since some fixed start. The
difference of two instants is zero where the first is not later, as it is for
`Instant::duration_since`.
-/
namespace MCGate

/-- An `Instant`, in nanoseconds. -/
abbrev Instant := Nat

def nanosPerSecond : Nat := 1000000000

/-- `Duration::from_millis(millis.max(0) as u64)` -/
def fromMillis (millis : Int64) : Nat := millis.toInt.toNat * 1000000

end MCGate

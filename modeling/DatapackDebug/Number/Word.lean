namespace DatapackDebug

/-!
# 64-bit words

Coordinates, depths and references are signed 64-bit words, and sums of them wrap around.
-/

/-- The signed 64-bit word that an integer is congruent to. -/
def wrap64 (n : Int) : Int := Int.bmod n (Nat.pow 2 64)

end DatapackDebug

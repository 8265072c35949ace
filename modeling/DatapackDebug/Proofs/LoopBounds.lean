import DatapackDebug.Proofs.ArgumentLocality

namespace DatapackDebug

/-!
# The bounds of loops are enough

The loops of readers have bounds that are taken from the length of the text.  A loop ends before it
has reached its bound, and a larger bound changes nothing.

* `BoundsSuffice`, `boundsSuffice` — all loops of the readers of arguments and of JSON.
-/

/-- The bounds of loops that are used are as good as any larger ones. -/
structure BoundsSuffice : Prop where
  items : ∀ {α : Type} {item : Argument.Scan α}, Argument.Stays item →
    ∀ close unclosed expected t n, t.length < n →
    Argument.separated item close unclosed expected n t =
      Argument.separated item close unclosed expected t.length.succ t
  brackets : ∀ opener t n, t.length < n →
    Argument.balanced opener n 0 t = Argument.balanced opener (t.length + 1) 0 t
  optionValues : ∀ t n, t.length < n →
    Argument.skipOptionValue n 0 t = Argument.skipOptionValue (t.length + 1) 0 t
  tags : ∀ t n, t.length < n → Argument.nbtTagWithin n t = Argument.nbtTag t
  compounds : ∀ t n, t.length ≤ n →
  Argument.nbtCompoundOf (Argument.nbtTagWithin n) t = Argument.nbtCompound t
  paths : ∀ t n, t.length < n → Argument.nbtPathNodes n .start t = Argument.nbtPath t
  arrays : ∀ depth t n, t.length ≤ n →
    Json.readItems (Json.readValue depth) n t = Json.readItems (Json.readValue depth) t.length t
  objects : ∀ depth t n, t.length ≤ n →
    Json.readFields (Json.readValue depth) n t = Json.readFields (Json.readValue depth) t.length t

/-- Each turn of a loop takes something, so that no loop reaches its bound. -/
theorem boundsSuffice : BoundsSuffice where
  items hitem _ _ _ _ _ hn := Argument.separated_bound hitem hn (Nat.lt_succ_self _)
  brackets _ _ _ hn := Argument.balanced_bound hn (Nat.lt_succ_self _)
  optionValues _ _ hn := Argument.skipOptionValue_bound hn (Nat.lt_succ_self _)
  tags t n hn := by
    rw [Argument.nbtTag_eq]
    exact Argument.nbtTagWithin_bound hn (Nat.lt_succ_self _)
  compounds _ _ hn := Argument.nbtCompound_bound hn
  paths t n hn := by
    rw [Argument.nbtPath_eq]
    exact Argument.nbtPathNodes_bound hn (Nat.lt_succ_self _)
  arrays depth _ _ hn :=
    Json.readSequence_bound (Json.leaves_readValue depth) (Json.readValue_nil depth) hn
      (Nat.le_refl _)
  objects depth _ _ hn :=
    Json.readSequence_bound (Json.leaves_readField (Json.leaves_readValue depth)) rfl hn
      (Nat.le_refl _)

end DatapackDebug

import DatapackDebug.Generate.Output
import Mathlib.Data.List.Nodup

namespace DatapackDebug

/-!
# Orders of keys, and look-up in sorted lists

Functions are kept in the order of their names and breakpoints in the order of their positions.

* `Text.compare_eq_compareLex` — texts are ordered as lists of bytes; with it the orders of texts,
  names and positions are linear (`Std.TransCmp`, `Std.LawfulEqCmp`);
* `SortedAssoc.find?_insert`, `SortedAssoc.find?_erase` — what a change does to every look-up;
* `SortedAssoc.Sorted` — the keys increase, which insertion keeps;
* `SortedAssoc.find?_eq_some_iff` — where the keys increase, look-up finds exactly the entries;
* `SortedAssoc.mem_of_mem_ofList` — insertion in order adds nothing.
-/

/-! ### Orders -/

/-- The order of texts is the lexicographic order of their bytes. -/
theorem Text.compare_eq_compareLex : Text.compare = List.compareLex Ord.compare := by
  funext s t
  induction s generalizing t with
  | nil => cases t <;> rfl
  | cons a s ih =>
    cases t with
    | nil => rfl
    | cons b t =>
      rw [List.compareLex_cons_cons, Text.compare, ih]
      by_cases hab : a < b
      · simp [hab, Std.compare_eq_lt.mpr hab]
      · by_cases hba : b < a
        · simp [hab, hba, Std.compare_eq_gt.mpr hba]
        · have : a = b := UInt8.le_antisymm (UInt8.not_lt.mp hba) (UInt8.not_lt.mp hab)
          simp [this]

instance : Std.LawfulEqCmp Text.compare := by
  rw [Text.compare_eq_compareLex]
  infer_instance

instance : Std.TransCmp Text.compare := by
  rw [Text.compare_eq_compareLex]
  infer_instance

@[simp] theorem Text.compare_self (s : Text) : s.compare s = .eq := Std.ReflCmp.compare_self

/-- A text comes before every text that continues it. -/
theorem Text.compare_append_cons (s : Text) (b : UInt8) (t : Text) :
    Text.compare s (s ++ b :: t) = .lt := by
  induction s with
  | nil => rfl
  | cons a s ih => simp [Text.compare, ih]

/-- Two comparisons of parts, one after the other, compare transitively. -/
theorem transCmp_then {α β γ : Type} {f : α → β} {g : α → γ} {cmp : β → β → Ordering}
    {cmp' : γ → γ → Ordering} [Std.TransCmp cmp] [Std.TransCmp cmp'] :
    Std.TransCmp fun a b => (cmp (f a) (f b)).then (cmp' (g a) (g b)) := by
  have hf : Std.TransCmp fun a b => cmp (f a) (f b) :=
    { eq_swap := Std.OrientedCmp.eq_swap, isLE_trans := Std.TransCmp.isLE_trans }
  have hg : Std.TransCmp fun a b => cmp' (g a) (g b) :=
    { eq_swap := Std.OrientedCmp.eq_swap, isLE_trans := Std.TransCmp.isLE_trans }
  exact inferInstanceAs
    (Std.TransCmp (compareLex (fun a b => cmp (f a) (f b)) fun a b => cmp' (g a) (g b)))

instance : Std.TransCmp ResourceName.compare :=
  transCmp_then (f := ResourceName.ns) (g := ResourceName.path)

instance : Std.LawfulEqCmp ResourceName.compare where
  compare_self {r} := by simp [ResourceName.compare]
  eq_of_compare {r s} h := by
    rw [ResourceName.compare, Ordering.then_eq_eq] at h
    obtain ⟨hns, hpath⟩ := h
    cases r; cases s
    simp_all

@[simp] theorem ResourceName.compare_self (r : ResourceName) : r.compare r = .eq :=
  Std.ReflCmp.compare_self

/-- The list of all places is complete. -/
theorem Place.mem_all (p : Place) : p ∈ Place.all := by
  cases p <;> decide

/-- Places are told apart by their rank. -/
theorem Place.rank_injective : Function.Injective Place.rank := fun p q h =>
  List.inj_on_of_nodup_map (l := Place.all) (by decide) p.mem_all q.mem_all h

instance : Std.TransCmp Position.compare :=
  transCmp_then (f := Position.line) (g := fun p => p.place.rank)

instance : Std.LawfulEqCmp Position.compare where
  compare_self {p} := by simp [Position.compare]
  eq_of_compare {p q} h := by
    rw [Position.compare, Ordering.then_eq_eq] at h
    obtain ⟨hline, hplace⟩ := h
    have hrank := Place.rank_injective (Std.LawfulEqCmp.eq_of_compare hplace)
    cases p; cases q
    simp_all

@[simp] theorem Position.compare_self (p : Position) : p.compare p = .eq := Std.ReflCmp.compare_self

/-! ### Look-up -/

namespace SortedAssoc

attribute [simp] insert find?

variable {κ α : Type} {cmp : κ → κ → Ordering}

/-- The keys of a list of pairs increase. -/
def Sorted (cmp : κ → κ → Ordering) (m : List (κ × α)) : Prop :=
  m.Pairwise fun a b => cmp a.1 b.1 = .lt

section LawfulEq

variable [Std.LawfulEqCmp cmp]

/-- Setting the value of a key changes the look-up of that key only. -/
theorem find?_insert [DecidableEq κ] (k k' : κ) (v : α) (m : List (κ × α)) :
    find? cmp k' (insert cmp k v m) = if k' = k then some v else find? cmp k' m := by
  induction m with
  | nil => simp
  | cons e m ih =>
    obtain ⟨k₀, v₀⟩ := e
    cases h : cmp k k₀ with
    | lt => simp [h]
    | eq =>
      have hk : k = k₀ := Std.LawfulEqCmp.eq_of_compare h
      by_cases hk' : k' = k₀ <;> simp [hk, hk', Std.ReflCmp.compare_self]
    | gt =>
      have hk : k ≠ k₀ := by
        rintro rfl
        simp [Std.ReflCmp.compare_self] at h
      by_cases hk' : k' = k₀
      · have : k' ≠ k := fun e => hk (e ▸ hk')
        simp [h, hk', Ne.symm hk]
      · simp [h, ih, hk']

/-- Removing a key changes the look-up of that key only. -/
theorem find?_erase [DecidableEq κ] (k k' : κ) (m : List (κ × α)) :
    find? cmp k' (erase cmp k m) = if k' = k then none else find? cmp k' m := by
  induction m with
  | nil => simp [erase]
  | cons e m ih =>
    obtain ⟨k₀, v₀⟩ := e
    simp only [erase] at ih ⊢
    by_cases hk : k = k₀
    · subst hk
      by_cases hk' : k' = k <;> simp_all
    · by_cases hk' : k' = k₀
      · subst hk'
        simp [hk, Ne.symm hk]
      · simp [hk, hk', ih]

/-- What look-up finds is an entry. -/
theorem mem_of_find? {k : κ} {v : α} {m : List (κ × α)} (h : find? cmp k m = some v) :
    (k, v) ∈ m := by
  induction m with
  | nil => simp at h
  | cons e m ih =>
    obtain ⟨k₀, v₀⟩ := e
    by_cases hk : k = k₀
    · simp_all
    · simp [hk] at h
      exact List.mem_cons_of_mem _ (ih h)

/-- Where the keys increase, look-up finds exactly the entries. -/
theorem find?_eq_some_iff {k : κ} {v : α} {m : List (κ × α)} (hm : Sorted cmp m) :
    find? cmp k m = some v ↔ (k, v) ∈ m := by
  refine ⟨mem_of_find?, fun h => ?_⟩
  induction m with
  | nil => simp at h
  | cons e m ih =>
    obtain ⟨hhead, htail⟩ := List.pairwise_cons.mp hm
    rcases List.mem_cons.mp h with rfl | h
    · simp
    · have hk : k ≠ e.1 := by
        rintro rfl
        simpa [Std.ReflCmp.compare_self] using hhead _ h
      simpa [hk] using ih htail h

/-- A key is looked up with success exactly if an entry has it. -/
theorem isSome_find?_iff {k : κ} {m : List (κ × α)} : (find? cmp k m).isSome ↔ k ∈ m.map (·.1) := by
  induction m with
  | nil => simp
  | cons e m ih =>
    by_cases hk : k = e.1
    · simp [hk]
    · simp [hk, ih]

end LawfulEq

/-- The keys after an insertion are those before and the new one. -/
theorem mem_keys_insert {k k' : κ} {v : α} {m : List (κ × α)}
    (h : k' ∈ (insert cmp k v m).map (·.1)) : k' = k ∨ k' ∈ m.map (·.1) := by
  induction m with
  | nil => simpa using h
  | cons e m ih =>
    cases hc : cmp k e.1 with
    | lt => simpa [hc] using h
    | eq =>
      simp only [insert, hc, List.map_cons, List.mem_cons] at h ⊢
      exact h.imp id Or.inr
    | gt =>
      simp only [insert, hc, List.map_cons, List.mem_cons] at h ⊢
      rcases h with h | h
      · exact .inr (.inl h)
      · exact (ih h).imp id Or.inr

/-- Insertion keeps the keys in order. -/
theorem Sorted.insert [Std.TransCmp cmp] [Std.LawfulEqCmp cmp] {m : List (κ × α)}
    (hm : Sorted cmp m) (k : κ) (v : α) : Sorted cmp (insert cmp k v m) := by
  induction m with
  | nil => simp [Sorted]
  | cons e m ih =>
    obtain ⟨hhead, htail⟩ := List.pairwise_cons.mp hm
    cases hc : cmp k e.1 with
    | lt =>
      simp only [SortedAssoc.insert, hc]
      refine List.pairwise_cons.mpr ⟨fun e' he' => ?_, hm⟩
      rcases List.mem_cons.mp he' with rfl | he'
      · exact hc
      · exact Std.TransCmp.lt_trans hc (hhead e' he')
    | eq =>
      simp only [SortedAssoc.insert, hc]
      have hk : k = e.1 := Std.LawfulEqCmp.eq_of_compare hc
      exact List.pairwise_cons.mpr ⟨fun e' he' => hk ▸ hhead e' he', htail⟩
    | gt =>
      simp only [SortedAssoc.insert, hc]
      refine List.pairwise_cons.mpr ⟨fun e' he' => ?_, ih htail⟩
      rcases mem_keys_insert (List.mem_map_of_mem he') with h | h
      · exact h ▸ Std.OrientedCmp.lt_of_gt hc
      · obtain ⟨e'', he'', heq⟩ := List.mem_map.mp h
        exact heq ▸ hhead e'' he''

/-- All pairs of a list, inserted in order, have increasing keys. -/
theorem sorted_ofList [Std.TransCmp cmp] [Std.LawfulEqCmp cmp] (pairs : List (κ × α)) :
    Sorted cmp (ofList cmp pairs) := by
  suffices h : ∀ m : List (κ × α), Sorted cmp m →
      Sorted cmp (pairs.foldl (fun m (e : κ × α) => SortedAssoc.insert cmp e.1 e.2 m) m) from
    h [] List.Pairwise.nil
  induction pairs with
  | nil => exact fun m hm => hm
  | cons e pairs ih => exact fun m hm => ih _ (hm.insert e.1 e.2)

/-- Every key of a list is looked up with success once the list is sorted by insertion. -/
theorem isSome_find?_ofList [Std.LawfulEqCmp cmp] [DecidableEq κ] {pairs : List (κ × α)} {k : κ}
    (hk : k ∈ pairs.map (·.1)) : (find? cmp k (ofList cmp pairs)).isSome = true := by
  suffices h : ∀ m : List (κ × α), k ∈ pairs.map (·.1) ∨ (find? cmp k m).isSome = true →
      (find? cmp k
          (pairs.foldl (fun m (e : κ × α) => SortedAssoc.insert cmp e.1 e.2 m) m)).isSome =
            true from
    h [] (.inl hk)
  clear hk
  induction pairs with
  | nil => simp
  | cons e pairs ih =>
    intro m h
    refine ih _ ?_
    rw [find?_insert]
    by_cases he : k = e.1
    · exact .inr (by simp [he])
    · rw [if_neg he]
      simpa [he] using h

/-- The entries of a list that is sorted by insertion are entries of the list. -/
theorem mem_of_mem_ofList [Std.TransCmp cmp] [Std.LawfulEqCmp cmp] [DecidableEq κ]
    {pairs : List (κ × α)} {e : κ × α} (he : e ∈ ofList cmp pairs) : e ∈ pairs := by
  suffices h : ∀ (pairs : List (κ × α)) (m : List (κ × α)), Sorted cmp m →
      find? cmp e.1 (pairs.foldl (fun m (p : κ × α) => SortedAssoc.insert cmp p.1 p.2 m) m) =
        some e.2 →
      e ∈ pairs ∨ find? cmp e.1 m = some e.2 by
    have := h pairs [] List.Pairwise.nil ((find?_eq_some_iff (sorted_ofList pairs)).mpr he)
    simpa using this
  intro pairs
  induction pairs with
  | nil => exact fun m _ h => .inr h
  | cons p pairs ih =>
    intro m hm h
    rcases ih _ (hm.insert p.1 p.2) h with h | h
    · exact .inl (List.mem_cons_of_mem _ h)
    · rw [find?_insert] at h
      split at h
      · rename_i hk
        refine .inl (List.mem_cons.mpr (.inl ?_))
        exact Prod.ext hk (by simpa using h.symm)
      · exact .inr h

/-- A new key is one more entry. -/
theorem insert_perm [Std.LawfulEqCmp cmp] {k : κ} {v : α} {m : List (κ × α)}
    (hk : k ∉ m.map (·.1)) : (insert cmp k v m).Perm ((k, v) :: m) := by
  induction m with
  | nil => exact List.Perm.refl _
  | cons e m ih =>
    obtain ⟨hne, hk⟩ : k ≠ e.1 ∧ k ∉ m.map (·.1) := by simpa using hk
    cases hc : cmp k e.1 with
    | lt => simp [hc]
    | eq => exact absurd (Std.LawfulEqCmp.eq_of_compare hc) hne
    | gt =>
      simp only [insert, hc]
      exact ((ih hk).cons e).trans (List.Perm.swap ..)

/-- Pairs with different keys are all there once they are sorted by insertion. -/
theorem ofList_perm [Std.LawfulEqCmp cmp] {pairs : List (κ × α)}
    (hpairs : (pairs.map (·.1)).Nodup) : (ofList cmp pairs).Perm pairs := by
  suffices h : ∀ (pairs m : List (κ × α)), ((pairs ++ m).map (·.1)).Nodup →
      (pairs.foldl (fun m (e : κ × α) => SortedAssoc.insert cmp e.1 e.2 m) m).Perm (pairs ++ m) by
    have hall := h pairs [] (by simpa using hpairs)
    rwa [List.append_nil] at hall
  intro pairs
  induction pairs with
  | nil => exact fun m _ => List.Perm.refl _
  | cons e pairs ih =>
    intro m hnodup
    obtain ⟨hfresh, hnodup⟩ : e.1 ∉ (pairs ++ m).map (·.1) ∧ ((pairs ++ m).map (·.1)).Nodup :=
      List.nodup_cons.mp hnodup
    have hm : (insert cmp e.1 e.2 m).Perm (e :: m) := insert_perm fun hmem =>
      hfresh (by rw [List.map_append]; exact List.mem_append_right _ hmem)
    have hall : (pairs ++ insert cmp e.1 e.2 m).Perm (e :: (pairs ++ m)) :=
      (hm.append_left pairs).trans List.perm_middle
    refine (ih _ ?_).trans hall
    exact (hall.map _).nodup_iff.mpr (List.nodup_cons.mpr ⟨hfresh, hnodup⟩)

end SortedAssoc

end DatapackDebug

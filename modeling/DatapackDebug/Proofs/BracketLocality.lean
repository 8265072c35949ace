import DatapackDebug.Proofs.ScanLocality
import Mathlib.Data.List.Forall2

namespace DatapackDebug

/-!
# What stands between brackets

What is read between brackets is read again where something else follows the closing bracket.  The
loops over items have bounds that are taken from the length of the text.  Each turn of a loop takes
at least one byte, so a loop ends before it has reached its bound, and a larger bound changes
nothing.

* `Argument.bind_congr`, `Argument.loop_bound` — readers agree if they agree on what they are given,
  and loops do if their turns do;
* `Argument.separated_bound`, `Argument.nbtTagWithin_bound`, `Argument.skipOptionValue_bound` — the
  loops over items, tags and the values of options;
* `Argument.local_separated`, `Argument.local_bracketed` — what follows a closing bracket does not
  matter;
* `Argument.local_nbtCompound`, `Argument.local_optionRules`, `Argument.local_selectorOption` —
  tags, and the options of selectors;
* `Argument.selector_eq_ok_iff` — how a selector is spelled.
-/

variable {u : Text} {b : UInt8} {C : Text → Text → Prop}

namespace Argument

variable {α β γ : Type} {base t : Text} {n m : Nat} {scan : Scan α}

/-! ### Agreement -/

/-- Readers one after the other agree if the first ones do. -/
theorem bind_eq_of_eq {scan' : Scan α} (h : scan t = scan' t) (next : α → Scan β) :
    (scan >>= next) t = (scan' >>= next) t := by
  show (scan t >>= fun r => next r.1 r.2) = (scan' t >>= fun r => next r.1 r.2)
  rw [h]

/-- Readers one after the other agree if the first ones do, and the others do on what is left. -/
theorem bind_congr {scan' : Scan α} {next next' : α → Scan β} (hscan : StaysIn t scan)
    (heq : scan t = scan' t)
    (h : ∀ a rest, scan t = .ok (a, rest) → rest <:+ t → next a rest = next' a rest) :
    (scan >>= next) t = (scan' >>= next') t := by
  rw [← bind_eq_of_eq heq]
  show (scan t >>= fun r => next r.1 r.2) = (scan t >>= fun r => next' r.1 r.2)
  cases hok : scan t with
  | error failure => rfl
  | ok r =>
    have hrest : r.2 <:+ t := (hscan t (List.suffix_refl t)).ok r.1 r.2 hok
    exact h r.1 r.2 hok hrest

/-- A loop that goes on with shorter texts only does the same with any two bounds that are large
    enough. -/
theorem loop_bound {σ : Type} {f : Nat → σ → Scan α} {s : σ}
    (hturn : ∀ n m s t, (∀ s u, u.length < t.length → f n s u = f m s u) →
      f (n + 1) s t = f (m + 1) s t)
    (hn : t.length < n) (hm : t.length < m) : f n s t = f m s t := by
  induction n generalizing t m s with
  | zero => exact absurd hn (Nat.not_lt_zero _)
  | succ n ih =>
    obtain ⟨m, rfl⟩ : ∃ k, m = k + 1 := ⟨m - 1, by omega⟩
    exact hturn n m s t fun s u hu => ih (by omega) (by omega)

/-! ### Readers that take something -/

theorem StaysIn.length_le (h : StaysIn t scan) {a : α} {rest : Text}
    (hok : scan t = .ok (a, rest)) :
    rest.length ≤ t.length :=
  ((h t (List.suffix_refl t)).ok a rest hok).length_le

namespace Takes

variable {scan : Scan α}

/-- The first of two readers takes something. -/
theorem bind {next : α → Scan β} (h : Takes scan) (hnext : ∀ a, Stays (next a)) :
    Takes (scan >>= next) := by
  intro t b rest hok
  obtain ⟨a, mid, hscan, hrest⟩ := of_bind_eq_ok hok
  have hlt : mid.length < t.length := h t a mid hscan
  have hle : rest.length ≤ mid.length := (hnext a _).length_le hrest
  omega

/-- The second of two readers takes something. -/
theorem of_next {next : α → Scan β} (h : Stays scan) (hnext : ∀ a, Takes (next a)) :
    Takes (scan >>= next) := by
  intro t b rest hok
  obtain ⟨a, mid, hscan, hrest⟩ := of_bind_eq_ok hok
  have hle : mid.length ≤ t.length := (h _).length_le hscan
  have hlt : rest.length < mid.length := hnext a mid b rest hrest
  omega

theorem map (h : Takes scan) (f : α → β) : Takes (do return f (← scan)) :=
  h.bind fun _ _ => Local.stays (C := AnyRest) (R := Eq) (.pure rfl)

/-- A byte is accepted, or something is taken without it. -/
theorem accept_bind {next : Bool → Scan α}
    (htrue : ∀ t a rest, next true t = .ok (a, rest) → rest.length ≤ t.length)
    (hfalse : Takes (next false)) : Takes (accept b >>= next) := by
  intro t a rest hok
  obtain ⟨found, mid, haccept, hrest⟩ := of_bind_eq_ok hok
  cases found with
  | true =>
    rw [eq_cons_of_accept haccept]
    exact Nat.lt_succ_of_le (htrue mid a rest hrest)
  | false =>
    obtain ⟨rfl, -⟩ := of_accept_eq_false haccept
    exact hfalse mid a rest hrest

end Takes

theorem takes_require (b : UInt8) (cause : Cause) : Takes (require b cause) := by
  intro t u rest h
  rw [eq_cons_of_require h]
  exact Nat.lt_succ_self _

/-- A string takes its quotes at least. -/
theorem takes_quotedString : Takes quotedString := by
  intro t s rest h
  cases t with
  | nil => cases h
  | cons q t =>
    have hquotedString : quotedString (q :: t) =
        if isQuote q then quotedBody q t else .error ⟨.unquoted, q :: t⟩ := rfl
    rw [hquotedString] at h
    split at h
    · have hle : rest.length ≤ t.length := (local_quotedBody q).stays.length_le h
      exact Nat.lt_succ_of_le hle
    · cases h

/-! ### Brackets -/

section Brackets

variable {item item' : Scan α} {close : UInt8} {unclosed expected : Cause}

/-- What follows an item is read in the same way if the items behind a comma are. -/
theorem separatedRest_congr {first : α}
    (h : ∀ u, u <:+ t → u.length < t.length →
      separated item close unclosed expected n u = separated item' close unclosed expected m u) :
    separatedRest item close unclosed expected n first t =
      separatedRest item' close unclosed expected m first t := by
  refine bind_congr local_skipBlanks.stays rfl fun _ t₁ _ ht₁ => ?_
  refine bind_congr local_peek?.stays rfl fun b t₂ _ ht₂ => ?_
  cases b with
  | none => rfl
  | some b =>
    refine bind_congr (local_accept (by decide)).stays rfl fun comma t₃ hcomma ht₃ => ?_
    cases comma with
    | false => rfl
    | true =>
      have ht : t₂ <:+ t := ht₂.trans ht₁
      have hle := ht.length_le
      rw [eq_cons_of_accept hcomma, List.length_cons] at hle
      exact bind_eq_of_eq (h t₃ (ht₃.trans ht) (by omega)) _

/-- A comma is taken between two items. -/
theorem separated_bound (hitem : Stays item) (hn : t.length < n) (hm : t.length < m) :
    separated item close unclosed expected n t = separated item close unclosed expected m t := by
  refine loop_bound (f := fun n (_ : Unit) => separated item close unclosed expected n) (s := ())
    (fun n m _ t ih => ?_) hn hm
  rw [separated_succ, separated_succ]
  refine bind_congr local_skipBlanks.stays rfl fun _ t₁ _ ht₁ => ?_
  refine bind_congr (hitem _) rfl fun first t₂ _ ht₂ => separatedRest_congr fun u _ hu => ?_
  have hle := (ht₂.trans ht₁).length_le
  exact ih () u (by omega)

/-- Items that are read in the same way. -/
theorem separated_congr (hitem : Stays item) (h : ∀ u, u <:+ t → item u = item' u) :
    separated item close unclosed expected n t = separated item' close unclosed expected n t := by
  induction n generalizing t with
  | zero => rfl
  | succ n ih =>
    rw [separated_succ, separated_succ]
    refine bind_congr local_skipBlanks.stays rfl fun _ t₁ _ ht₁ => ?_
    refine bind_congr (hitem _) (h t₁ ht₁) fun first t₂ _ ht₂ =>
      separatedRest_congr fun u hu _ => ?_
    exact ih fun v hv => h v (((hv.trans hu).trans ht₂).trans ht₁)

/-- What is read between brackets depends on the items alone. -/
theorem bracketed_congr (hclose : close ≠ Text.blank) (hitem : Stays item)
    (h : ∀ u, u <:+ t → item u = item' u) :
    bracketed item close unclosed expected t = bracketed item' close unclosed expected t := by
  refine bind_congr local_skipBlanks.stays rfl fun _ t₁ _ ht₁ => ?_
  refine bind_congr (local_accept hclose).stays rfl fun closed t₂ _ ht₂ => ?_
  cases closed with
  | true => rfl
  | false => exact separated_congr hitem fun u hu => h u ((hu.trans ht₂).trans ht₁)

/-- A closing bracket or brace. -/
def IsCloser (b : UInt8) : Prop := b = 0x5d ∨ b = 0x7d

theorem IsCloser.ne_comma (h : IsCloser b) : b ≠ 0x2c := by
  rcases h with rfl | rfl <;> decide

theorem IsCloser.ne_blank (h : IsCloser b) : b ≠ Text.blank := by
  rcases h with rfl | rfl <;> decide

theorem IsCloser.isSeparator (h : IsCloser b) : isSeparator b = true := by
  rcases h with rfl | rfl <;> rfl

theorem unblanked_suffix (t : Text) : unblanked t <:+ t := List.dropWhile_suffix _

/-- Blanks and a separator behind an item. -/
theorem SameSeparator.of_blanks {blanks u' : Text} (hblanks : ∀ c ∈ blanks, c = Text.blank)
    (hb : isSeparator b = true) : SameSeparator (blanks ++ b :: u) (blanks ++ b :: u') := by
  cases blanks with
  | nil => exact ⟨rfl, b, rfl, hb⟩
  | cons c blanks =>
    obtain rfl := hblanks c List.mem_cons_self
    exact ⟨rfl, Text.blank, rfl, rfl⟩

variable (hclose : IsCloser close)

include hclose

section

variable (hitem : Stays item)

include hitem

/-- Items end with their bracket. -/
theorem closes_separated {rest : Text} {as : List α}
    (h : separated item close unclosed expected n t = .ok (as, rest)) : close :: rest <:+ t := by
  induction n generalizing t as with
  | zero => cases h
  | succ n ih =>
    obtain ⟨a, mid, ha, hcase⟩ := (separated_succ_eq_ok_iff hclose.ne_comma).mp h
    have hrest := (hitem _ _ (List.suffix_refl _)).ok a mid ha
    have hmid : unblanked mid <:+ t :=
      ((unblanked_suffix mid).trans hrest).trans (unblanked_suffix t)
    rcases hcase with ⟨after, others, hcomma, hothers, -⟩ | ⟨hend, -⟩
    · rw [hcomma] at hmid
      exact ((ih hothers).trans (List.suffix_cons _ _)).trans hmid
    · rwa [hend] at hmid

/-- The closing bracket is the last byte taken. -/
theorem closes_bracketed {rest : Text} {as : List α}
    (h : bracketed item close unclosed expected t = .ok (as, rest)) : close :: rest <:+ t := by
  rcases bracketed_eq_ok_iff.mp h with ⟨hend, -⟩ | ⟨-, hseparated⟩
  · exact hend ▸ unblanked_suffix t
  · exact (closes_separated hclose hitem hseparated).trans (unblanked_suffix t)

/-- Items take at least the closing bracket. -/
theorem takes_separated (n : Nat) :
    Takes (separated item close unclosed expected n) :=
  fun _ _ _ h => (closes_separated hclose hitem h).length_le

/-- What follows an item begins with blanks and a separator. -/
theorem sameSeparator_of_separatedRest {first : α} {front rest : Text} {as : List α}
    (h : separatedRest item close unclosed expected n first (front ++ rest) = .ok (as, rest))
    (rest' : Text) : SameSeparator (front ++ rest) (front ++ rest') := by
  obtain ⟨b, w, hb, hw⟩ : ∃ b w, isSeparator b = true ∧
      unblanked (front ++ rest) = b :: (w ++ rest) := by
    rcases (separatedRest_eq_ok_iff hclose.ne_comma).mp h with
      ⟨after, others, hcomma, hothers, -⟩ | ⟨hend, -⟩
    · obtain ⟨w, rfl⟩ := closes_separated hclose hitem hothers
      exact ⟨0x2c, w ++ [close], rfl, by rw [hcomma, List.append_assoc, List.singleton_append]⟩
    · exact ⟨close, [], hclose.isSeparator, hend⟩
  obtain ⟨blanks, hsplit, hblanks, -⟩ := exists_blanks (front ++ rest)
  obtain rfl : front = blanks ++ b :: w := by
    refine List.append_cancel_right (hsplit.trans ?_)
    rw [hw, List.append_assoc, List.cons_append]
  simpa only [List.append_assoc, List.cons_append] using .of_blanks hblanks hb

theorem takes_separatedTail (n : Nat) (first : α) (next : Option UInt8) :
    Takes (separatedTail item close unclosed expected n first next) := by
  cases next with
  | none => exact fun t as rest h => by cases h
  | some b =>
    refine .accept_bind (fun t as rest h => ?_) ((takes_require _ _).map _)
    exact ((takes_separated hclose hitem n).map _ t as rest h).le

theorem takes_separatedRest (n : Nat) (first : α) :
    Takes (separatedRest item close unclosed expected n first) :=
  .of_next (fun _ => local_skipBlanks.stays) fun _ =>
    .of_next (fun _ => local_peek?.stays) (takes_separatedTail hclose hitem n first)

end

variable {D : Text → Text → Prop} [Behind D D] {R : α → α → Prop}

/-- What follows an item is found again, as the other items are. -/
theorem local_separatedRest (hitem : Stays item) (hR : ∀ a, R a a)
    (h : Local base D (List.Forall₂ R) (separated item close unclosed expected n)
      (separated item' close unclosed expected n)) {a a' : α} (ha : R a a') :
    Local base D (List.Forall₂ R) (separatedRest item close unclosed expected n a)
      (separatedRest item' close unclosed expected n a') := by
  have htakes : ∀ next, Takes (separatedTail item close unclosed expected n a next) :=
    takes_separatedTail hclose hitem n a
  refine .bind_takes local_skipBlanks (fun _ => .bind_takes local_peek? (fun b => ?_) htakes)
    fun _ => .of_next (fun _ => local_peek?.stays) htakes
  cases b with
  | none => exact .fail _
  | some b =>
    refine .accept_bind 0x2c ?_ ?_ ((takes_require _ _).map _)
    · exact .bind_of (fun as => List.forall₂_same.mpr fun a _ => hR a) h
        (fun as as' has => .pure (.cons ha has)) fun _ hrest => Behind.append hrest _
    · exact .bind (local_require _ _) fun _ => .pure (.cons ha .nil)

/-- Items are found again, whatever follows their bracket; they depend on it no more than a single
    item does. -/
theorem local_separated (hR : ∀ a, R a a)
    (hitem : ∀ base, Local base (Separating D) R item item') (n : Nat) :
    Local base D (List.Forall₂ R) (separated item close unclosed expected n)
      (separated item' close unclosed expected n) := by
  have hstays : Stays item := fun base => (hitem base).stays
  induction n with
  | zero => exact .fail _
  | succ n ih =>
    refine .bind_takes local_skipBlanks (fun _ => ?_) fun _ => .of_next hstays fun a => ?_
    · refine .bind_of hR (hitem base) (fun a a' ha => ?_)
        fun {a as front rest rest'} hok hrest => ?_
      · exact local_separatedRest hclose hstays hR ih ha
      · exact ⟨sameSeparator_of_separatedRest hclose hstays hok rest', Behind.append hrest front⟩
    · exact takes_separatedRest hclose hstays n a

/-- What stands between brackets is found again as single items are. -/
theorem local_bracketed_of (hR : ∀ a, R a a) (hstays' : Stays item')
    (hitem : ∀ base, Local base (Separating D) R item item') :
    Local base D (List.Forall₂ R) (bracketed item close unclosed expected)
      (bracketed item' close unclosed expected) := by
  have hstays : Stays item := fun base => (hitem base).stays
  have hitems : Local base D (List.Forall₂ R)
      (do separated item close unclosed expected (← get).length.succ)
      (do separated item' close unclosed expected (← get).length.succ) :=
    .of_bound (local_separated hclose hR hitem)
      (fun t n hn => separated_bound hstays (Nat.lt_succ_self _) hn)
      fun t n hn => separated_bound hstays' (Nat.lt_succ_self _) hn
  have htakes : Takes (do separated item close unclosed expected (← get).length.succ) :=
    fun t => takes_separated hclose hstays _ t
  refine .bind_takes local_skipBlanks (fun _ => .accept_bind close (.pure .nil) hitems htakes)
    fun _ => .accept_bind (fun t as rest h => ?_) htakes
  cases h
  exact Nat.le_refl _

/-- What stands between brackets is found again, whatever follows. -/
theorem local_bracketed (hR : ∀ a, R a a) (hstays' : Stays item')
    (hitem : ∀ base, Local base SameSeparator R item item') :
    Local base AnyRest (List.Forall₂ R) (bracketed item close unclosed expected)
      (bracketed item' close unclosed expected) :=
  local_bracketed_of hclose hR hstays' fun base => (hitem base).mono fun _ _ h => h.1

/-- Items that are found again as they are. -/
theorem local_bracketed_eq (hitem : ∀ base, Again base SameSeparator item)
    (unclosed expected : Cause) : Again base AnyRest (bracketed item close unclosed expected) := by
  rw [Again, ← List.forall₂_eq_eq_eq]
  exact local_bracketed hclose (fun _ => rfl) (fun base => (hitem base).stays) hitem

end Brackets

/-! ### Maps -/

theorem local_mapEntry {value : Scan α} (h : Again base SameSeparator value) :
    Again base SameSeparator (mapEntry value) := by
  refine .bind (local_spanOf rfl) fun key => .check (.fail _) fun _ => ?_
  refine .bind local_skipBlanks fun _ => .bind (local_require _ _) fun _ => ?_
  exact .bind local_skipBlanks fun _ => h.map _

theorem local_braced {value : Scan α} (h : ∀ base, Again base SameSeparator value) :
    Again base AnyRest (braced value) := by
  refine .bind (local_require _ _) fun _ => ?_
  exact local_bracketed_eq (.inr rfl) (fun base => local_mapEntry (h base)) _ _

theorem local_advancementTest : Again base SameHead advancementTest := by
  refine .bind local_peek? fun b => .ite ?_ ?_
  · exact (local_braced fun _ => local_boolean.weaken).weaken.map _
  · exact local_boolean.weaken.map _

/-- A sort order is a word. -/
theorem local_sortOrder : Again base SameStop sortOrder := by
  refine .get_bind fun start hstart _ => .bind local_word fun w => ?_
  exact .ite (.pure rfl) (.failAt _ hstart)

/-! ### Tags -/

section Tags

variable {value value' : Scan Nbt}

theorem local_nbtEntry (h : Again base SameStop value) :
    Again base SameSeparator (nbtEntry value) := by
  refine .bind local_phrase? fun key => ?_
  cases key with
  | none => exact .fail _
  | some key =>
    refine .bind local_skipBlanks fun _ => .bind (local_require _ _) fun _ => ?_
    exact .bind local_skipBlanks fun _ => h.weaken.map _

/-- A compound is found again if its values are. -/
theorem local_nbtCompoundOf (h : ∀ base, Again base SameStop value) :
    Again base AnyRest (nbtCompoundOf value) := by
  refine .bind (local_require _ _) fun _ => ?_
  exact local_bracketed_eq (.inr rfl) (fun base => local_nbtEntry (h base)) _ _

theorem local_nbtElements (h : ∀ base, Again base SameStop value) :
    Again base AnyRest (nbtElements value) :=
  local_bracketed_eq (.inl rfl) (fun base => (h base).weaken) _ _

theorem nbtEntry_congr (h : ∀ u, u <:+ t → value u = value' u) :
    nbtEntry value t = nbtEntry value' t := by
  refine bind_congr local_phrase?.stays rfl fun key t₁ _ ht₁ => ?_
  cases key with
  | none => rfl
  | some key =>
    refine bind_congr local_skipBlanks.stays rfl fun _ t₂ _ ht₂ => ?_
    refine bind_congr (local_require _ _).stays rfl fun _ t₃ _ ht₃ => ?_
    refine bind_congr local_skipBlanks.stays rfl fun _ t₄ _ ht₄ => ?_
    exact bind_eq_of_eq (h t₄ (((ht₄.trans ht₃).trans ht₂).trans ht₁)) _

/-- The values of a compound stand behind its brace. -/
theorem nbtCompoundOf_congr (hvalue : ∀ base, Again base SameStop value)
    (h : ∀ u, u <:+ t → u.length < t.length → value u = value' u) :
    nbtCompoundOf value t = nbtCompoundOf value' t := by
  refine bind_congr (local_require _ _).stays rfl fun _ t₁ hbrace ht₁ => ?_
  have hlt := takes_require _ _ _ _ _ hbrace
  refine bracketed_congr (by decide) (fun base => (local_nbtEntry (hvalue base)).stays)
    fun u hu => ?_
  refine nbtEntry_congr fun v hv => ?_
  have hle := (hv.trans hu).length_le
  exact h v ((hv.trans hu).trans ht₁) (by omega)

theorem nbtElements_congr (hvalue : Stays value) (h : ∀ u, u <:+ t → value u = value' u) :
    nbtElements value t = nbtElements value' t :=
  bracketed_congr (by decide) hvalue h

end Tags

/-- A tag without brackets and quotes. -/
def nbtPrimitiveTag : Scan Nbt := do
  let w ← word
  if w.isEmpty then fail .missingTag
  return nbtPrimitive w

section TagSteps

variable {n : Nat} {t body rest : Text} {type : NbtArrayType} {tag : Nbt}

/-- A brace opens a compound. -/
theorem nbtTagWithin_compound (n : Nat) (u : Text) :
    nbtTagWithin (n + 1) (0x7b :: u) =
      (do return Nbt.compound (← nbtCompoundOf (nbtTagWithin n))) (0x7b :: u) := by
  rw [nbtTagWithin, get_bind_eq]
  exact congrFun (if_pos rfl) _

/-- A bracket without the type of an array opens a list. -/
theorem nbtTagWithin_list (h : nbtArrayHeader? (0x5b :: u) = none) :
    nbtTagWithin (n + 1) (0x5b :: u) = (do return Nbt.list (← nbtElements (nbtTagWithin n))) u := by
  rw [nbtTagWithin, get_bind_eq]
  dsimp only
  rw [h]
  rfl

/-- A quote opens a string. -/
theorem nbtTagWithin_string (hb : isQuote b = true) (u : Text) :
    nbtTagWithin (n + 1) (b :: u) = (do return Nbt.string (← quotedString)) (b :: u) := by
  have hbrace : ¬ (b == Char.toUInt8 '\x7b') = true := by
    rw [beq_iff_eq]
    rintro rfl
    cases hb
  have hbracket : ¬ (b == Char.toUInt8 '[') = true := by
    rw [beq_iff_eq]
    rintro rfl
    cases hb
  rw [nbtTagWithin, get_bind_eq]
  dsimp only
  rw [if_neg hbrace, if_neg hbracket, if_pos hb]

/-- All else is a number or a plain string. -/
theorem nbtTagWithin_primitive (hbrace : b ≠ 0x7b) (hbracket : b ≠ 0x5b)
    (hquote : isQuote b = false) (u : Text) :
    nbtTagWithin (n + 1) (b :: u) = nbtPrimitiveTag (b :: u) := by
  have hbrace : ¬ (b == Char.toUInt8 '\x7b') = true := by
    rw [beq_iff_eq]
    exact hbrace
  have hbracket : ¬ (b == Char.toUInt8 '[') = true := by
    rw [beq_iff_eq]
    exact hbracket
  rw [nbtTagWithin, get_bind_eq]
  dsimp only
  rw [if_neg hbrace, if_neg hbracket, if_neg (Bool.eq_false_iff.mp hquote)]
  rfl

/-- The header of an array is found before any elements. -/
theorem nbtArrayHeader?_eq_some_iff :
    nbtArrayHeader? t = some (type, body) ↔ t = 0x5b :: type.letter :: 0x3b :: body := by
  constructor
  · intro h
    unfold nbtArrayHeader? at h
    split at h
    case h_4 => cases h
    all_goals
      cases h
      rfl
  · rintro rfl
    cases type <;> rfl

/-- Elements that are closed and stand behind no header do so with another rest. -/
theorem nbtArrayHeader?_append {w : Text} (h : nbtArrayHeader? (0x5b :: (w ++ 0x5d :: rest)) = none)
    (rest' : Text) : nbtArrayHeader? (0x5b :: (w ++ 0x5d :: rest')) = none := by
  refine Option.eq_none_iff_forall_ne_some.mpr fun ⟨type, body⟩ hheader => ?_
  obtain ⟨-, hw⟩ := List.cons.inj (nbtArrayHeader?_eq_some_iff.mp hheader)
  -- The header cannot hold the bracket that closes the elements.
  cases w with
  | nil => cases type <;> cases (List.cons.inj hw).1
  | cons b w =>
    obtain ⟨rfl, hsecond⟩ := List.cons.inj hw
    cases w with
    | nil => exact absurd (List.cons.inj hsecond).1 (by decide)
    | cons c w =>
      obtain ⟨rfl, -⟩ := List.cons.inj hsecond
      cases (nbtArrayHeader?_eq_some_iff.mpr rfl).symm.trans h

/-- The numbers of an array, if its elements are numbers. -/
def nbtArrayOf (start : Text) (type : NbtArrayType) (items : List Nbt) : Scan Nbt :=
  match nbtNumbers? items with
  | some numbers => return .array type numbers
  | none => failAt start .nonNumericElement

theorem nbtTagWithin_array (h : nbtArrayHeader? (0x5b :: u) = some (type, body)) :
    nbtTagWithin (n + 1) (0x5b :: u) =
      (nbtElements (nbtTagWithin n) >>= nbtArrayOf (0x5b :: u) type) body := by
  rw [nbtTagWithin, get_bind_eq]
  dsimp only
  rw [h]
  rfl

theorem nbtTagWithin_array_eq_ok_iff (h : nbtArrayHeader? (0x5b :: u) = some (type, body)) :
    nbtTagWithin (n + 1) (0x5b :: u) = .ok (tag, rest) ↔
      ∃ items numbers, nbtElements (nbtTagWithin n) body = .ok (items, rest) ∧
        nbtNumbers? items = some numbers ∧ tag = .array type numbers := by
  rw [nbtTagWithin_array h]
  constructor
  · intro hok
    obtain ⟨items, mid, hitems, hok⟩ := of_bind_eq_ok hok
    cases hnumbers : nbtNumbers? items with
    | none =>
      rw [nbtArrayOf, hnumbers] at hok
      cases hok
    | some numbers =>
      rw [nbtArrayOf, hnumbers] at hok
      cases hok
      exact ⟨items, numbers, hitems, hnumbers, rfl⟩
  · rintro ⟨items, numbers, hitems, hnumbers, rfl⟩
    rw [bind_eq hitems, nbtArrayOf, hnumbers]
    rfl

end TagSteps

/-- An array or a list is found again if its elements are. -/
theorem LocalAt.nbtTagWithin_bracket (h : ∀ base, Again base SameStop (nbtTagWithin n))
    (ht : 0x5b :: u <:+ base) :
    LocalAt base SameStop Eq (0x5b :: u) (nbtTagWithin (n + 1)) (nbtTagWithin (n + 1)) := by
  have helements : Again base AnyRest (nbtElements (nbtTagWithin n)) := local_nbtElements h
  have hu : u <:+ base := (List.suffix_cons _ u).trans ht
  cases hheader : nbtArrayHeader? (0x5b :: u) with
  | some header =>
    obtain ⟨type, body⟩ := header
    obtain ⟨rfl⟩ := (List.cons.inj (nbtArrayHeader?_eq_some_iff.mp hheader)).2
    have hbody : body <:+ base := (List.suffix_append [type.letter, 0x3b] body).trans hu
    constructor
    · intro tag rest hok
      obtain ⟨items, numbers, hitems, hnumbers, rfl⟩ :=
        (nbtTagWithin_array_eq_ok_iff hheader).mp hok
      obtain ⟨front, rfl, hlocal⟩ := (helements body hbody).ok items rest hitems
      refine ⟨0x5b :: type.letter :: 0x3b :: front, rfl, fun rest' _ => ⟨_, rfl, ?_⟩⟩
      obtain ⟨_, rfl, hitems'⟩ := hlocal rest' trivial
      exact (nbtTagWithin_array_eq_ok_iff (nbtArrayHeader?_eq_some_iff.mpr rfl)).mpr
        ⟨items, numbers, hitems', hnumbers, rfl⟩
    · intro failure herror
      rw [nbtTagWithin_array hheader] at herror
      have harray : Again base NoRest (nbtElements (nbtTagWithin n) >>=
          nbtArrayOf (0x5b :: type.letter :: 0x3b :: body) type) := by
        refine .bind helements fun items => ?_
        unfold nbtArrayOf
        cases nbtNumbers? items with
        | none => exact .failAt _ ht
        | some numbers => exact .pure rfl
      exact (harray body hbody).error failure herror
  | none =>
    constructor
    · intro tag rest hok
      rw [nbtTagWithin_list hheader] at hok
      obtain ⟨items, mid, hitems, hpure⟩ := of_bind_eq_ok hok
      obtain ⟨rfl, rfl⟩ := Prod.mk.inj (Except.ok.inj hpure)
      obtain ⟨front, hfront, hlocal⟩ := (helements u hu).ok items mid hitems
      -- What tells an array from a list stands before the closing bracket.
      obtain ⟨w, rfl⟩ := closes_bracketed (.inl rfl) (fun base => (h base).stays) hitems
      obtain rfl : front = w ++ [0x5d] := by
        refine List.append_cancel_right (hfront.symm.trans ?_)
        rw [List.append_assoc, List.singleton_append]
      refine ⟨0x5b :: (w ++ [0x5d]), by simp, fun rest' _ => ⟨_, rfl, ?_⟩⟩
      obtain ⟨_, rfl, hitems'⟩ := hlocal rest' trivial
      rw [List.append_assoc, List.singleton_append] at hitems'
      rw [List.cons_append, List.append_assoc, List.singleton_append,
        nbtTagWithin_list (nbtArrayHeader?_append hheader rest'), bind_eq hitems']
      rfl
    · intro failure herror
      rw [nbtTagWithin_list hheader] at herror
      exact (helements.map Nbt.list u hu).error failure herror

/-- Tags of any depth are found again. -/
theorem local_nbtTagWithin (n : Nat) : Again base SameStop (nbtTagWithin n) := by
  induction n generalizing base with
  | zero => exact .fail _
  | succ n ih =>
    intro t ht
    cases t with
    | nil => exact .of_error rfl ht
    | cons b u =>
      by_cases hbrace : b = 0x7b
      · subst hbrace
        have hlocal : Again base SameStop
            (do return Nbt.compound (← nbtCompoundOf (nbtTagWithin n))) :=
          (local_nbtCompoundOf fun _ => ih).weaken.map _
        exact (hlocal _ ht).of_head (by decide) (nbtTagWithin_compound n) (nbtTagWithin_compound n)
      by_cases hbracket : b = 0x5b
      · subst hbracket
        exact .nbtTagWithin_bracket (fun _ => ih) ht
      by_cases hblank : b = Text.blank
      · subst hblank
        exact .of_error (nbtTagWithin_primitive hbrace hbracket rfl u) ht
      cases hquote : isQuote b with
      | true =>
        have hlocal : Again base SameStop (do return Nbt.string (← quotedString)) :=
          local_quotedString.weaken.map _
        exact (hlocal _ ht).of_head hblank (nbtTagWithin_string hquote) (nbtTagWithin_string hquote)
      | false =>
        have hlocal : Again base SameStop nbtPrimitiveTag :=
          .bind local_word fun w => .check (.fail _) fun _ => .pure rfl
        exact (hlocal _ ht).of_head hblank (nbtTagWithin_primitive hbrace hbracket hquote)
          (nbtTagWithin_primitive hbrace hbracket hquote)

/-- A tag in a tag stands behind a bracket or a brace. -/
theorem nbtTagWithin_bound (hn : t.length < n) (hm : t.length < m) :
    nbtTagWithin n t = nbtTagWithin m t := by
  refine loop_bound (f := fun n (_ : Unit) => nbtTagWithin n) (s := ()) (fun n m _ t ih => ?_) hn hm
  have hlocal : ∀ base, Again base SameStop (nbtTagWithin n) := fun _ => local_nbtTagWithin n
  rw [nbtTagWithin, nbtTagWithin, get_bind_eq, get_bind_eq]
  cases t with
  | nil => rfl
  | cons b t =>
    have hinner : ∀ u, u <:+ t → nbtTagWithin n u = nbtTagWithin m u := fun u hu =>
      ih () u (Nat.lt_succ_of_le hu.length_le)
    have helements : ∀ v, v <:+ t →
        nbtElements (nbtTagWithin n) v = nbtElements (nbtTagWithin m) v :=
      fun v hv => nbtElements_congr (fun base => (hlocal base).stays) fun u hu =>
        hinner u (hu.trans hv)
    dsimp only
    split
    · exact bind_eq_of_eq (nbtCompoundOf_congr hlocal fun u _ hlt => ih () u hlt) _
    split
    · cases hheader : nbtArrayHeader? (b :: t) with
      | none =>
        dsimp only
        rw [set_bind_eq, set_bind_eq]
        exact bind_eq_of_eq (helements t (List.suffix_refl t)) _
      | some header =>
        obtain ⟨type, body⟩ := header
        have htext := (List.cons.inj (nbtArrayHeader?_eq_some_iff.mp hheader)).2
        have hbody : body <:+ t := htext ▸ List.suffix_append [type.letter, 0x3b] body
        dsimp only
        rw [set_bind_eq, set_bind_eq]
        exact bind_eq_of_eq (helements body hbody) _
    split
    · rfl
    · rfl

theorem nbtTag_eq (t : Text) : nbtTag t = nbtTagWithin (t.length + 1) t := by
  rw [nbtTag, get_bind_eq]

theorem nbtCompound_eq (t : Text) : nbtCompound t = nbtCompoundOf (nbtTagWithin t.length) t := by
  rw [nbtCompound, get_bind_eq]

/-- Compounds may be nested as deep as the text is long. -/
theorem nbtCompound_bound (hn : t.length ≤ n) :
    nbtCompoundOf (nbtTagWithin n) t = nbtCompound t := by
  rw [nbtCompound_eq]
  refine nbtCompoundOf_congr (fun _ => local_nbtTagWithin n) fun u _ hu => ?_
  exact nbtTagWithin_bound (by omega) hu

theorem local_nbtCompound : Again base AnyRest nbtCompound := by
  have hbound : ∀ t n, t.length < n → nbtCompound t = nbtCompoundOf (nbtTagWithin n) t :=
    fun t n hn => (nbtCompound_bound hn.le).symm
  exact .of_bound (fun n => local_nbtCompoundOf fun _ => local_nbtTagWithin n) hbound hbound

/-! ### Options of selectors -/

section OptionSteps

variable {n : Nat} {depth : Int}

theorem skipOptionValue_quote (hb : isQuote b = true) (u : Text) :
    skipOptionValue (n + 1) depth (b :: u) =
      (quotedString >>= fun _ => skipOptionValue n depth) (b :: u) := by
  show (if _ then _ else _ : Scan Unit) (b :: u) = _
  rw [if_pos hb]

theorem skipOptionValue_stop (hquote : isQuote b = false)
    (hb : (depth == 0 && (b == ']' || b == ',')) = true) (u : Text) :
    skipOptionValue (n + 1) depth (b :: u) = (pure () : Scan Unit) (b :: u) := by
  show (if _ then _ else if _ then _ else _ : Scan Unit) (b :: u) = _
  rw [if_neg (Bool.eq_false_iff.mp hquote), if_pos hb]

theorem skipOptionValue_other (hquote : isQuote b = false)
    (hb : (depth == 0 && (b == ']' || b == ',')) = false) (u : Text) :
    skipOptionValue (n + 1) depth (b :: u) = skipOptionValue n (depth + depthChange b) u := by
  show (if _ then _ else if _ then _ else _ : Scan Unit) (b :: u) = _
  rw [if_neg (Bool.eq_false_iff.mp hquote), if_neg (Bool.eq_false_iff.mp hb)]
  rfl

end OptionSteps

/-- Values end before a comma or a bracket outside of their own brackets. -/
theorem local_skipOptionValue (n : Nat) (depth : Int) :
    Again base SameStop (skipOptionValue n depth) := by
  induction n generalizing depth with
  | zero => exact .fail _
  | succ n ih =>
    intro t ht
    cases t with
    | nil => exact .of_error rfl ht
    | cons b u =>
      cases hquote : isQuote b with
      | true =>
        have hblank : b ≠ Text.blank := by
          rintro rfl
          cases hquote
        have hlocal : Again base SameStop (quotedString >>= fun _ => skipOptionValue n depth) :=
          .bind local_quotedString fun _ => ih depth
        exact (hlocal _ ht).of_head hblank (skipOptionValue_quote hquote)
          (skipOptionValue_quote hquote)
      | false =>
        cases hstop : depth == 0 && (b == ']' || b == ',') with
        | true =>
          have hblank : b ≠ Text.blank := by
            rintro rfl
            rw [Bool.and_eq_true] at hstop
            cases hstop.2
          have hlocal : Again base SameStop (pure () : Scan Unit) := .pure rfl
          exact (hlocal _ ht).of_head hblank (skipOptionValue_stop hquote hstop)
            (skipOptionValue_stop hquote hstop)
        | false =>
          have heq : ∀ v, skipOptionValue (n + 1) depth ([b] ++ v) =
              (skipOptionValue n (depth + depthChange b) v).map fun r => (r.1, r.2) := by
            intro v
            rw [List.singleton_append, skipOptionValue_other hquote hstop]
            cases skipOptionValue n (depth + depthChange b) v <;> rfl
          exact LocalAt.behind id (ih _ u ((List.suffix_cons b u).trans ht)) (heq u) heq

/-- Each turn takes a byte or a string. -/
theorem skipOptionValue_bound {depth : Int} (hn : t.length < n) (hm : t.length < m) :
    skipOptionValue n depth t = skipOptionValue m depth t := by
  refine loop_bound (fun n m depth t ih => ?_) hn hm
  refine bind_congr local_peek?.stays rfl fun b t₁ hpeek _ => ?_
  cases b with
  | none => rfl
  | some b =>
    obtain ⟨rfl, hcons⟩ := eq_cons_of_peek? hpeek
    have hlt : (t₁.drop 1).length < t₁.length := hcons ▸ Nat.lt_succ_self _
    dsimp only
    split
    · refine bind_congr local_quotedString.stays rfl fun s t₂ hstring _ => ?_
      exact ih _ _ (takes_quotedString t₁ s t₂ hstring)
    split
    · rfl
    · exact ih _ (t₁.drop 1) hlt

/-- What is taken is found again. -/
theorem local_taken (h : Again base C scan) : Again base C (taken scan) := by
  intro t ht
  cases hscan : scan t with
  | error failure => exact .of_error (by rw [taken, hscan]; rfl) ((h t ht).error failure hscan)
  | ok found =>
    have htaken : taken scan t =
        .ok ((found.1, t.take (t.length - found.2.length)), found.2) := by rw [taken, hscan]; rfl
    refine ⟨fun r rest hok => ?_, fun failure herror => by cases htaken.symm.trans herror⟩
    cases htaken.symm.trans hok
    obtain ⟨front, rfl, hlocal⟩ := (h t ht).ok found.1 found.2 hscan
    refine ⟨front, rfl, fun rest' hrest' => ⟨_, rfl, ?_⟩⟩
    obtain ⟨_, rfl, hscan'⟩ := hlocal rest' hrest'
    rw [taken, hscan', take_length_sub]
    show Except.ok ((_, (front ++ rest').take _), _) = _
    rw [take_length_sub]

theorem local_rawOptionValue : Again base SameStop rawOptionValue := by
  have hbound : ∀ t n, t.length < n → rawOptionValue t =
      (do let r ← taken (skipOptionValue n 0); return SelectorValue.raw (Text.trim r.2)) t := by
    intro t n hn
    have htaken : taken (skipOptionValue (t.length + 1) 0) t = taken (skipOptionValue n 0) t := by
      rw [taken, taken, skipOptionValue_bound (Nat.lt_succ_self _) hn]
    rw [rawOptionValue, get_bind_eq]
    exact bind_eq_of_eq htaken _
  exact .of_bound (fun n => (local_taken (local_skipOptionValue n 0)).map _) hbound hbound

/-- All known options are found again. -/
theorem local_optionRules : ∀ rule ∈ optionRules, Again base SameSeparator rule.2.value := by
  have hnumber : Again base SameSeparator numberOption.value := ((local_decimal _ _ _).map _).weaken
  have hrange : ∀ decimals, Again base SameSeparator (rangeOption decimals).value :=
    fun decimals => ((local_range decimals).map _).weaken
  have hlabel : Again base SameSeparator labelOption.value := (local_word.map _).weaken
  intro rule hrule
  simp only [optionRules, List.mem_cons, List.not_mem_nil, or_false] at hrule
  rcases hrule with rfl | rfl | rfl | rfl | rfl | rfl | rfl | rfl | rfl | rfl | rfl | rfl | rfl |
    rfl | rfl | rfl | rfl | rfl | rfl | rfl | rfl
  · exact (local_braced fun _ => local_advancementTest.weaken).weaken.map _
  · exact hrange true
  · exact hnumber
  · exact hnumber
  · exact hnumber
  · exact hlabel
  · exact hrange false
  · exact ((local_integer _ _ _).map _).weaken
  · exact (local_phrase.map _).weaken
  · exact local_nbtCompound.weaken.map _
  · exact (local_resource.map _).weaken
  · exact (local_braced fun _ => (local_range false).weaken).weaken.map _
  · exact (local_sortOrder.map _).weaken
  · exact hlabel
  · exact hlabel
  · exact (local_resourceRef.map _).weaken
  · exact hnumber
  · exact hrange true
  · exact hnumber
  · exact hrange true
  · exact hnumber

end Argument

/-- What an option says, wherever it stands. -/
def SelectorOption.content (o : SelectorOption) : Text × Bool × SelectorValue :=
  (o.key, o.negated, o.value)

namespace Argument

/-- An option is found again where the distances from the start are those that related rests
    have. -/
theorem local_selectorOption_of {D : Text → Text → Prop} [Behind D D]
    {R : SelectorOption → SelectorOption → Prop} {base : Text} {total total' : Nat}
    (hR : ∀ t t', D t t' → ∀ key negated value,
      R ⟨key, negated, value, total - t.length⟩ ⟨key, negated, value, total' - t'.length⟩) :
    Local base (Separating D) R (selectorOption total) (selectorOption total') := by
  refine .get_bind_of D fun t _ t' => .bind local_phrase? fun key => ?_
  cases key with
  | none =>
    -- Which error it is depends on the rest, but it is an error.
    refine .get_bind fun v _ v' w hw => ?_
    dsimp only
    split <;> exact .of_error rfl hw
  | some key =>
    refine .bind local_skipBlanks fun _ => .bind (local_require _ _) fun _ => ?_
    refine .bind local_skipBlanks fun _ => ?_
    cases hrule : optionRules.lookup key with
    | none => exact .bind local_rawOptionValue fun value => .pure fun ht => hR t t' ht _ _ _
    | some known =>
      obtain ⟨before, after, hrules, -⟩ := List.lookup_eq_some_iff.mp hrule
      have hmem : (key, known) ∈ optionRules := by
        rw [hrules]
        exact List.mem_append_right before List.mem_cons_self
      have hvalue : ∀ negated, Local base (Separating D) (fun o o' => D t t' → R o o')
          (do return ⟨key, negated, ← known.value, total - t.length⟩)
          (do return ⟨key, negated, ← known.value, total' - t'.length⟩) := by
        intro negated
        refine ((local_optionRules _ hmem).mono fun _ _ h => h.1).map fun value ht => ?_
        exact hR t t' ht _ _ _
      refine .ite_bind (local_accept (by decide)) (.pure rfl) fun negated => ?_
      exact .ite (.bind local_skipBlanks fun _ => hvalue negated) (hvalue negated)

/-- An option is found again, at another distance from the start. -/
theorem local_selectorOption {base : Text} (total total' : Nat) :
    Local base SameSeparator (fun o o' => o.content = o'.content) (selectorOption total)
      (selectorOption total') := by
  have hlocal : Local base (Separating AnyRest) (fun o o' => o.content = o'.content)
      (selectorOption total) (selectorOption total') :=
    local_selectorOption_of fun _ _ _ _ _ _ => rfl
  exact hlocal.mono fun _ _ h => ⟨h, trivial⟩

theorem stays_selectorOption (total : Nat) : Stays (selectorOption total) :=
  fun _ => (local_selectorOption total total).stays

/-- The options of a selector, behind the opening bracket. -/
def selectorOptions (total : Nat) : Scan (List SelectorOption) :=
  bracketed (selectorOption total) 0x5d .unclosedOptions .unfinishedOptions

/-- A selector is a letter, and possibly options between brackets. -/
theorem selector_eq_ok_iff {t rest : Text} {s : Selector} :
    selector t = .ok (s, rest) ↔
      ∃ b type u, t = 0x40 :: b :: u ∧ SelectorType.ofLetter? b = some type ∧
        ((∃ v options, u = 0x5b :: v ∧ s = ⟨type, options⟩ ∧
          selectorOptions t.length v = .ok (options, rest)) ∨
          u.head? ≠ some 0x5b ∧ rest = u ∧ s = ⟨type, []⟩) := by
  rw [selector, get_bind_eq]
  constructor
  · intro h
    split at h
    next b u =>
      cases hletter : SelectorType.ofLetter? b with
      | none =>
        rw [hletter] at h
        cases h
      | some type =>
        rw [hletter] at h
        dsimp only at h
        rw [set_bind_eq] at h
        refine ⟨b, type, u, rfl, hletter, ?_⟩
        obtain ⟨opened, mid, haccept, h⟩ := of_bind_eq_ok h
        cases opened with
        | true =>
          obtain ⟨options, mid', hoptions, h⟩ := of_bind_eq_ok h
          cases h
          exact .inl ⟨mid, options, eq_cons_of_accept haccept, rfl, hoptions⟩
        | false =>
          obtain ⟨rfl, hhead⟩ := of_accept_eq_false haccept
          cases h
          exact .inr ⟨hhead, rfl, rfl⟩
    next => cases h
  · rintro ⟨b, type, u, ht, hletter, hcase⟩
    split
    next b' u' =>
      obtain ⟨rfl, rfl⟩ := List.cons.inj (List.cons.inj ht).2
      rw [hletter]
      dsimp only
      rw [set_bind_eq]
      rcases hcase with ⟨v, options, rfl, rfl, hoptions⟩ | ⟨hhead, rfl, rfl⟩
      · have haccept : accept '[' (0x5b :: v) = .ok (true, v) := accept_same _ v
        rw [bind_eq haccept, if_pos rfl]
        exact bind_eq hoptions _
      · have haccept : accept '[' rest = .ok (false, rest) := by
          cases rest with
          | nil => rfl
          | cons c rest => exact accept_other (fun h => hhead (congrArg some h)) rest
        rw [bind_eq haccept, if_neg Bool.false_ne_true]
        rfl
    next hnot => exact absurd ht (hnot b u)

end Argument

end DatapackDebug

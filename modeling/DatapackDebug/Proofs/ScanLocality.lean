import DatapackDebug.Proofs.Names
import DatapackDebug.Proofs.ScanSteps

namespace DatapackDebug

/-!
# Readers depend on what they take

What a reader leaves is the end of its input, and so is what is left where it fails.  What it finds
depends on what it takes off the text and at most on the next byte, so it finds the same where
something else follows.

* `Argument.StaysAt`, `Argument.StaysIn`, `Argument.Stays` — a reader stays within one text, within
  all ends of a text, within all texts;
* `Argument.Local` — a reader stays, and another one finds related values where the rests of their
  texts are related;
* `Argument.Again` — one reader stays and finds the same value;
* `Argument.NoRest`, `AnyRest`, `SameHead`, `SameStop`, `SameSeparator` — rests that are never
  related, that may be anything, that begin with the same byte, that do so where the end counts as a
  blank, and that begin with the same byte behind an item between brackets;
* `Argument.Behind` — what becomes of a relation of rests if the same front stands before them;
* `Local.bind` and the other rules — one for each way to build readers;
* `local_phrase`, `local_decimal`, `local_range`, … — strings, numbers, names and ranges.
-/

variable {u : Text} {b : UInt8} {C : Text → Text → Prop}

namespace Argument

variable {α β γ : Type} {base t : Text}

/-! ### Staying within the input -/

/-- On this text, a reader leaves an end of the text, and fails at an end of `base` only. -/
structure StaysAt (base t : Text) (scan : Scan α) : Prop where
  ok : ∀ a rest, scan t = .ok (a, rest) → rest <:+ t
  error : ∀ failure, scan t = .error failure → failure.rest <:+ base

/-- A reader that stays within `base` wherever it starts there. -/
def StaysIn (base : Text) (scan : Scan α) : Prop := ∀ t, t <:+ base → StaysAt base t scan

/-- A reader that stays within every text. -/
def Stays (scan : Scan α) : Prop := ∀ base, StaysIn base scan

/-- A reader that takes at least one byte. -/
def Takes (scan : Scan α) : Prop := ∀ t a rest, scan t = .ok (a, rest) → rest.length < t.length

/-! ### Rests -/

/-- No two rests. -/
def NoRest (_ _ : Text) : Prop := False

/-- Any two rests. -/
def AnyRest (_ _ : Text) : Prop := True

/-- Rests that begin with the same byte, or are both empty. -/
def SameHead (u u' : Text) : Prop := u.head? = u'.head?

/-- Rests that begin with the same byte, where the end of a text counts as a blank. -/
def SameStop (u u' : Text) : Prop := u.head?.getD Text.blank = u'.head?.getD Text.blank

/-- The bytes that stand behind an item between brackets. -/
def isSeparator (b : UInt8) : Bool := b == Text.blank || b == 0x2c || b == 0x5d || b == 0x7d

/-- Rests that begin with the same byte, which ends an item. -/
def SameSeparator (u u' : Text) : Prop :=
  SameHead u u' ∧ ∃ b, u.head? = some b ∧ isSeparator b = true

/-- Rests that end an item and are related otherwise, too. -/
def Separating (D : Text → Text → Prop) (u u' : Text) : Prop := SameSeparator u u' ∧ D u u'

/-- Rests that are related in one way are related in another if the same front stands before
    them. -/
class Behind (C D : Text → Text → Prop) : Prop where
  append : ∀ {u u'}, C u u' → ∀ front, D (front ++ u) (front ++ u')

section

variable {D : Text → Text → Prop}

instance : Behind NoRest D := ⟨fun h => h.elim⟩

instance : Behind C AnyRest := ⟨fun _ _ => trivial⟩

instance : Behind SameHead SameHead where
  append h front := by
    cases front with
    | nil => exact h
    | cons b front => rfl

instance [Behind C SameHead] : Behind C SameStop where
  append h front := by
    have hhead : SameHead _ _ := Behind.append h front
    rw [SameStop, hhead]

instance : Behind SameStop SameStop where
  append h front := by
    cases front with
    | nil => exact h
    | cons b front => rfl

instance : Behind SameSeparator SameHead := ⟨fun h => Behind.append h.1⟩

instance [Behind SameSeparator C] : Behind (Separating D) C := ⟨fun h => Behind.append h.1⟩

instance [Behind D D] : Behind (Separating D) D := ⟨fun h => Behind.append h.2⟩

/-- A first byte that is no blank is the same. -/
theorem SameStop.head?_eq {u' : Text} (h : SameStop u u') (hb : u.head? = some b)
    (hblank : b ≠ Text.blank) : u'.head? = some b := by
  rw [SameStop, hb, Option.getD_some] at h
  cases hhead : u'.head? with
  | none => simp [hhead, hblank] at h
  | some c => simp [hhead, h]

end

/-! ### Rules -/

/-- On this text, a reader leaves an end of it and fails at an end of `base` only.  For what it
    finds, another reader finds a related value where a related rest follows what was taken. -/
structure LocalAt (base : Text) (C : Text → Text → Prop) (R : α → β → Prop) (t : Text)
    (scan : Scan α) (scan' : Scan β) : Prop where
  ok : ∀ a rest, scan t = .ok (a, rest) → ∃ front, t = front ++ rest ∧
    ∀ rest', C rest rest' → ∃ b, R a b ∧ scan' (front ++ rest') = .ok (b, rest')
  error : ∀ failure, scan t = .error failure → failure.rest <:+ base

/-- The same for all ends of `base`. -/
def Local (base : Text) (C : Text → Text → Prop) (R : α → β → Prop) (scan : Scan α)
    (scan' : Scan β) : Prop :=
  ∀ t, t <:+ base → LocalAt base C R t scan scan'

/-- A reader that stays within `base`, and finds the same again where a related rest follows what it
    takes. -/
def Again (base : Text) (C : Text → Text → Prop) (scan : Scan α) : Prop := Local base C Eq scan scan

namespace LocalAt

variable {R : α → β → Prop} {scan : Scan α} {scan' : Scan β}

theorem suffix (h : LocalAt base C R t scan scan') {a : α} {rest : Text}
    (hok : scan t = .ok (a, rest)) : rest <:+ t := by
  obtain ⟨front, hfront, -⟩ := h.ok a rest hok
  exact ⟨front, hfront.symm⟩

/-- A reader that leaves an end of the text, and may depend on all of it. -/
theorem of_ok {a : α} {rest : Text} (h : scan t = .ok (a, rest)) (hrest : rest <:+ t) :
    LocalAt base NoRest R t scan scan' := by
  refine ⟨fun a' rest' hok => ?_, fun failure herror => by cases h.symm.trans herror⟩
  cases h.symm.trans hok
  obtain ⟨front, hfront⟩ := hrest
  exact ⟨front, hfront.symm, fun _ hnever => hnever.elim⟩

/-- A reader that only fails. -/
theorem of_error {failure : Failure} (h : scan t = .error failure) (hrest : failure.rest <:+ base) :
    LocalAt base C R t scan scan' := by
  constructor
  · intro a rest hok
    cases h.symm.trans hok
  · intro failure' herror
    cases h.symm.trans herror
    exact hrest

/-- A reader that does what another one does with texts that begin with a byte. -/
theorem of_head [Behind C SameStop] {inner : Scan α} {inner' : Scan β} (hb : b ≠ Text.blank)
    (h : LocalAt base C R (b :: u) inner inner') (hscan : ∀ v, scan (b :: v) = inner (b :: v))
    (hscan' : ∀ v, scan' (b :: v) = inner' (b :: v)) : LocalAt base C R (b :: u) scan scan' := by
  constructor
  · intro a rest hok
    rw [hscan] at hok
    obtain ⟨front, hfront, hlocal⟩ := h.ok a rest hok
    refine ⟨front, hfront, fun rest' hrest' => ?_⟩
    have hstop : SameStop (b :: u) (front ++ rest') := hfront ▸ Behind.append hrest' front
    obtain ⟨v, hv⟩ := List.head?_eq_some_iff.mp (hstop.head?_eq rfl hb)
    obtain ⟨a', ha', hinner⟩ := hlocal rest' hrest'
    rw [hv] at hinner ⊢
    exact ⟨a', ha', (hscan' v).trans hinner⟩
  · intro failure herror
    exact h.error failure ((hscan u).symm.trans herror)

/-- A reader that changes what another one finds behind a front. -/
theorem behind {inner inner' : Scan γ} {scan' : Scan α} {front : Text} (f : γ → α)
    (h : LocalAt base C Eq u inner inner')
    (hscan : scan (front ++ u) = (inner u).map fun r => (f r.1, r.2))
    (hscan' : ∀ u', scan' (front ++ u') = (inner' u').map fun r => (f r.1, r.2)) :
    LocalAt base C Eq (front ++ u) scan scan' := by
  cases hinner : inner u with
  | error failure =>
    rw [hinner] at hscan
    exact .of_error hscan (h.error failure hinner)
  | ok r =>
    rw [hinner] at hscan
    refine ⟨fun a rest hok => ?_, fun failure herror => by cases hscan.symm.trans herror⟩
    cases hscan.symm.trans hok
    obtain ⟨front', rfl, hlocal⟩ := h.ok r.1 r.2 hinner
    refine ⟨front ++ front', (List.append_assoc ..).symm, fun rest' hrest' => ⟨f r.1, rfl, ?_⟩⟩
    obtain ⟨_, rfl, hinner'⟩ := hlocal rest' hrest'
    rw [List.append_assoc, hscan', hinner']
    rfl

end LocalAt

namespace Local

variable {D : Text → Text → Prop} {R : α → β → Prop} {scan : Scan α} {scan' : Scan β}
  {next : γ → Scan α} {next' : γ → Scan β}

theorem stays (h : Local base C R scan scan') : StaysIn base scan :=
  fun t ht => ⟨fun _ _ => (h t ht).suffix, (h t ht).error⟩

/-- What is found, and the part of the text that it depends on. -/
theorem found (h : Local t C R scan scan') {a : α} {rest : Text} (hok : scan t = .ok (a, rest)) :
    ∃ front, t = front ++ rest ∧
      ∀ rest', C rest rest' → ∃ b, R a b ∧ scan' (front ++ rest') = .ok (b, rest') :=
  (h t (List.suffix_refl t)).ok a rest hok

theorem mono (h : Local base D R scan scan') (hC : ∀ u u', C u u' → D u u') :
    Local base C R scan scan' := by
  intro t ht
  refine ⟨fun a rest hok => ?_, (h t ht).error⟩
  obtain ⟨front, hfront, hlocal⟩ := (h t ht).ok a rest hok
  exact ⟨front, hfront, fun rest' hrest => hlocal rest' (hC rest rest' hrest)⟩

/-- A reader that depends on less. -/
theorem weaken [Behind C D] (h : Local base D R scan scan') : Local base C R scan scan' :=
  h.mono fun _ _ hrest => Behind.append hrest []

/-- Two readers one after the other: the first depends on what the second takes and on what
    follows. -/
theorem bind_of {Q : γ → γ → Prop} (hQ : ∀ c, Q c c) {scan scan' : Scan γ}
    (h : Local base D Q scan scan') (hnext : ∀ c c', Q c c' → Local base C R (next c) (next' c'))
    (hD : ∀ {c a front rest rest'}, next c (front ++ rest) = .ok (a, rest) → C rest rest' →
      D (front ++ rest) (front ++ rest')) : Local base C R (scan >>= next) (scan' >>= next') := by
  intro t ht
  constructor
  · intro a rest hok
    obtain ⟨c, mid, hscan, hrest⟩ := of_bind_eq_ok hok
    have hmid := ((h t ht).suffix hscan).trans ht
    obtain ⟨front, rfl, hlocal⟩ := (h t ht).ok c mid hscan
    obtain ⟨front', rfl, -⟩ := (hnext c c (hQ c) mid hmid).ok a rest hrest
    refine ⟨front ++ front', (List.append_assoc ..).symm, fun rest' hrest' => ?_⟩
    obtain ⟨c', hc', hscan'⟩ := hlocal (front' ++ rest') (hD hrest hrest')
    obtain ⟨front'', hfront, hlocal'⟩ := (hnext c c' hc' _ hmid).ok a rest hrest
    obtain rfl : front' = front'' := List.append_cancel_right hfront
    obtain ⟨b, hb, hnext'⟩ := hlocal' rest' hrest'
    refine ⟨b, hb, ?_⟩
    rw [List.append_assoc, bind_eq hscan']
    exact hnext'
  · intro failure herror
    rcases of_bind_eq_error herror with hscan | ⟨c, mid, hscan, hrest⟩
    · exact (h t ht).error failure hscan
    · exact (hnext c c (hQ c) mid (((h t ht).suffix hscan).trans ht)).error failure hrest

/-- Two readers one after the other, where the first finds the same value. -/
theorem bind [Behind C D] {scan scan' : Scan γ} (h : Local base D Eq scan scan')
    (hnext : ∀ c, Local base C R (next c) (next' c)) :
    Local base C R (scan >>= next) (scan' >>= next') :=
  bind_of (fun _ => rfl) h (fun c _ hc => hc ▸ hnext c) fun _ hrest' => Behind.append hrest' _

/-- If the second reader takes something, the first one does not depend on what follows. -/
theorem bind_takes [Behind SameHead D] {scan scan' : Scan γ} (h : Local base D Eq scan scan')
    (hnext : ∀ c, Local base C R (next c) (next' c)) (htakes : ∀ c, Takes (next c)) :
    Local base C R (scan >>= next) (scan' >>= next') := by
  refine bind_of (fun _ => rfl) h (fun c _ hc => hc ▸ hnext c)
    fun {c a front rest rest'} hok _ => ?_
  have hlt := htakes c _ a rest hok
  cases front with
  | nil => exact absurd hlt (Nat.lt_irrefl _)
  | cons b front =>
    have hhead : SameHead (b :: front ++ rest) (b :: front ++ rest') := rfl
    exact Behind.append hhead []

/-- A byte that may be accepted does not depend on what follows if something is taken without
    it. -/
theorem accept_bind {next : Bool → Scan α} {next' : Bool → Scan β} (b : UInt8)
    (htrue : Local base C R (next true) (next' true))
    (hfalse : Local base C R (next false) (next' false)) (htakes : Takes (next false)) :
    Local base C R (accept b >>= next) (accept b >>= next') := by
  intro t ht
  constructor
  · intro a rest hok
    obtain ⟨found, mid, haccept, hrest⟩ := of_bind_eq_ok hok
    cases found with
    | true =>
      obtain rfl := eq_cons_of_accept haccept
      have hmid := (List.suffix_cons b mid).trans ht
      obtain ⟨front, rfl, hlocal⟩ := (htrue mid hmid).ok a rest hrest
      refine ⟨b :: front, rfl, fun rest' hrest' => ?_⟩
      rw [List.cons_append, bind_eq (accept_same b _)]
      exact hlocal rest' hrest'
    | false =>
      obtain ⟨rfl, hhead⟩ := of_accept_eq_false haccept
      obtain ⟨front, hfront, hlocal⟩ := (hfalse mid ht).ok a rest hrest
      refine ⟨front, hfront, fun rest' hrest' => ?_⟩
      have hlt := htakes mid a rest hrest
      subst hfront
      cases front with
      | nil => exact absurd hlt (Nat.lt_irrefl _)
      | cons c front =>
        rw [List.cons_append, bind_eq (accept_other (fun h => hhead (congrArg some h)) _)]
        exact hlocal rest' hrest'
  · intro failure herror
    rcases of_bind_eq_error herror with haccept | ⟨found, mid, haccept, hrest⟩
    · exact absurd haccept accept_ne_error
    · cases found with
      | true =>
        obtain rfl := eq_cons_of_accept haccept
        exact (htrue mid ((List.suffix_cons b mid).trans ht)).error failure hrest
      | false =>
        obtain ⟨rfl, -⟩ := of_accept_eq_false haccept
        exact (hfalse mid ht).error failure hrest

/-- Nothing is taken. -/
theorem pure {a : α} {b : β} (h : R a b) : Local base C R (pure a : Scan α) (pure b : Scan β) := by
  intro t ht
  refine ⟨fun a' rest hok => ?_, fun failure herror => by cases herror⟩
  cases hok
  exact ⟨[], rfl, fun rest' _ => ⟨b, h, rfl⟩⟩

/-- A reader that only fails. -/
theorem fail (cause : Cause) : Local base C R (fail cause : Scan α) scan' :=
  fun _ ht => .of_error rfl ht

/-- A reader that only fails, at a place it has passed. -/
theorem failAt {start : Text} (cause : Cause) (hstart : start <:+ base) :
    Local base C R (failAt start cause : Scan α) scan' :=
  fun _ _ => .of_error rfl hstart

/-- A reader that looks at what is left, and uses how the two texts are related. -/
theorem get_bind_of (D : Text → Text → Prop) [Behind C D] {next : Text → Scan α}
    {next' : Text → Scan β} (hnext : ∀ t, t <:+ base → ∀ t',
      Local base C (fun a b => D t t' → R a b) (next t) (next' t')) :
    Local base C R (get >>= next) (get >>= next') := by
  intro t ht
  refine ⟨fun a rest hok => ?_, (hnext t ht t t ht).error⟩
  obtain ⟨front, hfront, -⟩ := (hnext t ht t t ht).ok a rest hok
  refine ⟨front, hfront, fun rest' hrest' => ?_⟩
  have hsame : D t (front ++ rest') := hfront ▸ Behind.append hrest' front
  obtain ⟨front', hfront', hlocal⟩ := (hnext t ht (front ++ rest') t ht).ok a rest hok
  obtain rfl : front = front' := List.append_cancel_right (hfront.symm.trans hfront')
  obtain ⟨b, hb, hok'⟩ := hlocal rest' hrest'
  exact ⟨b, hb hsame, hok'⟩

/-- A reader that looks at what is left. -/
theorem get_bind {next : Text → Scan α} {next' : Text → Scan β}
    (hnext : ∀ t, t <:+ base → ∀ t', Local base C R (next t) (next' t')) :
    Local base C R (get >>= next) (get >>= next') := by
  refine .get_bind_of AnyRest fun t ht t' u hu => ⟨fun a rest hok => ?_, (hnext t ht t' u hu).error⟩
  obtain ⟨front, hfront, hlocal⟩ := (hnext t ht t' u hu).ok a rest hok
  refine ⟨front, hfront, fun rest' hrest' => ?_⟩
  obtain ⟨b, hb, hok'⟩ := hlocal rest' hrest'
  exact ⟨b, fun _ => hb, hok'⟩

theorem ite {c : Prop} [Decidable c] {scan₁ scan₂ : Scan α} {scan₁' scan₂' : Scan β}
    (h₁ : Local base C R scan₁ scan₁') (h₂ : Local base C R scan₂ scan₂') :
    Local base C R (if c then scan₁ else scan₂) (if c then scan₁' else scan₂') := by
  split
  · exact h₁
  · exact h₂

/-- A check that may fail, and what is done after it. -/
theorem check {c : Prop} [Decidable c] {stop stop' : Scan PUnit} {next : PUnit → Scan α}
    {next' : PUnit → Scan β} (hstop : Local base AnyRest Eq stop stop')
    (hnext : ∀ r, Local base C R (next r) (next' r)) :
    Local base C R (if c then stop >>= next else next ⟨⟩)
      (if c then stop' >>= next' else next' ⟨⟩) :=
  ite (bind hstop hnext) (hnext ⟨⟩)

/-- Two ways to find what the same reader goes on with. -/
theorem ite_bind [Behind C D] {c : Prop} [Decidable c] {scan₁ scan₁' scan₂ scan₂' : Scan γ}
    (h₁ : Local base D Eq scan₁ scan₁') (h₂ : Local base D Eq scan₂ scan₂')
    (hnext : ∀ a, Local base C R (next a) (next' a)) :
    Local base C R (if c then scan₁ >>= next else scan₂ >>= next)
      (if c then scan₁' >>= next' else scan₂' >>= next') :=
  ite (bind h₁ hnext) (bind h₂ hnext)

/-- A value that is read and then wrapped. -/
theorem map {scan scan' : Scan γ} {f : γ → α} {f' : γ → β} (h : Local base C Eq scan scan')
    (hR : ∀ c, R (f c) (f' c)) :
    Local base C R (do return f (← scan)) (do return f' (← scan')) := by
  intro t ht
  constructor
  · intro a rest hok
    obtain ⟨c, mid, hscan, hpure⟩ := of_bind_eq_ok hok
    obtain ⟨rfl, rfl⟩ := Prod.mk.inj (Except.ok.inj hpure)
    obtain ⟨front, hfront, hlocal⟩ := (h t ht).ok c mid hscan
    refine ⟨front, hfront, fun rest' hrest' => ?_⟩
    obtain ⟨_, rfl, hscan'⟩ := hlocal rest' hrest'
    exact ⟨f' c, hR c, bind_eq hscan' _⟩
  · intro failure herror
    rcases of_bind_eq_error herror with hscan | ⟨c, mid, -, hpure⟩
    · exact (h t ht).error failure hscan
    · cases hpure

/-- A reader whose bound is taken from the length of the text, where larger bounds make no
    difference. -/
theorem of_bound {within : Nat → Scan α} {within' : Nat → Scan β}
    (h : ∀ n, Local base C R (within n) (within' n))
    (hbound : ∀ t n, t.length < n → scan t = within n t)
    (hbound' : ∀ t n, t.length < n → scan' t = within' n t) : Local base C R scan scan' := by
  intro t ht
  have hwithin := fun n hn => (hbound t n hn).symm
  have hfirst := Nat.lt_succ_self t.length
  constructor
  · intro a rest hok
    obtain ⟨front, hfront, -⟩ := (h _ t ht).ok a rest ((hwithin _ hfirst).trans hok)
    refine ⟨front, hfront, fun rest' hrest' => ?_⟩
    -- One bound is enough for both texts.
    obtain ⟨n, hn, hn'⟩ : ∃ n, t.length < n ∧ (front ++ rest').length < n :=
      ⟨t.length + (front ++ rest').length + 1, by omega, by omega⟩
    obtain ⟨front', hfront', hlocal⟩ := (h n t ht).ok a rest ((hwithin n hn).trans hok)
    obtain rfl : front = front' := List.append_cancel_right (hfront.symm.trans hfront')
    obtain ⟨b, hb, hok'⟩ := hlocal rest' hrest'
    exact ⟨b, hb, (hbound' _ n hn').trans hok'⟩
  · intro failure herror
    exact (h _ t ht).error failure ((hwithin _ hfirst).trans herror)

/-- A reader that looks at the next byte, and treats the end of the text as a blank. -/
theorem peek_bind [Behind C SameStop] {next next' : Option UInt8 → Scan α}
    (hnext : ∀ b b' : Option UInt8, b.getD Text.blank = b'.getD Text.blank →
      Local base C Eq (next b) (next' b')) :
    Local base C Eq (peek? >>= next) (peek? >>= next') := by
  have hpeek : ∀ (next : Option UInt8 → Scan α) t, (peek? >>= next) t = next t.head? t :=
    fun _ _ => rfl
  intro t ht
  refine ⟨fun a rest hok => ?_, (hnext _ _ rfl t ht).error⟩
  rw [hpeek] at hok
  obtain ⟨front, hfront, -⟩ := (hnext _ _ rfl t ht).ok a rest hok
  refine ⟨front, hfront, fun rest' hrest' => ?_⟩
  have hstop : SameStop t (front ++ rest') := hfront ▸ Behind.append hrest' front
  obtain ⟨front', hfront', hlocal⟩ := (hnext _ _ hstop t ht).ok a rest hok
  obtain rfl : front = front' := List.append_cancel_right (hfront.symm.trans hfront')
  rw [hpeek]
  exact hlocal rest' hrest'

/-- A reader that fails at the end of the text and at a blank goes on with the same byte. -/
theorem peek_bind_of_some {next next' : Option UInt8 → Scan α}
    (hend : ∀ t, ∃ cause, next none t = .error ⟨cause, t⟩)
    (hblank : ∀ t, ∃ cause, next (some Text.blank) t = .error ⟨cause, t⟩)
    (hnext : ∀ c, c ≠ Text.blank → Local base SameStop Eq (next (some c)) (next' (some c))) :
    Local base SameStop Eq (peek? >>= next) (peek? >>= next') := by
  refine .peek_bind fun b b' hb => ?_
  cases b with
  | none =>
    intro t ht
    obtain ⟨cause, herror⟩ := hend t
    exact .of_error herror ht
  | some c =>
    by_cases hc : c = Text.blank
    · subst hc
      intro t ht
      obtain ⟨cause, herror⟩ := hblank t
      exact .of_error herror ht
    · obtain rfl : b' = some c := by cases b' <;> simp_all
      exact hnext c hc

end Local

theorem Again.weaken {D : Text → Text → Prop} [Behind C D] {scan : Scan α} (h : Again base D scan) :
    Again base C scan :=
  Local.weaken h

/-- A value that is read and then wrapped in the same way. -/
theorem Again.map {scan : Scan α} (h : Again base C scan) (f : α → β) :
    Again base C (do return f (← scan)) :=
  Local.map h fun _ => rfl

/-- A class of bytes without the blank has the same next byte in it. -/
theorem any_eq_of_getD_eq {p : UInt8 → Bool} (hp : p Text.blank = false) {b b' : Option UInt8}
    (h : b.getD Text.blank = b'.getD Text.blank) : b.any p = b'.any p := by
  cases b <;> cases b' <;> simp_all

/-! ### Strings -/

theorem local_peek? : Again base SameHead peek? := by
  intro t ht
  refine ⟨fun b rest hok => ?_, fun failure herror => by cases herror⟩
  cases hok
  exact ⟨[], rfl, fun rest' hrest' => ⟨_, hrest', rfl⟩⟩

/-- A longest run ends at the same place before the same byte, and a blank ends it as the end
    does. -/
theorem local_spanOf {p : UInt8 → Bool} (hp : p Text.blank = false) :
    Again base SameStop (spanOf p) := by
  intro t ht
  refine ⟨fun run rest hok => ?_, fun failure herror => by cases herror⟩
  obtain ⟨hfront, hrun, hstop⟩ := spanOf_eq_ok_iff.mp hok
  refine ⟨run, hfront, fun rest' hrest' => ⟨run, rfl, ?_⟩⟩
  refine spanOf_eq_ok_iff.mpr ⟨rfl, hrun, fun b hb => ?_⟩
  by_cases hblank : b = Text.blank
  · rw [hblank]
    exact hp
  · exact hstop b (SameStop.head?_eq hrest'.symm hb hblank)

theorem local_skipBlanks : Again base SameHead skipBlanks := by
  intro t ht
  refine ⟨fun _ rest hok => ?_, fun failure herror => by cases herror⟩
  cases hok
  obtain ⟨blanks, hblanks, hall, hhead⟩ := exists_blanks t
  refine ⟨blanks, hblanks, fun rest' hrest' => ⟨(), rfl, ?_⟩⟩
  have hrest : unblanked (blanks ++ rest') = rest' := unblanked_append hall (hrest' ▸ hhead)
  exact congrArg (fun u => Except.ok ((), u)) hrest

theorem local_accept (hb : b ≠ Text.blank) : Again base SameStop (accept b) := by
  intro t ht
  refine ⟨fun found rest hok => ?_, fun failure herror => absurd herror accept_ne_error⟩
  cases found with
  | true =>
    obtain rfl := eq_cons_of_accept hok
    exact ⟨[b], rfl, fun rest' _ => ⟨true, rfl, accept_same b rest'⟩⟩
  | false =>
    obtain ⟨rfl, hhead⟩ := of_accept_eq_false hok
    refine ⟨[], rfl, fun rest' hrest' => ⟨false, rfl, ?_⟩⟩
    have hhead' : rest'.head? ≠ some b := fun h => hhead (SameStop.head?_eq hrest'.symm h hb)
    cases rest' with
    | nil => rfl
    | cons c u => exact accept_other (fun h => hhead' (congrArg some h)) u

/-- A byte that is required is there whatever follows it. -/
theorem local_require (b : UInt8) (cause : Cause) : Again base AnyRest (require b cause) := by
  intro t ht
  constructor
  · intro _ rest hok
    obtain rfl := eq_cons_of_require hok
    exact ⟨[b], rfl, fun rest' _ => ⟨(), rfl, require_same b cause rest'⟩⟩
  · intro failure herror
    rcases of_bind_eq_error herror with haccept | ⟨found, mid, haccept, hfound⟩
    · exact absurd haccept accept_ne_error
    · cases found with
      | true => cases hfound
      | false =>
        obtain ⟨rfl, -⟩ := of_accept_eq_false haccept
        cases hfound
        exact ht

theorem local_quotedBody (quote : UInt8) : Again base AnyRest (quotedBody quote) := by
  intro t ht
  induction t using quotedBody.induct quote with
  | case1 => exact .of_error (by rw [quotedBody]) ht
  | case2 b t hb =>
    have heq : ∀ u, quotedBody quote (b :: u) = .ok ([], u) :=
      fun u => by simp [quotedBody.eq_def, hb]
    refine ⟨fun s rest hok => ?_, fun failure herror => by cases (heq t).symm.trans herror⟩
    cases (heq t).symm.trans hok
    exact ⟨[b], rfl, fun rest' _ => ⟨[], rfl, heq rest'⟩⟩
  | case3 b hb hslash =>
    have heq : quotedBody quote [b] = .error ⟨.unclosedQuote, []⟩ := by
      simp [quotedBody, hb, hslash]
    exact .of_error heq List.nil_suffix
  | case4 b hb hslash c rest hc ih =>
    have hrest : rest <:+ b :: c :: rest := List.suffix_append [b, c] rest
    have heq : ∀ u, quotedBody quote ([b, c] ++ u) =
        (quotedBody quote u).map fun r => (c :: r.1, r.2) := fun u => by
      simp only [List.cons_append, List.nil_append, quotedBody, if_neg hb, if_pos hslash, if_pos hc]
    exact LocalAt.behind (c :: ·) (ih (hrest.trans ht)) (heq rest) heq
  | case5 b hb hslash c rest hc =>
    have heq : quotedBody quote (b :: c :: rest) = .error ⟨.badEscape c, c :: rest⟩ := by
      simp only [quotedBody, if_neg hb, if_pos hslash, if_neg hc]
    exact .of_error heq ((List.suffix_cons b _).trans ht)
  | case6 b t hb hslash ih =>
    have heq : ∀ u, quotedBody quote ([b] ++ u) =
        (quotedBody quote u).map fun r => (b :: r.1, r.2) := fun u => by
      simp [quotedBody.eq_def quote (b :: u), hb, hslash]
    exact LocalAt.behind (b :: ·) (ih ((List.suffix_cons b t).trans ht)) (heq t) heq

theorem local_quotedString : Again base AnyRest quotedString := by
  intro t ht
  cases t with
  | nil => exact .of_error rfl ht
  | cons q t =>
    by_cases hq : isQuote q = true
    · have heq : ∀ u, quotedString ([q] ++ u) = (quotedBody q u).map fun r => (r.1, r.2) := by
        intro u
        have hquotedString : quotedString ([q] ++ u) = quotedBody q u := if_pos hq
        rw [hquotedString]
        cases quotedBody q u <;> rfl
      have hbody := local_quotedBody q t ((List.suffix_cons q t).trans ht)
      exact LocalAt.behind id hbody (heq t) heq
    · have hquotedString : quotedString (q :: t) = .error ⟨.unquoted, q :: t⟩ := if_neg hq
      exact .of_error hquotedString ht

theorem local_word : Again base SameStop word := local_spanOf rfl

/-- A quote or its absence is the same before the same byte. -/
theorem local_phrase : Again base SameStop phrase := by
  refine .peek_bind fun b b' hb => ?_
  rw [any_eq_of_getD_eq rfl hb]
  exact .ite local_quotedString.weaken local_word

theorem local_phrase? : Again base SameStop phrase? := by
  refine .peek_bind fun b b' hb => ?_
  rw [any_eq_of_getD_eq rfl hb]
  refine .ite ?_ ?_
  · exact local_quotedString.weaken.map _
  · exact .bind local_word fun w => .pure rfl

/-! ### Numbers and names -/

theorem local_numberText (name : NumberName) : Again base SameStop (numberText name) := by
  refine .bind (local_spanOf rfl) fun text => ?_
  exact .check (.fail _) fun _ => .pure rfl

/-- Integers depend on their digits, and fail where they start. -/
theorem local_integer (name : NumberName) (bits : Nat) (bounds : IntBounds) :
    Again base SameStop (integer name bits bounds) := by
  refine .get_bind fun start hstart _ => .bind (local_numberText name) fun text => ?_
  cases Text.toIntOfBits? bits text with
  | none => exact .failAt _ hstart
  | some v => exact .ite (.failAt _ hstart) (.ite (.failAt _ hstart) (.pure rfl))

/-- Numbers with a fraction depend on their digits, and fail where they start. -/
theorem local_decimal (name : NumberName) (f : FloatFormat) (bounds : DecimalBounds) :
    Again base SameStop (decimal name f bounds) := by
  refine .get_bind fun start hstart _ => .bind (local_numberText name) fun text => ?_
  cases Binary.ofText? f text with
  | none => exact .failAt _ hstart
  | some v =>
    simp only
    split
    · exact .failAt _ hstart
    · exact .failAt _ hstart
    · exact .pure rfl

theorem local_boolean : Again base SameStop boolean := by
  refine .get_bind fun start hstart _ => .bind local_word fun text => ?_
  exact .ite (.failAt _ hstart) (.ite (.pure rfl) (.ite (.pure rfl) (.failAt _ hstart)))

theorem local_resource : Again base SameStop resource := by
  refine .get_bind fun start hstart _ => .bind (local_spanOf rfl) fun text => ?_
  refine .check (.fail _) fun _ => ?_
  cases resourceOfText? text with
  | none => exact .failAt _ hstart
  | some name => exact .pure rfl

/-- The mark of a tag may stand before a name. -/
theorem local_resourceRef : Again base SameStop resourceRef := by
  refine .bind (local_accept (by decide)) fun tag => ?_
  exact local_resource.map _

/-! ### Ranges -/

/-- A text that begins with two points. -/
def Dotted (t : Text) : Prop := t.head? = some 0x2e ∧ t.tail.head? = some 0x2e

/-- Rests that begin with the same byte, where the end counts as a blank, and both or none of them
    with two points. -/
def SameDots (u u' : Text) : Prop := SameStop u u' ∧ (Dotted u ↔ Dotted u')

theorem dotted_iff (t : Text) : Dotted t ↔ ∃ u, Text.dropStart? ".." t = some u := by
  constructor
  · rintro ⟨hhead, htail⟩
    obtain ⟨t, rfl⟩ := List.head?_eq_some_iff.mp hhead
    obtain ⟨u, rfl⟩ := List.head?_eq_some_iff.mp htail
    exact ⟨u, Text.dropStart?_append ".." u⟩
  · rintro ⟨u, hu⟩
    rw [Text.eq_append_of_dropStart? hu]
    exact ⟨rfl, rfl⟩

theorem SameStop.head?_eq_some_iff {u' : Text} (h : SameStop u u') (hb : b ≠ Text.blank) :
    u.head? = some b ↔ u'.head? = some b :=
  ⟨fun hu => h.head?_eq hu hb, fun hu' => SameStop.head?_eq h.symm hu' hb⟩

instance : Behind SameDots SameStop := ⟨fun h => Behind.append h.1⟩

instance : Behind SameDots SameDots where
  append h front := by
    cases front with
    | nil => exact h
    | cons b front =>
      have htail : SameStop (front ++ _) (front ++ _) := Behind.append h.1 front
      exact ⟨rfl, and_congr_right fun _ => htail.head?_eq_some_iff (by decide)⟩

/-- A point ends no item. -/
instance : Behind SameSeparator SameDots where
  append {u u'} h front := by
    obtain ⟨hhead, b, hb, hseparator⟩ := h
    have hpoint : b ≠ 0x2e := by
      rintro rfl
      cases hseparator
    have hnot : ∀ v : Text, v.head? = some b → ¬ Dotted v := by
      intro v hv hdotted
      exact hpoint (Option.some.inj (hv.symm.trans hdotted.1))
    have hstop : SameStop u u' := Behind.append hhead []
    have hdots : SameDots u u' := ⟨hstop, iff_of_false (hnot u hb) (hnot u' (hhead ▸ hb))⟩
    exact Behind.append hdots front

/-- A byte belongs to a bound if it is one of numbers, and not the first of two points. -/
theorem boundText_cons_pos (hb : isNumberByte b = true)
    (hpoint : ¬ (b = 0x2e ∧ t.head? = some 0x2e)) :
    boundText (b :: t) = (b :: (boundText t).1, (boundText t).2) := by
  have hcondition : (isNumberByte b && !(b == 0x2e && t.head? == some 0x2e)) = true := by
    simp only [hb, Bool.true_and, Bool.not_eq_true', Bool.and_eq_false_iff, beq_eq_false_iff_ne]
    exact not_and_or.mp hpoint
  exact if_pos hcondition

theorem boundText_cons_neg (h : isNumberByte b = true → b = 0x2e ∧ t.head? = some 0x2e) :
    boundText (b :: t) = ([], b :: t) := by
  have hcondition : ¬ (isNumberByte b && !(b == 0x2e && t.head? == some 0x2e)) = true := by
    intro hcondition
    rw [Bool.and_eq_true, Bool.not_eq_true', Bool.and_eq_false_iff, beq_eq_false_iff_ne,
      beq_eq_false_iff_ne] at hcondition
    exact not_and_or.mpr hcondition.2 (h hcondition.1)
  exact if_neg hcondition

/-- A bound ends at the same place before the same byte, and before two points. -/
theorem boundText_append (t : Text) :
    t = (boundText t).1 ++ (boundText t).2 ∧
      ∀ rest', SameDots (boundText t).2 rest' →
        boundText ((boundText t).1 ++ rest') = ((boundText t).1, rest') := by
  induction t with
  | nil =>
    refine ⟨rfl, fun rest' hrest' => ?_⟩
    cases rest' with
    | nil => rfl
    | cons c rest' =>
      obtain rfl : Text.blank = c := hrest'.1
      rfl
  | cons b t ih =>
    obtain ⟨hfront, hlocal⟩ := ih
    by_cases hb : isNumberByte b = true ∧ ¬ (b = 0x2e ∧ t.head? = some 0x2e)
    · rw [boundText_cons_pos hb.1 hb.2]
      refine ⟨congrArg (b :: ·) hfront, fun rest' hrest' => ?_⟩
      have hstop : SameStop t ((boundText t).1 ++ rest') := by
        nth_rewrite 1 [hfront]
        exact Behind.append hrest' _
      have hpoint : ¬ (b = 0x2e ∧ ((boundText t).1 ++ rest').head? = some 0x2e) := by
        rw [← hstop.head?_eq_some_iff (by decide)]
        exact hb.2
      rw [List.cons_append, boundText_cons_pos hb.1 hpoint, hlocal rest' hrest']
    · have hstop : isNumberByte b = true → b = 0x2e ∧ t.head? = some 0x2e := by
        intro hnumber
        by_contra hpoint
        exact hb ⟨hnumber, hpoint⟩
      rw [boundText_cons_neg hstop]
      refine ⟨rfl, fun rest' hrest' => ?_⟩
      cases rest' with
      | nil => rfl
      | cons c t' =>
        obtain rfl : b = c := hrest'.1
        have hstop' : isNumberByte b = true → b = 0x2e ∧ t'.head? = some 0x2e := by
          intro hnumber
          obtain ⟨rfl, htail⟩ := hstop hnumber
          exact ⟨rfl, (hrest'.2.mp ⟨rfl, htail⟩).2⟩
        rw [List.nil_append, boundText_cons_neg hstop']

theorem local_boundText : Again base SameDots (fun t => .ok (boundText t) : Scan Text) := by
  intro t ht
  refine ⟨fun bound rest hok => ?_, fun failure herror => by cases herror⟩
  have hbound : boundText t = (bound, rest) := Except.ok.inj hok
  have hlocal := boundText_append t
  rw [hbound] at hlocal
  refine ⟨bound, hlocal.1, fun rest' hrest' => ⟨bound, rfl, ?_⟩⟩
  exact congrArg Except.ok (hlocal.2 rest' hrest')

/-- A bound depends on whether one or two points follow it. -/
theorem local_rangeBound (decimals : Bool) : Again base SameDots (rangeBound decimals) := by
  refine .get_bind fun start hstart _ => .bind local_boundText fun text => ?_
  refine .ite (.pure rfl) (.check (.fail _) fun _ => .ite ?_ ?_)
  · cases Binary.ofText? .double text with
    | none => exact .failAt _ hstart
    | some v => exact .pure rfl
  · cases Text.toIntOfBits? 32 text with
    | none => exact .failAt _ hstart
    | some v => exact .pure rfl

theorem local_acceptDots : Again base SameDots acceptDots := by
  intro t ht
  cases hdots : Text.dropStart? ".." t with
  | some u =>
    have heq : acceptDots t = .ok (true, u) := by rw [acceptDots, hdots]
    refine ⟨fun found rest hok => ?_, fun failure herror => by cases heq.symm.trans herror⟩
    cases heq.symm.trans hok
    refine ⟨"..", Text.eq_append_of_dropStart? hdots, fun rest' _ => ⟨true, rfl, ?_⟩⟩
    rw [acceptDots, Text.dropStart?_append]
  | none =>
    have heq : acceptDots t = .ok (false, t) := by rw [acceptDots, hdots]
    refine ⟨fun found rest hok => ?_, fun failure herror => by cases heq.symm.trans herror⟩
    cases heq.symm.trans hok
    refine ⟨[], rfl, fun rest' hrest' => ⟨false, rfl, ?_⟩⟩
    have hdots' : Text.dropStart? ".." rest' = none := by
      rw [← Option.not_isSome_iff_eq_none, Option.isSome_iff_exists, ← dotted_iff, ← hrest'.2,
        dotted_iff, hdots]
      rintro ⟨u, hu⟩
      cases hu
    rw [acceptDots, List.nil_append, hdots']

/-- A range has one bound or both, and fails where it starts. -/
theorem local_range (decimals : Bool) : Again base SameDots (range decimals) := by
  refine .get_bind fun start hstart _ => .bind (local_rangeBound decimals) fun least => ?_
  refine .bind local_acceptDots fun dots => ?_
  refine .ite_bind (local_rangeBound decimals) (.pure rfl) fun greatest => ?_
  cases least with
  | none =>
    cases greatest with
    | none => exact .failAt _ hstart
    | some b => exact .pure rfl
  | some a =>
    cases greatest with
    | none => exact .pure rfl
    | some b => exact .ite (.failAt _ hstart) (.pure rfl)

end Argument

end DatapackDebug

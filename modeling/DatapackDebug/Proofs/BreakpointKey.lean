import DatapackDebug.Proofs.EffectiveBreakpoints
import DatapackDebug.Proofs.Names

namespace DatapackDebug

/-!
# Keys of sets of breakpoints

A session compares keys to find out whether the datapack has to be generated anew.

* `ResourceName.Unambiguous` — the name of a function can be read back from a key;
* `BreakpointMap.entries` — the breakpoints that a key is made of;
* `BreakpointMap.keyEntry_append_inj` — where one entry of a key ends and the next one starts is
  determined, if the names can be read back;
* `BreakpointMap.WellFormed` — what all sets of a session have in common;
* `BreakpointMap.terminatorAt?_of_key` — sets with the same key have the same effects.
-/

/-! ### Bytes between the parts of an entry -/

/-- Keys tell where the name ends, and where its namespace does. -/
structure ResourceName.Unambiguous (f : ResourceName) : Prop where
  text : 0x40 ∉ f.text
  ns : 0x3a ∉ f.ns

/-- Names that can be read back are told apart by their texts. -/
theorem ResourceName.Unambiguous.text_inj {f g : ResourceName} (hf : f.Unambiguous)
    (hg : g.Unambiguous) (h : f.text = g.text) : f = g := by
  simp only [ResourceName.text, show Text.ofString ":" = [0x3a] from by decide, List.append_assoc,
    List.singleton_append] at h
  obtain ⟨hns, hpath⟩ := Text.append_first_inj hf.ns hg.ns h
  cases f
  cases g
  cases hns
  cases hpath
  rfl

theorem Position.equals_not_mem_text (p : Position) : 0x3d ∉ p.text := by
  have hplace : 0x3d ∉ p.place.text := by cases p.place <;> decide
  have hline : 0x3d ∉ Text.ofNat p.line := fun h => absurd (Text.isDigit_of_mem_ofNat h) (by decide)
  rw [Position.text_eq]
  simp [hplace, hline]

namespace BreakpointMap

variable {m : BreakpointMap} {b : Breakpoint}

/-! ### Entries -/

/-- All breakpoints that have an effect. -/
def entries (m : BreakpointMap) : List (ResourceName × Position × Breakpoint) :=
  m.flatMap fun e => e.2.effective.map fun b => (e.1, b)

theorem key_eq (m : BreakpointMap) : m.key = m.entries.flatMap fun e =>
    keyEntry e.1 e.2.1 e.2.2 := by
  unfold key entries
  rw [List.flatMap_assoc]
  refine List.flatMap_congr fun e _ => ?_
  rw [List.flatMap_map]

/-- The entries of a set in order are what look-up finds. -/
theorem mem_entries_iff (hm : m.Ordered) {f : ResourceName} {p : Position} :
    (f, p, b) ∈ m.entries ↔ (m.of f).at? p = some b ∧ b.type ≠ .invalid := by
  have hat : (m.of f).at? p = some b ↔ (p, b) ∈ m.of f :=
    SortedAssoc.find?_eq_some_iff (hm.positions f)
  rw [hat]
  have hof : (p, b) ∈ m.of f ↔ ∃ bs, (f, bs) ∈ m ∧ (p, b) ∈ bs := by
    rw [BreakpointMap.of]
    cases hfind : SortedAssoc.find? ResourceName.compare f m with
    | none =>
      refine ⟨by simp, ?_⟩
      rintro ⟨bs, hbs, -⟩
      rw [(SortedAssoc.find?_eq_some_iff hm.functions).mpr hbs] at hfind
      cases hfind
    | some bs =>
      refine ⟨fun h => ⟨bs, SortedAssoc.mem_of_find? hfind, h⟩, ?_⟩
      rintro ⟨bs', hbs', h⟩
      rw [(SortedAssoc.find?_eq_some_iff hm.functions).mpr hbs'] at hfind
      cases hfind
      exact h
  rw [hof]
  simp only [entries, Breakpoints.effective, List.mem_flatMap, List.mem_map, List.mem_filter]
  constructor
  · rintro ⟨⟨g, bs⟩, hbs, ⟨q, c⟩, ⟨hmem, htype⟩, heq⟩
    cases heq
    exact ⟨⟨bs, hbs, hmem⟩, by simpa using htype⟩
  · rintro ⟨⟨bs, hbs, hmem⟩, htype⟩
    exact ⟨(f, bs), hbs, (p, b), ⟨hmem, by simpa using htype⟩, rfl⟩

/-! ### Reading a key -/

/-- The type and the condition of a breakpoint, as keys write them. -/
def kindText (b : Breakpoint) : Text :=
  b.type.text ++ if b.condition.isEmpty then [] else 0x2f :: b.condition

theorem keyEntry_append (f : ResourceName) (p : Position) (b : Breakpoint) (t : Text) :
    keyEntry f p b ++ t = f.text ++ 0x40 :: (p.text ++ 0x3d :: (kindText b ++ 0x3b :: t)) := by
  simp only [keyEntry, kindText, show Text.ofString "@" = [0x40] from by decide,
    show Text.ofString "=" = [0x3d] from by decide, show Text.ofString "/" = [0x2f] from by decide,
    show Text.ofString ";" = [0x3b] from by decide, List.append_assoc, List.cons_append,
    List.nil_append]

/-- Breakpoints are told apart by type and condition, as keys write them. -/
theorem kindText_injective : Function.Injective kindText := by
  have htype : Function.Injective BreakpointType.text := fun x y h => by
    cases x <;> cases y <;> first | rfl | exact absurd h (by decide)
  have hslash : ∀ x : BreakpointType, 0x2f ∉ x.text := fun x => by cases x <;> decide
  rintro ⟨x, c⟩ ⟨y, d⟩ h
  cases c with
  | nil =>
    cases d with
    | nil =>
      have hx : x.text = y.text := by simpa [kindText] using h
      rw [htype hx]
    | cons b d =>
      have hx : x.text = y.text ++ 0x2f :: b :: d := by simpa [kindText] using h
      exact absurd (hx ▸ hslash x) (by simp)
  | cons a c =>
    cases d with
    | nil =>
      have hy : x.text ++ 0x2f :: a :: c = y.text := by simpa [kindText] using h
      exact absurd (hy ▸ hslash y) (by simp)
    | cons b d =>
      have hxy : x.text ++ 0x2f :: a :: c = y.text ++ 0x2f :: b :: d := by simpa [kindText] using h
      obtain ⟨hx, hc⟩ := Text.append_first_inj (hslash x) (hslash y) hxy
      rw [htype hx, hc]

/-- Keys end an entry at its first semicolon. -/
theorem semicolon_not_mem_kindText (hb : 0x3b ∉ b.condition) : 0x3b ∉ kindText b := by
  have htype : 0x3b ∉ b.type.text := by cases b.type <;> decide
  unfold kindText
  split
  · simpa using htype
  · simp [htype, hb]

/-- An entry at the start of a key is determined, and so is the rest of the key. -/
theorem keyEntry_append_inj {f g : ResourceName} {p q : Position} {c : Breakpoint} {t u : Text}
    (hf : f.Unambiguous) (hg : g.Unambiguous) (hb : 0x3b ∉ b.condition) (hc : 0x3b ∉ c.condition)
    (h : keyEntry f p b ++ t = keyEntry g q c ++ u) : f = g ∧ p = q ∧ b = c ∧ t = u := by
  rw [keyEntry_append, keyEntry_append] at h
  -- The name ends at the first at sign, the position at the first equals sign, and the kind at the
  -- first semicolon, none of which occurs in them.
  obtain ⟨hname, h⟩ := Text.append_first_inj hf.text hg.text h
  obtain ⟨hposition, h⟩ := Text.append_first_inj p.equals_not_mem_text q.equals_not_mem_text h
  obtain ⟨hkind, hrest⟩ :=
    Text.append_first_inj (semicolon_not_mem_kindText hb) (semicolon_not_mem_kindText hc) h
  exact ⟨hf.text_inj hg hname, Position.text_injective hposition, kindText_injective hkind, hrest⟩

/-- The entries of sets can be read back from their keys. -/
theorem entries_of_key {m' : BreakpointMap}
    (hm : ∀ e ∈ m.entries, e.1.Unambiguous ∧ 0x3b ∉ e.2.2.condition)
    (hm' : ∀ e ∈ m'.entries, e.1.Unambiguous ∧ 0x3b ∉ e.2.2.condition) (h : m.key = m'.key) :
    m.entries = m'.entries := by
  rw [key_eq, key_eq] at h
  generalize m.entries = es at *
  generalize m'.entries = es' at *
  -- No entry has an empty text, so that the lists of entries are of the same length.
  have hne : ∀ (e : ResourceName × Position × Breakpoint) (t : Text),
      keyEntry e.1 e.2.1 e.2.2 ++ t ≠ [] := fun e t => by rw [keyEntry_append]; simp
  induction es generalizing es' with
  | nil =>
    cases es' with
    | nil => rfl
    | cons e' es' => exact absurd h.symm (hne e' _)
  | cons e es ih =>
    cases es' with
    | nil => exact absurd h (hne e _)
    | cons e' es' =>
      obtain ⟨he, hes⟩ := List.forall_mem_cons.mp hm
      obtain ⟨he', hes'⟩ := List.forall_mem_cons.mp hm'
      obtain ⟨hf, hp, hb, hrest⟩ := keyEntry_append_inj he.1 he'.1 he.2 he'.2 h
      rw [ih hes es' hes' hrest, show e = e' from Prod.ext hf (Prod.ext hp hb)]

/-! ### Well-formed sets -/

/-- The set is in order, and the breakpoints that have an effect are in functions of `V` and have
    conditions as steps have. -/
structure WellFormed (V : ResourceName → Prop) (m : BreakpointMap) : Prop where
  ordered : m.Ordered
  effective : ∀ f p b, (m.of f).at? p = some b → b.type ≠ .invalid → V f ∧ 0x3b ∉ b.condition

namespace WellFormed

variable {V : ResourceName → Prop} {m m' : BreakpointMap}

theorem nil : WellFormed V [] := ⟨.nil, fun _ _ _ h => by cases h⟩

theorem mem_entries (hm : m.WellFormed V) : ∀ e ∈ m.entries, V e.1 ∧ 0x3b ∉ e.2.2.condition := by
  rintro ⟨f, p, b⟩ he
  obtain ⟨hat, htype⟩ := (mem_entries_iff hm.ordered).mp he
  exact hm.effective f p b hat htype

/-- Well-formed sets are extended by well-formed breakpoints. -/
theorem extend {P : ResourceName → Position → Breakpoint → Prop} (hm : m.WellFormed V)
    (hextends : m.Extends P m') (hP : ∀ f p b, P f p b → V f ∧ 0x3b ∉ b.condition) :
    m'.WellFormed V := by
  refine ⟨hextends.ordered hm.ordered, fun f p b hat htype => ?_⟩
  rcases hextends.at? f p with hkept | ⟨-, b', hb', hPb'⟩
  · exact hm.effective f p b (hkept ▸ hat) htype
  · cases hat.symm.trans hb'
    exact hP f p b hPb'

/-- The breakpoints of one function are replaced. -/
theorem set (hm : m.WellFormed V) {f : ResourceName} {bs : Breakpoints}
    (hbs : SortedAssoc.Sorted Position.compare bs)
    (heffective : ∀ p b, bs.at? p = some b → b.type ≠ .invalid → V f ∧ 0x3b ∉ b.condition) :
    (m.set f bs).WellFormed V := by
  refine ⟨hm.ordered.set f hbs, fun g p b hat htype => ?_⟩
  rw [of_set] at hat
  split at hat
  · rename_i hg
    subst hg
    exact heffective p b hat htype
  · exact hm.effective g p b hat htype

end WellFormed

theorem semicolon_not_mem_stepCondition (depth : Int) : 0x3b ∉ Session.stepCondition depth := by
  have hdigits : ∀ n, 0x3b ∉ Text.ofNat n := fun n h =>
    absurd (Text.isDigit_of_mem_ofNat h) (by decide)
  have hdepth : 0x3b ∉ Text.ofInt depth := by
    cases depth with
    | ofNat n => exact hdigits n
    | negSucc n => simp [Text.ofInt, hdigits]
  unfold Session.stepCondition
  rw [List.mem_append, not_or]
  exact ⟨by decide, hdepth⟩

/-- What a session adds to the breakpoints of the user is well-formed. -/
theorem WellFormed.effectiveBreakpoints {V : ResourceName → Prop} {s : Session}
    (hbreakpoints : s.breakpoints.WellFormed V) (hfunctions : ∀ e ∈ s.functions, V e.1)
    (hstop : ∀ stop, s.stop = some stop → V stop.function) :
    s.effectiveBreakpoints.WellFormed V := by
  refine hbreakpoints.extend s.extends_effectiveBreakpoints fun f p b hadds => ?_
  cases hadds with
  | step hdepth hf hb =>
    obtain ⟨e, he, rfl⟩ := List.mem_map.mp hf
    exact ⟨hfunctions e he, hb ▸ semicolon_not_mem_stepCondition _⟩
  | stop hs hf hp hb => exact ⟨hf ▸ hstop _ hs, hb ▸ by simp⟩

/-- Well-formed sets with the same key have the same effects, if names can be read back. -/
theorem terminatorAt?_of_key {m' : BreakpointMap} (hm : m.WellFormed ResourceName.Unambiguous)
    (hm' : m'.WellFormed ResourceName.Unambiguous) (h : m.key = m'.key) (f : ResourceName)
    (p : Position) : m.terminatorAt? f p = m'.terminatorAt? f p := by
  have hentries := entries_of_key hm.mem_entries hm'.mem_entries h
  have hmem : ∀ {m : BreakpointMap}, m.Ordered → ∀ t, m.terminatorAt? f p = some t ↔
      ∃ b, (f, p, b) ∈ m.entries ∧ b.terminator? p.place = some t := by
    intro m hm t
    simp only [terminatorAt?, Breakpoints.terminatorAt?, Option.bind_eq_some_iff,
      mem_entries_iff hm]
    refine exists_congr fun b => ⟨?_, ?_⟩
    · rintro ⟨hat, ht⟩
      refine ⟨⟨hat, fun htype => ?_⟩, ht⟩
      simp [Breakpoint.terminator?, htype] at ht
    · rintro ⟨⟨hat, -⟩, ht⟩
      exact ⟨hat, ht⟩
  refine Option.ext fun t => ?_
  rw [hmem hm.ordered, hmem hm'.ordered, hentries]

end BreakpointMap

end DatapackDebug

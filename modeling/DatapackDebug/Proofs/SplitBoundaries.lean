import DatapackDebug.Proofs.SplitTiling

namespace DatapackDebug

/-!
# Where the pieces of a function end

A function is cut where its lines and the breakpoints ask for it, and nowhere else: at breakpoints
of the source, at calls, and at breakpoints that are set before a line or after a call.

* `Breakpoint.Asks` — how a breakpoint wants a piece to end;
* `Boundary` — where the pieces of a function have to end, and how;
* `BreakpointsCount` — the positions at which breakpoints are looked up;
* `mem_cuts_iff`, `cuts_eq_of_agree` — the cuts of one line, and what they depend on;
* `split_boundaries` — both for the pieces of a function.
-/

/-! ### Boundaries -/

/-- A breakpoint at a place of a line asks for a piece to end in a way, which tells the place.  An
    invalid one asks for nothing. -/
inductive Breakpoint.Asks (place : Place) : Breakpoint → Terminator → Prop where
  | normal {condition} : Asks place ⟨.normal, condition⟩ (.breakpoint place)
  | continue {condition} : Asks place ⟨.continue, condition⟩ (.continue place)
  | step {condition} : Asks place ⟨.step, condition⟩ (.step place condition)

/-- A piece of a function has to end at a position in a way.  Lines are numbered from one on. -/
inductive Boundary (lines : List SourceLine) (bs : Breakpoints) : Position → Terminator → Prop where
  /-- at a breakpoint of the source -/
  | static {i l} : lines[i]? = some l → l.line = .breakpoint →
      Boundary lines bs ⟨i + 1, .breakpoint⟩ .static
  /-- at a breakpoint before another line -/
  | before {i l b t} : lines[i]? = some l → l.line ≠ .breakpoint →
      bs.at? ⟨i + 1, .breakpoint⟩ = some b → b.Asks .breakpoint t →
      Boundary lines bs ⟨i + 1, .breakpoint⟩ t
  /-- at a call -/
  | call {i l call} : lines[i]? = some l → l.line = .call call →
      Boundary lines bs ⟨i + 1, .function⟩ (.call (i + 1) l.text call)
  /-- at a breakpoint after a call -/
  | after {i l call b t} : lines[i]? = some l → l.line = .call call →
      bs.at? ⟨i + 1, .afterFunction⟩ = some b → b.Asks .afterFunction t →
      Boundary lines bs ⟨i + 1, .afterFunction⟩ t
  /-- at the end of the last line -/
  | return : Boundary lines bs ⟨max 1 lines.length, .return⟩ .return

/-- Breakpoints count at a position of a function: before a line that is no breakpoint itself, and
    after a call. -/
inductive BreakpointsCount (lines : List SourceLine) : Position → Prop where
  | before {i l} : lines[i]? = some l → l.line ≠ .breakpoint →
      BreakpointsCount lines ⟨i + 1, .breakpoint⟩
  | after {i l call} : lines[i]? = some l → l.line = .call call →
      BreakpointsCount lines ⟨i + 1, .afterFunction⟩

theorem Breakpoint.asks_iff {b : Breakpoint} {place : Place} {t : Terminator} :
    b.Asks place t ↔ b.terminator? place = some t := by
  constructor
  · intro h
    cases h <;> rfl
  · intro h
    obtain ⟨type, condition⟩ := b
    cases type with
    | invalid => exact absurd h (by simp [Breakpoint.terminator?])
    | normal => exact Option.some.inj h ▸ .normal
    | «continue» => exact Option.some.inj h ▸ .continue
    | step => exact Option.some.inj h ▸ .step

/-! ### The cuts of one line -/

section Line

variable {bs bs' : Breakpoints} {l : SourceLine} {q : Position} {t : Terminator}

theorem mem_breakpointCut_iff_asks {p : Position} :
    (q, t) ∈ breakpointCut bs p ↔ q = p ∧ ∃ b, bs.at? p = some b ∧ b.Asks p.place t := by
  simp only [mem_breakpointCut_iff, Breakpoint.asks_iff]

/-- The cuts of a line: its own, or those that breakpoints ask for before it and after a call. -/
theorem mem_cuts_iff :
    (q, t) ∈ (cuts bs l).1 ↔
      (l.line = .breakpoint ∧ q = ⟨l.number, .breakpoint⟩ ∧ t = .static) ∨
      (l.line ≠ .breakpoint ∧ q = ⟨l.number, .breakpoint⟩ ∧
        ∃ b, bs.at? ⟨l.number, .breakpoint⟩ = some b ∧ b.Asks .breakpoint t) ∨
      ∃ call, l.line = .call call ∧
        ((q = ⟨l.number, .function⟩ ∧ t = .call l.number l.text call) ∨
          q = ⟨l.number, .afterFunction⟩ ∧
            ∃ b, bs.at? ⟨l.number, .afterFunction⟩ = some b ∧ b.Asks .afterFunction t) := by
  cases hl : l.line with
  | breakpoint => simp [cuts, hl]
  | call call =>
    simp only [cuts, hl, List.mem_append, List.mem_singleton, mem_breakpointCut_iff_asks,
      Prod.mk.injEq]
    constructor
    · rintro ((h | h) | h)
      · exact .inr (.inl ⟨by simp, h⟩)
      · exact .inr (.inr ⟨call, rfl, .inl h⟩)
      · exact .inr (.inr ⟨call, rfl, .inr h⟩)
    · rintro (⟨h, -⟩ | ⟨-, h⟩ | ⟨call', hcall, h⟩)
      · exact absurd h (by simp)
      · exact .inl (.inl h)
      · obtain rfl : call = call' := by simpa using hcall
        rcases h with h | h
        · exact .inl (.inr h)
        · exact .inr h
  | _ => simp [cuts, hl, mem_breakpointCut_iff_asks]

/-- The cuts of a line depend on the breakpoints before it, unless it is one itself, and on those
    after it if it is a call. -/
theorem cuts_eq_of_agree
    (hbefore : l.line ≠ .breakpoint →
      breakpointCut bs ⟨l.number, .breakpoint⟩ = breakpointCut bs' ⟨l.number, .breakpoint⟩)
    (hafter : ∀ call, l.line = .call call →
      breakpointCut bs ⟨l.number, .afterFunction⟩ = breakpointCut bs' ⟨l.number, .afterFunction⟩) :
    cuts bs l = cuts bs' l := by
  cases hl : l.line with
  | breakpoint => simp only [cuts, hl]
  | call call => simp only [cuts, hl, hbefore (by simp [hl]), hafter call hl]
  | _ => simp only [cuts, hl, hbefore (by simp [hl])]

/-- The cut at a position is the same if the valid breakpoints there are. -/
theorem breakpointCut_eq_of_agree {p : Position}
    (h : ∀ b : Breakpoint, b.type ≠ .invalid → (bs.at? p = some b ↔ bs'.at? p = some b)) :
    breakpointCut bs p = breakpointCut bs' p := by
  have hasks : ∀ b t, b.Asks p.place t → (bs.at? p = some b ↔ bs'.at? p = some b) := by
    intro b t hb
    refine h b ?_
    cases hb <;> simp
  have hbind : bs.terminatorAt? p = bs'.terminatorAt? p := by
    apply Option.ext
    intro t
    simp only [Breakpoints.terminatorAt?, Option.bind_eq_some_iff, ← Breakpoint.asks_iff]
    constructor
    · rintro ⟨b, hb, ht⟩
      exact ⟨b, (hasks b t ht).mp hb, ht⟩
    · rintro ⟨b, hb, ht⟩
      exact ⟨b, (hasks b t ht).mpr hb, ht⟩
  rw [breakpointCut, breakpointCut, hbind]

end Line

/-! ### The pieces of a function -/

section Lines

variable {lines : List SourceLine} {bs : Breakpoints} {q : Position} {t : Terminator}

/-- The boundaries other than the return are the cuts of the lines. -/
theorem NumberedFrom.boundary_iff_cut (hlines : NumberedFrom 1 lines) (ht : t ≠ .return) :
    Boundary lines bs q t ↔ ∃ l ∈ lines, (q, t) ∈ (cuts bs l).1 := by
  have hnumber : ∀ {i : Nat} {l : SourceLine}, lines[i]? = some l → l.number = i + 1 := by
    intro i l hl
    rw [hlines.number_of_getElem? hl, Nat.add_comm]
  constructor
  · intro h
    cases h with
    | static hl hline =>
      refine ⟨_, List.mem_of_getElem? hl, mem_cuts_iff.mpr (.inl ?_)⟩
      rw [hnumber hl]
      exact ⟨hline, rfl, rfl⟩
    | before hl hline hb hasks =>
      refine ⟨_, List.mem_of_getElem? hl, mem_cuts_iff.mpr (.inr (.inl ?_))⟩
      rw [hnumber hl]
      exact ⟨hline, rfl, _, hb, hasks⟩
    | call hl hline =>
      refine ⟨_, List.mem_of_getElem? hl, mem_cuts_iff.mpr (.inr (.inr ⟨_, hline, .inl ?_⟩))⟩
      rw [hnumber hl]
      exact ⟨rfl, rfl⟩
    | after hl hline hb hasks =>
      refine ⟨_, List.mem_of_getElem? hl, mem_cuts_iff.mpr (.inr (.inr ⟨_, hline, .inr ?_⟩))⟩
      rw [hnumber hl]
      exact ⟨rfl, _, hb, hasks⟩
    | «return» => exact absurd rfl ht
  · rintro ⟨l, hmem, hcut⟩
    obtain ⟨i, hl⟩ := List.mem_iff_getElem?.mp hmem
    rw [mem_cuts_iff, hnumber hl] at hcut
    rcases hcut with ⟨hline, rfl, rfl⟩ | ⟨hline, rfl, b, hb, hasks⟩ | ⟨call, hline, hcut⟩
    · exact .static hl hline
    · exact .before hl hline hb hasks
    · rcases hcut with ⟨rfl, rfl⟩ | ⟨rfl, b, hb, hasks⟩
      · exact .call hl hline
      · exact .after hl hline hb hasks

/-- Only the last of the pieces ends with a return. -/
theorem ends_with_return_iff :
    (∃ part ∈ split lines bs, part.stop = q ∧ part.terminator = .return) ↔
    q = ⟨max 1 lines.length, .return⟩ := by
  obtain ⟨front, final, hsplit, hstop, hreturn, hfront⟩ := exists_split_eq_concat lines bs
  rw [hsplit]
  constructor
  · rintro ⟨part, hpart, rfl, hterminator⟩
    rcases List.mem_append.mp hpart with hpart | hpart
    · exact absurd hterminator (hfront part hpart)
    · rw [List.mem_singleton.mp hpart, hstop]
  · rintro rfl
    exact ⟨final, List.mem_append_right _ (List.mem_singleton_self _), hstop, hreturn⟩

/-- The pieces end at the boundaries. -/
theorem NumberedFrom.ends_iff_boundary (hlines : NumberedFrom 1 lines) :
    (∃ part ∈ split lines bs, part.stop = q ∧ part.terminator = t) ↔ Boundary lines bs q t := by
  by_cases ht : t = .return
  · subst ht
    rw [ends_with_return_iff]
    constructor
    · rintro rfl
      exact .return
    · intro h
      cases h with
      | before _ _ _ hasks => cases hasks
      | after _ _ _ hasks => cases hasks
      | «return» => rfl
  · have hsplit : split lines bs =
        pieces (max 1 lines.length) ⟨1, .entry⟩ [] (lines.flatMap (SourceLine.segments bs)) :=
      splitFrom_eq_pieces ..
    rw [hsplit, mem_pieces_terminator ht, hlines.boundary_iff_cut ht]
    exact Function.cut_mem_segments_iff (f := ⟨⟨[], []⟩, [], lines⟩)

/-- Only the valid breakpoints at positions that count have an effect. -/
theorem NumberedFrom.split_eq_of_agree {bs' : Breakpoints} (hlines : NumberedFrom 1 lines)
    (h : ∀ q b, BreakpointsCount lines q → b.type ≠ .invalid →
      (bs'.at? q = some b ↔ bs.at? q = some b)) :
    split lines bs' = split lines bs := by
  have hcuts : ∀ l ∈ lines, cuts bs' l = cuts bs l := by
    intro l hmem
    obtain ⟨i, hl⟩ := List.mem_iff_getElem?.mp hmem
    have hnumber : l.number = i + 1 := by
      rw [hlines.number_of_getElem? hl, Nat.add_comm]
    apply cuts_eq_of_agree
    · intro hline
      rw [hnumber]
      exact breakpointCut_eq_of_agree fun b => h _ b (.before hl hline)
    · intro call hline
      rw [hnumber]
      exact breakpointCut_eq_of_agree fun b => h _ b (.after hl hline)
  have hsegments : lines.flatMap (SourceLine.segments bs') =
      lines.flatMap (SourceLine.segments bs) := by
    apply List.flatMap_congr
    intro l hmem
    rw [SourceLine.segments, SourceLine.segments, hcuts l hmem]
  rw [split, split, splitFrom_eq_pieces, splitFrom_eq_pieces, hsegments]

end Lines

/-- The pieces of a function end exactly at its boundaries, each with the terminator of the
    boundary, and breakpoints that make no boundary have no effect on the pieces: invalid ones, and
    all that stand where breakpoints do not count. -/
theorem split_boundaries {lines : List SourceLine} (hlines : NumberedFrom 1 lines)
    (bs : Breakpoints) :
    (∀ q t, (∃ part ∈ split lines bs, part.stop = q ∧ part.terminator = t) ↔
      Boundary lines bs q t) ∧
    ∀ bs' : Breakpoints,
      (∀ q b, BreakpointsCount lines q → b.type ≠ .invalid →
        (bs'.at? q = some b ↔ bs.at? q = some b)) →
      split lines bs' = split lines bs :=
  ⟨fun _ _ => hlines.ends_iff_boundary, fun _ h => hlines.split_eq_of_agree h⟩

/-- The breakpoints of `callingBreakpoints` that make a boundary. -/
def callingEffects : Breakpoints :=
  [(⟨2, .breakpoint⟩, ⟨.normal, []⟩),
    (⟨2, .afterFunction⟩, ⟨.step, "if score current -ns-_depth matches ..1"⟩),
    (⟨4, .afterFunction⟩, ⟨.continue, []⟩)]

/-- Of six breakpoints three make a boundary: one of the others is invalid, one stands after a line
    that is no call, and one where the source has its own. -/
theorem callingLines_boundaries :
    NumberedFrom 1 callingLines ∧
    (∀ q t, (∃ part ∈ split callingLines callingBreakpoints, part.stop = q ∧ part.terminator = t) ↔
      Boundary callingLines callingBreakpoints q t) ∧
    split callingLines callingEffects = split callingLines callingBreakpoints := by
  have hlines : NumberedFrom 1 callingLines := ⟨rfl, rfl, rfl, rfl, trivial⟩
  obtain ⟨hends, hothers⟩ := split_boundaries hlines callingBreakpoints
  refine ⟨hlines, hends, hothers callingEffects ?_⟩
  intro q b hcount hvalid
  -- The two maps differ at positions that count only before the first line, where the breakpoint is
  -- invalid.
  have hfirst : callingBreakpoints.at? ⟨1, .breakpoint⟩ ≠ some b := by
    intro h
    exact hvalid (Option.some.inj h ▸ rfl)
  cases hcount with
  | @before i l hl hline =>
    rcases i with _ | _ | _ | _ | i
    · exact ⟨fun h =>
        absurd h (by simp [callingEffects, Breakpoints.at?, SortedAssoc.find?, Position.compare]),
        fun h => absurd h hfirst⟩
    · rfl
    · exact absurd (Option.some.inj hl ▸ rfl) hline
    · rfl
    · simp [callingLines] at hl
  | @after i l call hl hline =>
    rcases i with _ | _ | _ | _ | i
    · obtain rfl := Option.some.inj hl
      simp at hline
    · rfl
    · obtain rfl := Option.some.inj hl
      simp at hline
    · rfl
    · simp [callingLines] at hl

end DatapackDebug

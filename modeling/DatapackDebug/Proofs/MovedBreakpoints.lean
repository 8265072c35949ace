import DatapackDebug.Proofs.CallFrames
import DatapackDebug.Proofs.Outcomes

namespace DatapackDebug

/-!
# Breakpoints that are moved

When only the places of breakpoints have changed, the tags of their positions are renamed on the
server, one breakpoint after the other, and the stop of the session goes with them.

* `movedBy`, `movedByAll` — where one move, and moves one after the other, take a position;
* `Overtaken` — a breakpoint is moved to the old place of a later one;
* `movedByAll_zip_eq_iff` — a position ends at its new place unless its breakpoint is overtaken;
* `Entity.StandsAt` — the one position that the tags of an entity tell, by `Entity.StandsAt.move`
  after one move and by `Entity.StandsAt.moveAll` after all;
* `World.perform_moves` — what the injected commands do;
* `moved_at_once_iff` — tags and stop are as if all breakpoints were moved at once, exactly for the
  breakpoints that are not overtaken.
-/

/-! ### Positions -/

/-- Where a move takes a position. -/
def movedBy (move : Position × Position) (p : Position) : Position :=
  if p = move.1 then move.2 else p

/-- Where moves one after the other take a position. -/
def movedByAll (moves : List (Position × Position)) (p : Position) : Position :=
  moves.foldl (fun p move => movedBy move p) p

/-- The breakpoint is moved to the place where a later one was before. -/
def Overtaken (froms tos : List Position) (i : Nat) : Prop :=
  ∃ j q, i < j ∧ tos[i]? = some q ∧ froms[j]? = some q

section Positions

variable {moves : List (Position × Position)} {froms tos : List Position} {p q : Position} {i : Nat}

theorem movedByAll_cons (move : Position × Position) (moves : List (Position × Position))
    (p : Position) :
    movedByAll (move :: moves) p = movedByAll moves (movedBy move p) := rfl

/-- Moves from a place to itself can be left out. -/
theorem movedByAll_filter (moves : List (Position × Position)) (p : Position) :
    movedByAll (moves.filter fun move => move.1 != move.2) p = movedByAll moves p := by
  induction moves generalizing p with
  | nil => rfl
  | cons move moves ih =>
    rw [movedByAll_cons]
    by_cases hmove : move.1 = move.2
    · have hkept : movedBy move p = p := by
        unfold movedBy
        split
        next hp => rw [hp, hmove]
        next => rfl
      rw [List.filter_cons_of_neg (by simpa using hmove), ih, hkept]
    · rw [List.filter_cons_of_pos (by simpa using hmove), movedByAll_cons, ih]

theorem movedByAll_of_not_mem (h : p ∉ moves.map (·.1)) : movedByAll moves p = p := by
  induction moves with
  | nil => rfl
  | cons move moves ih =>
    rw [List.map_cons, List.mem_cons, not_or] at h
    rw [movedByAll_cons, movedBy, if_neg h.1]
    exact ih h.2

/-- A position that is the old place of a breakpoint ends at the new place of one. -/
theorem movedByAll_mem (h : p ∈ moves.map (·.1)) : movedByAll moves p ∈ moves.map (·.2) := by
  induction moves generalizing p with
  | nil => exact absurd h List.not_mem_nil
  | cons move moves ih =>
    rw [movedByAll_cons, List.map_cons]
    by_cases hagain : movedBy move p ∈ moves.map (·.1)
    · exact List.mem_cons_of_mem _ (ih hagain)
    · have hp : p = move.1 := by
        by_contra hne
        rw [movedBy, if_neg hne] at hagain
        exact hagain ((List.mem_cons.mp h).resolve_left hne)
      rw [movedByAll_of_not_mem hagain, movedBy, if_pos hp]
      exact List.mem_cons_self

/-- Breakpoints are moved one after the other, so what has reached the old place of a later one is
    moved on. -/
theorem movedByAll_zip_eq_iff (hfroms : froms.Nodup) (htos : tos.Nodup)
    (hlength : froms.length = tos.length) (hp : froms[i]? = some p) (hq : tos[i]? = some q) :
    movedByAll (froms.zip tos) p = q ↔ q ∉ froms.drop (i + 1) := by
  induction froms generalizing tos i with
  | nil => simp at hp
  | cons a froms ih =>
    cases tos with
    | nil => simp at hq
    | cons b tos =>
      obtain ⟨ha, hfroms⟩ := List.nodup_cons.mp hfroms
      obtain ⟨hb, htos⟩ := List.nodup_cons.mp htos
      have hlength : froms.length = tos.length := Nat.succ.inj hlength
      have hfirst : (froms.zip tos).map (·.1) = froms := List.map_fst_zip (Nat.le_of_eq hlength)
      have hsecond : (froms.zip tos).map (·.2) = tos := List.map_snd_zip (Nat.le_of_eq hlength.symm)
      rw [List.zip_cons_cons, movedByAll_cons]
      cases i with
      | zero =>
        obtain rfl : a = p := Option.some.inj hp
        obtain rfl : b = q := Option.some.inj hq
        have hmoved : movedBy (a, b) a = b := if_pos rfl
        rw [hmoved, List.drop_succ_cons, List.drop_zero]
        constructor
        · intro hstays hmem
          -- From the old place of a later breakpoint it goes to a new place, which is not this one.
          have hlater := movedByAll_mem (hfirst.symm ▸ hmem)
          rw [hstays, hsecond] at hlater
          exact hb hlater
        · intro hnot
          exact movedByAll_of_not_mem (hfirst.symm ▸ hnot)
      | succ i =>
        have hmem : p ∈ froms := List.mem_of_getElem? hp
        have hkept : movedBy (a, b) p = p := if_neg (ne_of_mem_of_not_mem hmem ha)
        rw [hkept, List.drop_succ_cons]
        exact ih hfroms htos hlength hp hq

theorem overtaken_iff (hq : tos[i]? = some q) : Overtaken froms tos i ↔ q ∈ froms.drop (i + 1) := by
  rw [List.mem_iff_getElem?]
  constructor
  · rintro ⟨j, q', hj, hq', hfrom⟩
    obtain rfl : q = q' := Option.some.inj (hq.symm.trans hq')
    refine ⟨j - (i + 1), ?_⟩
    rw [List.getElem?_drop, show i + 1 + (j - (i + 1)) = j by omega]
    exact hfrom
  · rintro ⟨j, hj⟩
    rw [List.getElem?_drop] at hj
    exact ⟨i + 1 + j, q, by omega, hq, hj⟩

/-- A breakpoint ends at its new place exactly if it is not overtaken. -/
theorem movedByAll_zip_eq_iff_not_overtaken (hfroms : froms.Nodup) (htos : tos.Nodup)
    (hlength : froms.length = tos.length) (hp : froms[i]? = some p) (hq : tos[i]? = some q) :
    movedByAll (froms.zip tos) p = q ↔ ¬ Overtaken froms tos i := by
  rw [movedByAll_zip_eq_iff hfroms htos hlength hp hq, overtaken_iff hq]

end Positions

/-! ### Entities -/

theorem Tag.text_position_injective (ns : Text) (f : ResourceName) :
    Function.Injective fun p => Tag.text ns (.position f p) := by
  intro p q h
  have hsuffix := Tag.text_eq_iff.mp h
  rw [Tag.suffix_position, Tag.suffix_position, List.cons.injEq, List.append_cancel_left_eq,
    List.cons.injEq] at hsuffix
  exact Position.text_injective hsuffix.2.2

namespace Entity

/-- The tags of an entity tell this position in a function and no other, or none. -/
def StandsAt (ns : Text) (f : ResourceName) (x : Option Position) (e : Entity) : Prop :=
  ∀ p, Tag.text ns (.position f p) ∈ e.tags ↔ x = some p

/-- Two entities are the same, but for the tags of positions in a function. -/
structure SameBut (ns : Text) (f : ResourceName) (e e' : Entity) : Prop where
  tags : ∀ t, (∀ p, t ≠ Tag.text ns (.position f p)) → (t ∈ e'.tags ↔ t ∈ e.tags)
  rest : e' = { e with tags := e'.tags }

/-- The tags of positions in a function are renamed all at once, and nothing else of an entity
    changes. -/
structure Renamed (ns : Text) (f : ResourceName) (froms tos : List Position) (e e' : Entity) : Prop
    extends SameBut ns f e e' where
  /-- an entity has a new tag exactly if it had the old one -/
  moved : ∀ (i : Nat) p q, froms[i]? = some p → tos[i]? = some q →
    (Tag.text ns (.position f q) ∈ e'.tags ↔ Tag.text ns (.position f p) ∈ e.tags)
  /-- there is no other tag of a position in the function -/
  only : ∀ q, Tag.text ns (.position f q) ∈ e'.tags → q ∈ tos

/-- The entity after a tag was renamed in two steps. -/
def move (ns : Text) (f : ResourceName) (m : Position × Position) (e : Entity) : Entity :=
  let old := Tag.text ns (.position f m.1)
  let added := if e.tags.contains old then e.addTag (Tag.text ns (.position f m.2)) else e
  if added.tags.contains old then added.removeTag old else added

/-- The entity after tags were renamed one after the other. -/
def moveAll (ns : Text) (f : ResourceName) (moves : List (Position × Position)) (e : Entity) :
    Entity :=
  moves.foldl (fun e m => e.move ns f m) e

variable {ns : Text} {f : ResourceName} {m : Position × Position}
  {moves : List (Position × Position)} {x : Option Position} {e e' e'' : Entity}

theorem SameBut.refl (e : Entity) : e.SameBut ns f e := ⟨fun _ _ => .rfl, rfl⟩

theorem SameBut.trans (h : e.SameBut ns f e') (h' : e'.SameBut ns f e'') : e.SameBut ns f e'' := by
  refine ⟨fun t ht => (h'.tags t ht).trans (h.tags t ht), ?_⟩
  rw [h'.rest, h.rest]

/-- A tag that is not there is not renamed. -/
theorem move_of_not_mem (h : Tag.text ns (.position f m.1) ∉ e.tags) : e.move ns f m = e := by
  have hnot : ¬ e.tags.contains (Tag.text ns (.position f m.1)) = true :=
    mt List.contains_iff_mem.mp h
  simp only [move, if_neg hnot]

/-- The tags after one was renamed that is there. -/
theorem mem_tags_move (h : Tag.text ns (.position f m.1) ∈ e.tags) {t : Text} :
    t ∈ (e.move ns f m).tags ↔
      (t = Tag.text ns (.position f m.2) ∨ t ∈ e.tags) ∧ t ≠ Tag.text ns (.position f m.1) := by
  have hadded : Tag.text ns (.position f m.1) ∈ (e.addTag (Tag.text ns (.position f m.2))).tags :=
    Entity.mem_tags_addTag.mpr (.inr h)
  rw [move, if_pos (List.contains_iff_mem.mpr h), if_pos (List.contains_iff_mem.mpr hadded),
    removeTag, List.mem_filter, Entity.mem_tags_addTag, bne_iff_ne]

/-- Renaming a tag changes only tags of positions in the function. -/
theorem sameBut_move (e : Entity) (m : Position × Position) : e.SameBut ns f (e.move ns f m) := by
  by_cases h : Tag.text ns (.position f m.1) ∈ e.tags
  · constructor
    · intro t ht
      rw [mem_tags_move h]
      have hnew : t ≠ Tag.text ns (.position f m.2) := ht m.2
      have hold : t ≠ Tag.text ns (.position f m.1) := ht m.1
      simp [hnew, hold]
    · have hadd : ∀ t, e.addTag t = { e with tags := (e.addTag t).tags } := by
        intro t
        unfold addTag
        split <;> rfl
      simp only [move, if_pos (List.contains_iff_mem.mpr h)]
      split
      · rw [hadd]
        rfl
      · exact hadd _
  · rw [move_of_not_mem h]
    exact .refl e

/-- An entity that stood at the old place stands at the new one, and any other where it stood. -/
theorem StandsAt.move (h : e.StandsAt ns f x) (hm : m.1 ≠ m.2) :
    (e.move ns f m).StandsAt ns f (x.map (movedBy m)) := by
  intro p
  by_cases hold : Tag.text ns (.position f m.1) ∈ e.tags
  · have hx : x = some m.1 := (h m.1).mp hold
    have hmoved : movedBy m m.1 = m.2 := if_pos rfl
    rw [mem_tags_move hold, h p, hx, Option.map_some, hmoved,
      (Tag.text_position_injective ns f).eq_iff, (Tag.text_position_injective ns f).ne_iff,
      Option.some.injEq, Option.some.injEq]
    constructor
    · rintro ⟨rfl | rfl, hne⟩
      · rfl
      · exact absurd rfl hne
    · rintro rfl
      exact ⟨.inl rfl, hm.symm⟩
  · have hkept : x.map (movedBy m) = x := by
      cases x with
      | none => rfl
      | some p =>
        have hp : p ≠ m.1 := by
          rintro rfl
          exact hold ((h m.1).mpr rfl)
        rw [Option.map_some, movedBy, if_neg hp]
    rw [move_of_not_mem hold, hkept]
    exact h p

/-- After all moves an entity stands where they take its position. -/
theorem StandsAt.moveAll (h : e.StandsAt ns f x) (hmoves : ∀ m ∈ moves, m.1 ≠ m.2) :
    (e.moveAll ns f moves).StandsAt ns f (x.map (movedByAll moves)) ∧
    e.SameBut ns f (e.moveAll ns f moves) := by
  induction moves generalizing e x with
  | nil =>
    have hx : x.map (movedByAll []) = x := by
      cases x <;> rfl
    rw [hx]
    exact ⟨h, .refl e⟩
  | cons m moves ih =>
    obtain ⟨hm, hmoves⟩ := List.forall_mem_cons.mp hmoves
    obtain ⟨hstands, hsame⟩ := ih (h.move hm) hmoves
    rw [Option.map_map] at hstands
    exact ⟨hstands, (sameBut_move e m).trans hsame⟩

/-- An entity is renamed at once exactly if the breakpoint at which it stands is not overtaken. -/
theorem StandsAt.renamed_iff {froms tos : List Position} (hfroms : froms.Nodup) (htos : tos.Nodup)
    (hlength : froms.length = tos.length) (h : e.StandsAt ns f x) (hx : ∀ p, x = some p → p ∈ froms)
    (h' : e'.StandsAt ns f (x.map (movedByAll (froms.zip tos)))) (hsame : e.SameBut ns f e') :
    e.Renamed ns f froms tos e' ↔
      ∀ i p, froms[i]? = some p → Tag.text ns (.position f p) ∈ e.tags →
        ¬ Overtaken froms tos i := by
  constructor
  · intro hrenamed i p hp hmem
    obtain ⟨q, hq⟩ : ∃ q, tos[i]? = some q := by
      have hi : i < froms.length := (List.getElem?_eq_some_iff.mp hp).1
      exact ⟨_, List.getElem?_eq_getElem (hlength ▸ hi)⟩
    have hnew := (h' q).mp ((hrenamed.moved i p q hp hq).mpr hmem)
    rw [(h p).mp hmem, Option.map_some, Option.some.injEq] at hnew
    exact (movedByAll_zip_eq_iff_not_overtaken hfroms htos hlength hp hq).mp hnew
  · intro hnot
    cases x with
    | none =>
      -- An entity without a position has none afterwards.
      refine ⟨hsame, fun i p q _ _ => ?_, fun q hq => ?_⟩
      · rw [h' q, h p]
        simp
      · exact absurd ((h' q).mp hq) (by simp)
    | some p =>
      obtain ⟨i, hp⟩ := List.mem_iff_getElem?.mp (hx p rfl)
      have hi : i < tos.length := hlength ▸ (List.getElem?_eq_some_iff.mp hp).1
      obtain ⟨q, hq⟩ : ∃ q, tos[i]? = some q := ⟨_, List.getElem?_eq_getElem hi⟩
      have hmoved : movedByAll (froms.zip tos) p = q :=
        (movedByAll_zip_eq_iff_not_overtaken hfroms htos hlength hp hq).mpr
          (hnot i p hp ((h p).mpr rfl))
      rw [Option.map_some, hmoved] at h'
      refine ⟨hsame, fun j p' q' hp' hq' => ?_, fun q' hmem => ?_⟩
      · rw [h' q', h p', Option.some.injEq, Option.some.injEq]
        constructor
        · rintro rfl
          have hij : i = j := (List.getElem?_inj hi htos).mp (hq.trans hq'.symm)
          subst hij
          exact Option.some.inj (hp.symm.trans hp')
        · rintro rfl
          have hij : i = j := (List.getElem?_inj (hlength ▸ hi) hfroms).mp (hp.trans hp'.symm)
          subst hij
          exact Option.some.inj (hq.symm.trans hq')
      · rw [h' q', Option.some.injEq] at hmem
        exact hmem ▸ List.mem_of_getElem? hq

end Entity

/-! ### The injected commands -/

/-- All entities with the tag of a position. -/
def Target.standing (f : ResourceName) (p : Position) : Target :=
  .select { clouds := false, tags := [.position f p] }

/-- The instructions that rename the tag of a position. -/
def moveInstructions (f : ResourceName) (m : Position × Position) : List Instruction :=
  [.addTag (.standing f m.1) (.position f m.2), .removeTag (.standing f m.1) (.position f m.1)]

section Commands

variable {c : PackConfig} {f : ResourceName} {m : Position × Position}
  {moves : List (Position × Position)} {call : UnitName → Executor → World → Option World}
  {x : Executor} {w : World}

/-- The commands that rename a tag are those of the instructions. -/
theorem text_moveInstructions (c : PackConfig) (f : ResourceName) (m : Position × Position) :
    (SessionM.moveCommands c.ns f m).map (·.command) =
      (moveInstructions f m).map (Instruction.text c) := by
  have hopen : Text.ofString "tag @e[tag=" = "tag " ++ ("@e[" ++ "tag=") := by decide +kernel
  have hadd : Text.ofString "] add " = "]" ++ " add " := by decide +kernel
  have hremove : Text.ofString "] remove " = "]" ++ " remove " := by decide +kernel
  simp [SessionM.moveCommands, moveInstructions, Instruction.text, Target.standing, Target.text,
    Selection.conditions, Text.join, hopen, hadd, hremove]

theorem text_moves (c : PackConfig) (f : ResourceName) (moves : List (Position × Position)) :
    (moves.flatMap (SessionM.moveCommands c.ns f)).map (·.command) =
      (moves.flatMap (moveInstructions f)).map (Instruction.text c) := by
  rw [List.map_flatMap, List.map_flatMap]
  simp only [text_moveInstructions]

theorem Target.picks_standing {ns : Text} {p : Position} {e : Entity} :
    (Target.standing f p).picks ns x e = e.tags.contains (Tag.text ns (.position f p)) := by
  simp [Target.standing, Target.picks, Selection.accepts]

/-- The two instructions of a move rename the tag of every entity. -/
theorem World.perform_move (hids : (w.entities.map (·.id)).Nodup) :
    World.perform c call (moveInstructions f m) x w =
      some { w with entities := w.entities.map (Entity.move c.ns f m) } := by
  have hall : (Target.standing f m.1).isAll = true := rfl
  let w₁ : World := { w with
    entities := changed ((Target.standing f m.1).picks c.ns x)
      (Entity.addTag (Tag.text c.ns (.position f m.2))) w.entities }
  have hids₁ : (w₁.entities.map (·.id)).Nodup := by
    rw [map_id_changed (Entity.id_addTag _)]
    exact hids
  have hadd : Instruction.effect c call (.addTag (.standing f m.1) (.position f m.2)) x w =
      some w₁ := by
    rw [Instruction.effect, World.select_eq_filter hall, World.update_filter hids]
  have hremove : Instruction.effect c call (.removeTag (.standing f m.1) (.position f m.1)) x w₁ =
      some { w with entities := w.entities.map (Entity.move c.ns f m) } := by
    rw [Instruction.effect, World.select_eq_filter hall, World.update_filter hids₁]
    simp only [w₁, changed, List.map_map, Function.comp_def, Target.picks_standing]
    rfl
  rw [World.perform, moveInstructions, List.foldlM_cons, hadd, Option.bind_eq_bind,
    Option.bind_some, List.foldlM_cons, hremove]
  rfl

theorem Entity.id_move (ns : Text) (f : ResourceName) (m : Position × Position) (e : Entity) :
    (e.move ns f m).id = e.id := by
  rw [(Entity.sameBut_move e m).rest]

/-- The instructions of moves one after the other rename the tags of every entity. -/
theorem World.perform_moves (hids : (w.entities.map (·.id)).Nodup) :
    World.perform c call (moves.flatMap (moveInstructions f)) x w =
      some { w with entities := w.entities.map (Entity.moveAll c.ns f moves) } := by
  induction moves generalizing w with
  | nil =>
    have hsame : w.entities.map (Entity.moveAll c.ns f []) = w.entities := List.map_id _
    rw [hsame]
    rfl
  | cons m moves ih =>
    have hids' : ((w.entities.map (Entity.move c.ns f m)).map (·.id)).Nodup := by
      rw [List.map_map]
      simpa only [Function.comp_def, Entity.id_move] using hids
    have hfirst : World.perform c call (moveInstructions f m) x w =
        some { w with entities := w.entities.map (Entity.move c.ns f m) } := World.perform_move hids
    have hrest := ih (w := { w with entities := w.entities.map (Entity.move c.ns f m) }) hids'
    rw [List.flatMap_cons, World.perform, List.foldlM_append]
    rw [World.perform] at hfirst hrest
    rw [hfirst, Option.bind_eq_bind, Option.bind_some, hrest, List.map_map]
    rfl

end Commands

/-! ### Sets of breakpoints -/

namespace Breakpoints

variable {bs old new : Breakpoints}

/-- No two breakpoints that have an effect are at the same place. -/
theorem nodup_positions (h : SortedAssoc.Sorted Position.compare bs) :
    bs.effective.positions.Nodup := by
  rw [positions, effective, List.Nodup, List.pairwise_map]
  refine (List.Pairwise.filter _ h).imp ?_
  intro a b hlt heq
  have hself : Position.compare b.1 b.1 = .eq := Std.ReflCmp.compare_self
  rw [heq, hself] at hlt
  cases hlt

theorem length_eq_of_onlyMoved (h : old.onlyMoved new = true) :
    old.effective.positions.length = new.effective.positions.length := by
  simp only [onlyMoved, Bool.and_eq_true, beq_iff_eq] at h
  exact h.1.2

/-- If breakpoints were moved and nothing else, there are moves. -/
theorem moves_ne_nil (h : old.onlyMoved new = true) : old.moves new ≠ [] := by
  have hlength := length_eq_of_onlyMoved h
  simp only [onlyMoved, Bool.and_eq_true, List.any_eq_true] at h
  obtain ⟨p, hp, hnot⟩ := h.2
  obtain ⟨i, hi, rfl⟩ := List.getElem_of_mem hp
  -- The new place of a breakpoint that has left its own is another one.
  have hmove : (old.effective.positions[i], new.effective.positions[i]) ∈ old.moves new := by
    refine List.mem_filter.mpr ⟨?_, ?_⟩
    · exact List.mem_iff_getElem.mpr ⟨i, by simp; omega, List.getElem_zip⟩
    · rw [bne_iff_ne]
      intro heq
      rw [heq] at hnot
      simp at hnot
  exact List.ne_nil_of_mem hmove

theorem ne_of_mem_moves {m : Position × Position} (h : m ∈ old.moves new) : m.1 ≠ m.2 :=
  bne_iff_ne.mp (List.mem_filter.mp h).2

theorem movedByAll_moves (old new : Breakpoints) (p : Position) :
    movedByAll (old.moves new) p =
      movedByAll (old.effective.positions.zip new.effective.positions) p := movedByAll_filter _ _

end Breakpoints

/-! ### The session -/

namespace SessionM

/-- A stop in the function goes where the moves take its position, and any other stays. -/
theorem foldl_moveStop (f : ResourceName) (moves : List (Position × Position)) (stop : Stop) :
    moves.foldl (moveStop f) stop =
      if stop.function = f then { stop with position := movedByAll moves stop.position }
        else stop := by
  induction moves generalizing stop with
  | nil => exact (ite_self stop).symm
  | cons m moves ih =>
    have hstep : moveStop f stop m =
        if stop.function = f then { stop with position := movedBy m stop.position } else stop := by
      unfold moveStop movedBy
      cases stop
      grind
    rw [List.foldl_cons, ih, hstep]
    by_cases hf : stop.function = f <;> simp [hf, movedByAll_cons]

/-- The first thing a move of breakpoints asks for are the commands that rename tags, and the stop
    goes with them whatever the server replies. -/
theorem Ensures.moves {s : Session} {f : ResourceName} {old new : Breakpoints}
    (hmoves : old.moves new ≠ []) :
    (SessionM.moveBreakpoints f old new).Ensures s fun h _ s' =>
      (∃ reply rest, h = ⟨.inject ((old.moves new).flatMap (moveCommands s.ns f)), reply⟩ :: rest) ∧
        s'.stop = s.stop.map fun stop => (old.moves new).foldl (moveStop f) stop := by
  refine Ensures.moveBreakpoints.mono fun h _ s' hmoved => ?_
  cases hmoved with
  | unmoved hempty => exact absurd hempty hmoves
  | @failed failure h _ hfails =>
    refine ⟨⟨some failure, h, rfl⟩, ?_⟩
    cases hfails <;> rfl
  | moved => exact ⟨⟨none, [], rfl⟩, rfl⟩

end SessionM

/-- When breakpoints were only moved, commands are injected that rename the tags of their positions
    one after the other.  Each entity that stands at an old place, or at none, is afterwards as if
    all tags were renamed at once, and the stop is at the new place, exactly if the breakpoint is
    not moved to the old place of a later one. -/
theorem moved_at_once_iff {c : PackConfig} {s s' : Session} {f : ResourceName}
    {old new : Breakpoints} {h : SessionM.History} {r : Except SessionError Unit}
    (hns : s.ns = c.ns) (hold : SortedAssoc.Sorted Position.compare old)
    (hnew : SortedAssoc.Sorted Position.compare new) (hmoved : old.onlyMoved new = true)
    (hrun : (SessionM.moveBreakpoints f old new).Yields s h r s') :
    (∃ commands reply rest, h = ⟨.inject commands, reply⟩ :: rest ∧
      commands.map (·.command) =
        ((old.moves new).flatMap (moveInstructions f)).map (Instruction.text c)) ∧
    (∀ call x w, (w.entities.map (·.id)).Nodup →
      (∀ e ∈ w.entities, ∃ y, e.StandsAt c.ns f y ∧ ∀ p, y = some p → p ∈ old.effective.positions) →
      ∃ entities, World.perform c call ((old.moves new).flatMap (moveInstructions f)) x w =
          some { w with entities } ∧
        List.Forall₂ (fun e e' =>
          e.Renamed c.ns f old.effective.positions new.effective.positions e' ↔
            ∀ i p, old.effective.positions[i]? = some p → Tag.text c.ns (.position f p) ∈ e.tags →
              ¬ Overtaken old.effective.positions new.effective.positions i) w.entities entities) ∧
    ∀ stop, s.stop = some stop → ∃ position, s'.stop = some { stop with position } ∧
      (∀ i p q, old.effective.positions[i]? = some p → new.effective.positions[i]? = some q →
        stop.function = f → stop.position = p →
          (position = q ↔ ¬ Overtaken old.effective.positions new.effective.positions i)) ∧
      (stop.function ≠ f ∨ stop.position ∉ old.effective.positions → position = stop.position) := by
  have hfroms := Breakpoints.nodup_positions hold
  have htos := Breakpoints.nodup_positions hnew
  have hlength := Breakpoints.length_eq_of_onlyMoved hmoved
  obtain ⟨⟨reply, rest, rfl⟩, hstop⟩ :=
    SessionM.Ensures.moves (Breakpoints.moves_ne_nil hmoved) h r s' hrun
  refine ⟨⟨_, reply, rest, rfl, ?_⟩, fun call x w hids hstands => ?_, fun stop hs => ?_⟩
  · rw [hns]
    exact text_moves c f _
  · refine ⟨_, World.perform_moves hids, ?_⟩
    rw [List.forall₂_map_right_iff, List.forall₂_same]
    intro e he
    obtain ⟨y, hy, hplaces⟩ := hstands e he
    obtain ⟨hy', hsame⟩ := hy.moveAll fun m hm => Breakpoints.ne_of_mem_moves hm
    rw [funext (Breakpoints.movedByAll_moves old new)] at hy'
    exact hy.renamed_iff hfroms htos hlength hplaces hy' hsame
  · rw [hs, Option.map_some, SessionM.foldl_moveStop] at hstop
    by_cases hf : stop.function = f
    · rw [if_pos hf, Breakpoints.movedByAll_moves] at hstop
      refine ⟨_, hstop, fun i p q hp hq _ hposition => ?_, fun hother => ?_⟩
      · rw [hposition]
        exact movedByAll_zip_eq_iff_not_overtaken hfroms htos hlength hp hq
      · refine movedByAll_of_not_mem ?_
        rw [List.map_fst_zip (Nat.le_of_eq hlength)]
        exact hother.resolve_left (not_not_intro hf)
    · rw [if_neg hf] at hstop
      exact ⟨stop.position, hstop, fun i p q _ _ hfunction => absurd hfunction hf, fun _ => rfl⟩

/-- A breakpoint before a line. -/
def beforeLine (n : Nat) : Position × Breakpoint := (⟨n, .breakpoint⟩, { type := .normal })

/-- A session that is stopped before the first line of a function. -/
def stoppedSession : Session where
  grammar := ⟨#[]⟩
  launch := some { datapack := "p", entry := ⟨"t", "f"⟩, output := "o", config := {} }
  stop := some { function := ⟨"t", "f"⟩, position := ⟨1, .breakpoint⟩, reason := .breakpoint }

/-- The world of that session, with an entity for the call. -/
def stoppedWorld : World where
  entities :=
    [{ id := 0, isCloud := true,
       tags := [Tag.text "mcfd" (.position ⟨"t", "f"⟩ ⟨1, .breakpoint⟩)] }]
  nextId := 1
  scores := fun _ _ => none
  block := none
  record := []

/-- The breakpoints before the first two lines are moved to the next lines. -/
def shiftedRun : (Except SessionError Unit × Session) × SessionM.History :=
  (SessionM.moveBreakpoints ⟨"t", "f"⟩ [beforeLine 1, beforeLine 2]
    [beforeLine 2, beforeLine 3]).talk
    (SessionM.SteadyHost.reply { tree := SessionM.sampleTree [] }) stoppedSession

/-- What stood before the first line has gone on with what stood before the second one. -/
theorem not_moved_at_once_shiftedRun :
    (∃ position, position ≠ ⟨2, .breakpoint⟩ ∧ shiftedRun.1.2.stop =
      some { function := ⟨"t", "f"⟩, position, reason := .breakpoint }) ∧
    ∃ entities, World.perform {} (fun _ _ => some)
        ((Breakpoints.moves [beforeLine 1, beforeLine 2] [beforeLine 2, beforeLine 3]).flatMap
          (moveInstructions ⟨"t", "f"⟩)) none stoppedWorld = some { stoppedWorld with entities } ∧
      List.Forall₂ (fun e e' =>
        ¬ Entity.Renamed "mcfd" ⟨"t", "f"⟩ [⟨1, .breakpoint⟩, ⟨2, .breakpoint⟩]
        [⟨2, .breakpoint⟩, ⟨3, .breakpoint⟩] e e') stoppedWorld.entities entities := by
  have hovertaken : Overtaken [⟨1, .breakpoint⟩, ⟨2, .breakpoint⟩]
      [⟨2, .breakpoint⟩, ⟨3, .breakpoint⟩] 0 :=
    ⟨1, ⟨2, .breakpoint⟩, by decide, rfl, rfl⟩
  have hstands : ∀ e ∈ stoppedWorld.entities, ∃ y, e.StandsAt "mcfd" ⟨"t", "f"⟩ y ∧
      ∀ p, y = some p → p ∈ [(⟨1, .breakpoint⟩ : Position), ⟨2, .breakpoint⟩] := by
    intro e he
    obtain rfl := List.mem_singleton.mp he
    refine ⟨some ⟨1, .breakpoint⟩, fun p => ?_, fun p hp => ?_⟩
    · rw [List.mem_singleton, (Tag.text_position_injective "mcfd" ⟨"t", "f"⟩).eq_iff,
        Option.some.injEq, eq_comm]
    · exact Option.some.inj hp ▸ List.mem_cons_self
  have hns : stoppedSession.ns = PackConfig.ns {} := rfl
  have hsorted : ∀ n, SortedAssoc.Sorted Position.compare [beforeLine n, beforeLine (n + 1)] := by
    intro n
    refine List.pairwise_pair.mpr ?_
    simp [beforeLine, Position.compare, Nat.compare_eq_lt.mpr (Nat.lt_succ_self n), Ordering.then]
  have hrun : (SessionM.moveBreakpoints ⟨"t", "f"⟩ [beforeLine 1, beforeLine 2]
      [beforeLine 2, beforeLine 3]).Yields stoppedSession shiftedRun.2 shiftedRun.1.1
        shiftedRun.1.2 :=
    SessionM.yields_talk ..
  obtain ⟨-, hworld, hstop⟩ := moved_at_once_iff hns (hsorted 1) (hsorted 2) (by decide) hrun
  obtain ⟨position, hposition, hplace, -⟩ := hstop _ rfl
  obtain ⟨entities, hperform, hrenamed⟩ := hworld (fun _ _ => some) none stoppedWorld
    (List.nodup_singleton _) hstands
  refine ⟨⟨position, ?_, hposition⟩, entities, hperform, ?_⟩
  · rintro rfl
    exact (hplace 0 _ _ rfl rfl rfl rfl).mp rfl hovertaken
  · cases hrenamed with
    | cons hfirst hrest =>
      refine .cons (fun h => ?_) ?_
      · exact hfirst.mp h 0 _ rfl List.mem_cons_self hovertaken
      · cases hrest
        exact .nil

end DatapackDebug

import DatapackDebug.Proofs.Completes
import DatapackDebug.Proofs.Names

namespace DatapackDebug

/-!
# The frames of calls among the entities of a world

While a program runs, each call is an entity with the depth of the call as a score.

* `CallFrame`, `CallFrame.Shown` — a call, and an entity that stands for it;
* `Layout` — the entities of a world: the frames, the innermost first, then all others;
* `Layout.select`, `Layout.unselect`, `Layout.suspendAll` — what a change of entities does to
  frames;
* `World.executorsOf_frame` — only the innermost frame is at the current depth.
-/

/-! ### Frames -/

/-- A call that has not returned. -/
structure CallFrame where
  function : ResourceName
  /-- the line whose call is being executed -/
  site : Option Nat := none
  /-- was it there at a stop? -/
  suspended : Bool := false
  /-- does the call that it made return to it? -/
  target : Bool := false
deriving DecidableEq, Repr

/-- The tags of the entity that stands for a call. -/
def CallFrame.tags (fr : CallFrame) : List Tag :=
  [.own, .functionCall, .function fr.function] ++ (if fr.suspended then [.suspended] else []) ++
    (if fr.target then [.returnTarget] else []) ++
    (fr.site.map fun line => Tag.position fr.function (Generate.callSite line)).toList

/-- The tags of the entity that stands for a call, one by one. -/
@[simp] theorem CallFrame.mem_tags {fr : CallFrame} {tag : Tag} :
    tag ∈ fr.tags ↔ tag = .own ∨ tag = .functionCall ∨ tag = .function fr.function ∨
      (tag = .suspended ∧ fr.suspended = true) ∨ (tag = .returnTarget ∧ fr.target = true) ∨
      ∃ line, fr.site = some line ∧ tag = .position fr.function (Generate.callSite line) := by
  cases hs : fr.suspended <;> cases ht : fr.target <;> cases hsite : fr.site <;>
    simp [CallFrame.tags, hs, ht, hsite]

/-- The entity stands for a call at some depth. -/
structure CallFrame.Shown (ns : Text) (depth : Nat) (fr : CallFrame) (e : Entity) : Prop where
  cloud : e.isCloud = true
  depth : e.depth = some (depth : Int)
  anchor : ∃ a : Int, e.anchor = some a ∧ a ≤ 1
  tags : ∀ t, t ∈ e.tags ↔ ∃ tag ∈ fr.tags, tag.text ns = t

/-- The tags that only frames and markers have. -/
def Tag.inUse : List Tag := [.functionCall, .new, .breakpoint, .returnTarget]

theorem Tag.inUse_subset_fixed : Tag.inUse ⊆ Tag.fixed := by decide

/-- An entity that is neither a frame nor the marker of a stop. -/
def Entity.Idle (ns : Text) (e : Entity) : Prop := ∀ tag ∈ Tag.inUse, tag.text ns ∉ e.tags

/-- The entities of a world are the frames of calls, the innermost first, and others that are
    idle. -/
inductive Layout (ns : Text) (others : List Entity) : List CallFrame → List Entity → Prop where
  | nil : (others.map (·.id)).Nodup → (∀ e ∈ others, e.Idle ns) → Layout ns others [] others
  | push {fr frs e es} : Layout ns others frs es → fr.Shown ns (frs.length + 1) e →
      e.id ∉ es.map (·.id) → Layout ns others (fr :: frs) (e :: es)

variable {tag : Tag} {e : Entity} {ns : Text} {x : Executor} {es others : List Entity}
  {frs : List CallFrame}

/-- The tags of an entity with one tag more. -/
theorem Entity.mem_tags_addTag {t t' : Text} : t' ∈ (e.addTag t).tags ↔ t' = t ∨ t' ∈ e.tags := by
  unfold Entity.addTag
  split
  · exact ⟨.inr, fun h => h.elim (fun h => h ▸ ‹_›) fun h => h⟩
  · simp

section

variable {depth : Nat} {fr fr' : CallFrame}

/-- A tag that names no function is on the entity of a call exactly if it is among its tags. -/
theorem CallFrame.Shown.mem_fixed (h : fr.Shown ns depth e) (ht : tag ∈ Tag.fixed) :
    tag.text ns ∈ e.tags ↔ tag ∈ fr.tags := by
  rw [h.tags]
  constructor
  · rintro ⟨tag', hmem, htext⟩
    exact Tag.text_fixed_inj ht htext ▸ hmem
  · exact fun hmem => ⟨tag, hmem, rfl⟩

/-- A tag is added to the entity of a call. -/
theorem CallFrame.Shown.addTag (h : fr.Shown ns depth e)
    (htags : ∀ tag', tag' ∈ fr'.tags ↔ tag' = tag ∨ tag' ∈ fr.tags) :
    fr'.Shown ns depth (e.addTag (tag.text ns)) := by
  refine ⟨?_, ?_, ?_, fun t => ?_⟩
  · unfold Entity.addTag; split <;> exact h.cloud
  · unfold Entity.addTag; split <;> exact h.depth
  · unfold Entity.addTag; split <;> exact h.anchor
  · rw [Entity.mem_tags_addTag, h.tags]
    simp only [htags, or_and_right, exists_or, exists_eq_left]
    rw [eq_comm]

/-- A tag is removed from the entity of a call, and with it no other tag. -/
theorem CallFrame.Shown.removeTag (h : fr.Shown ns depth e)
    (htags : ∀ tag', tag' ∈ fr'.tags ↔ tag' ≠ tag ∧ tag' ∈ fr.tags)
    (hinj : ∀ tag' ∈ fr.tags, tag'.text ns = tag.text ns → tag' = tag) :
    fr'.Shown ns depth (e.removeTag (tag.text ns)) := by
  refine ⟨h.cloud, h.depth, h.anchor, fun t => ?_⟩
  simp only [Entity.removeTag, List.mem_filter, h.tags, bne_iff_ne]
  constructor
  · rintro ⟨⟨tag', hmem, rfl⟩, hne⟩
    exact ⟨tag', (htags tag').mpr ⟨fun heq => hne (heq ▸ rfl), hmem⟩, rfl⟩
  · rintro ⟨tag', hmem, rfl⟩
    obtain ⟨hne, hmem⟩ := (htags tag').mp hmem
    exact ⟨⟨tag', hmem, rfl⟩, fun heq => hne (hinj tag' hmem heq)⟩

/-! ### Layouts -/

namespace Layout

section

variable (h : Layout ns others frs es)

include h

/-- No two entities have the same number. -/
theorem nodup : (es.map (·.id)).Nodup := by
  induction h with
  | nil hids _ => exact hids
  | push _ _ hid ih => exact List.nodup_cons.mpr ⟨hid, ih⟩

/-- The others are idle. -/
theorem idle : ∀ e ∈ others, e.Idle ns := by
  induction h with
  | nil _ hidle => exact hidle
  | push _ _ _ ih => exact ih

/-- The others are among the entities. -/
theorem others_subset : others ⊆ es := by
  induction h with
  | nil => exact fun _ h => h
  | push _ _ _ ih => exact fun _ h => List.mem_cons_of_mem _ (ih h)

end

/-- The innermost frame comes first. -/
theorem top (h : Layout ns others (fr :: frs) es) :
    ∃ e rest, es = e :: rest ∧ fr.Shown ns (frs.length + 1) e ∧ e.id ∉ rest.map (·.id) ∧
      Layout ns others frs rest := by
  cases h with
  | push hrest hshown hid => exact ⟨_, _, rfl, hshown, hid, hrest⟩

/-- Without frames there are the others only. -/
theorem eq_others (h : Layout ns others [] es) : es = others := by
  cases h
  rfl

/-- The depth of frames is at most their number. -/
theorem depth_le (h : Layout ns others frs es) (he : e ∈ es)
    (ht : Tag.functionCall.text ns ∈ e.tags) :
    ∃ d : Nat, e.depth = some (d : Int) ∧ d ≤ frs.length := by
  induction h with
  | nil _ hidle => exact absurd ht (hidle e he _ (by decide))
  | push _ hshown _ ih =>
    rcases List.mem_cons.mp he with rfl | he
    · exact ⟨_, hshown.depth, Nat.le_refl _⟩
    · obtain ⟨d, hd, hle⟩ := ih he
      exact ⟨d, hd, Nat.le_succ_of_le hle⟩

/-- A tag of frames and markers that no frame has is on no entity. -/
theorem not_mem_tags (h : Layout ns others frs es) (htag : tag ∈ Tag.inUse)
    (hframes : ∀ fr ∈ frs, tag ∉ fr.tags) : ∀ e ∈ es, tag.text ns ∉ e.tags := by
  have hfixed := Tag.inUse_subset_fixed htag
  induction h with
  | nil _ hidle => exact fun e he => hidle e he tag htag
  | push _ hshown _ ih =>
    intro e he
    rcases List.mem_cons.mp he with rfl | he
    · rw [hshown.mem_fixed hfixed]
      exact hframes _ List.mem_cons_self
    · exact ih (fun fr hfr => hframes fr (List.mem_cons_of_mem _ hfr)) e he

end Layout

end

/-! ### Targets -/

/-- Is an entity among those of a target, of which all are meant? -/
def Target.picks (ns : Text) (x : Executor) : Target → Entity → Bool
  | .self, e => some e.id == x
  | .select s, e => s.accepts ns e

/-- Are all entities meant that a target describes? -/
def Target.isAll : Target → Bool
  | .self => true
  | .select s => !s.one

/-- An invisible entity with some tags is picked by them. -/
theorem Target.picks_clouds {tags : List Tag} :
    (Generate.clouds tags).picks ns x e = true ↔
      e.isCloud = true ∧ ∀ tag ∈ tags, tag.text ns ∈ e.tags := by
  simp [Generate.clouds, Target.picks, Selection.accepts]

/-- The entity of a call is picked by tags that name no function if they are among its tags. -/
theorem CallFrame.Shown.picks_clouds {depth : Nat} {fr : CallFrame} (h : fr.Shown ns depth e)
    {tags : List Tag} (htags : tags ⊆ Tag.fixed) :
    (Generate.clouds tags).picks ns x e = true ↔ ∀ tag ∈ tags, tag ∈ fr.tags := by
  rw [Target.picks_clouds, h.cloud]
  simp only [true_and]
  exact forall₂_congr fun tag htag => h.mem_fixed (htags htag)

/-- The entities with some of them changed. -/
def changed (P : Entity → Bool) (f : Entity → Entity) (es : List Entity) : List Entity :=
  es.map fun e => if P e then f e else e

section

variable {P : Entity → Bool} {f : Entity → Entity}

theorem changed_cons : changed P f (e :: es) = (if P e then f e else e) :: changed P f es := rfl

/-- A change of entities that are not there changes nothing. -/
theorem changed_eq_self (h : ∀ e ∈ es, P e = false) : changed P f es = es := by
  rw [changed, List.map_congr_left (g := id) fun e he => by simp [h e he], List.map_id]

/-- A change of the first entity only. -/
theorem changed_first (he : P e = true) (h : ∀ e ∈ es, P e = false) :
    changed P f (e :: es) = f e :: es := by
  rw [changed_cons, if_pos he, changed_eq_self h]

/-- A change that keeps the number of each entity keeps their numbers. -/
theorem map_id_changed (h : ∀ e, (f e).id = e.id) :
    (changed P f es).map (·.id) = es.map (·.id) := by
  simp only [changed, List.map_map]
  refine List.map_congr_left fun e _ => ?_
  simp only [Function.comp_apply]
  split <;> simp [h]

end

/-- A tag that is added or removed, or a score that is set, leaves the number of an entity. -/
@[simp] theorem Entity.id_addTag (t : Text) (e : Entity) : (e.addTag t).id = e.id := by
  unfold Entity.addTag
  split <;> rfl

@[simp] theorem Entity.id_removeTag (t : Text) (e : Entity) : (e.removeTag t).id = e.id := rfl

/-- An entity with its number in front of others is not among them. -/
theorem picks_self_eq_false (h : e.id ∉ es.map (·.id)) :
    ∀ e' ∈ es, Target.self.picks ns (some e.id) e' = false := by
  intro e' he'
  simp only [Target.picks, beq_eq_false_iff_ne, ne_eq, Option.some.injEq]
  exact fun heq => h (heq ▸ List.mem_map_of_mem he')

/-- None of the entities is marked as the one that executes. -/
def Unselected (ns : Text) (es : List Entity) : Prop :=
  ∀ e ∈ es, Tag.selectedEntity.text ns ∉ e.tags

/-- The entities where the one that executes is marked. -/
def selected (ns : Text) (x : Executor) (es : List Entity) : List Entity :=
  changed (Target.self.picks ns x) (Entity.addTag (Tag.selectedEntity.text ns)) es

/-- That one of the others is marked does not change the frames. -/
theorem Layout.select (h : Layout ns others frs es) (hx : ∀ i, x = some i → i ∈ others.map (·.id)) :
    Layout ns (selected ns x others) frs (selected ns x es) := by
  induction h with
  | nil hids hidle =>
    refine .nil (by rwa [selected, map_id_changed (by simp)]) fun e he tag htag => ?_
    obtain ⟨e', he', rfl⟩ := List.mem_map.mp he
    have hne : tag.text ns ≠ Tag.selectedEntity.text ns := fun heq => by
      have := Tag.text_fixed_inj (by decide) heq
      rw [this] at htag
      exact absurd htag (by decide)
    split
    · rw [Entity.mem_tags_addTag]
      exact fun hmem => hmem.elim hne (hidle e' he' tag htag)
    · exact hidle e' he' tag htag
  | @push fr frs e es hes hshown hid ih =>
    have hpicks : Target.self.picks ns x e = false := by
      simp only [Target.picks, beq_eq_false_iff_ne, ne_eq]
      intro heq
      obtain ⟨e', he', hid'⟩ := List.mem_map.mp (hx _ heq.symm)
      exact hid (List.mem_map.mpr ⟨e', hes.others_subset he', hid'⟩)
    rw [selected, selected, changed_cons, if_neg (by simp [hpicks])]
    exact .push ih hshown (by rwa [map_id_changed (by simp)])

/-- An entity is picked as selected exactly if it is marked so. -/
theorem Target.picks_selectedEntity {one : Bool} :
    (Generate.selectedEntity one).picks ns x e = true ↔ Tag.selectedEntity.text ns ∈ e.tags := by
  simp [Generate.selectedEntity, Target.picks, Selection.accepts]

/-- A tag that was added can be removed again. -/
theorem Entity.removeTag_addTag {t : Text} (h : t ∉ e.tags) : (e.addTag t).removeTag t = e := by
  have hkept : e.tags.filter (· != t) = e.tags :=
    List.filter_eq_self.mpr fun t' ht' => bne_iff_ne.mpr fun heq => h (heq ▸ ht')
  simp [Entity.addTag, Entity.removeTag, h, hkept]

/-- Once the executor is no longer marked, the others are as they were. -/
theorem Layout.unselect {y : Executor} (h : Layout ns (selected ns x others) frs es)
    (hothers : Unselected ns others) :
    Layout ns others frs (changed ((Generate.selectedEntity false).picks ns y)
      (Entity.removeTag (Tag.selectedEntity.text ns)) es) := by
  generalize hmarked : selected ns x others = marked at h
  induction h with
  | nil hids hidle =>
    subst hmarked
    -- Only what was tagged to be selected loses the tag again.
    have hback : changed ((Generate.selectedEntity false).picks ns y)
        (Entity.removeTag (Tag.selectedEntity.text ns)) (selected ns x others) = others := by
      rw [changed, selected, changed, List.map_map, List.map_congr_left (g := fun e => e),
        List.map_id']
      intro e he
      by_cases hx : Target.self.picks ns x e = true
      · have hmark : (Generate.selectedEntity false).picks ns y
            (e.addTag (Tag.selectedEntity.text ns)) = true :=
          Target.picks_selectedEntity.mpr (Entity.mem_tags_addTag.mpr (.inl rfl))
        simp [hx, hmark, Entity.removeTag_addTag (hothers e he)]
      · have hmark : ¬ (Generate.selectedEntity false).picks ns y e = true :=
          fun h => hothers e he (Target.picks_selectedEntity.mp h)
        simp [hx, hmark]
    rw [hback]
    refine .nil (by rwa [selected, map_id_changed (by simp)] at hids) fun e he tag htag hmem => ?_
    refine hidle _ (List.mem_map_of_mem he) tag htag ?_
    split
    · exact Entity.mem_tags_addTag.mpr (.inr hmem)
    · exact hmem
  | @push fr frs e es hes hshown hid ih =>
    have hpicks : (Generate.selectedEntity false).picks ns y e = false := by
      rw [Bool.eq_false_iff, ne_eq, Target.picks_selectedEntity, hshown.mem_fixed (by decide)]
      simp
    rw [changed_cons, if_neg (by simp [hpicks])]
    exact .push ih hshown (by rwa [map_id_changed (by simp)])

/-- No two of the others have the same number. -/
theorem Layout.nodup_others (h : Layout ns others frs es) : (others.map (·.id)).Nodup := by
  induction h with
  | nil hids _ => exact hids
  | push _ _ _ ih => exact ih

/-- The entity with a number is found by it. -/
theorem filter_self (hids : (es.map (·.id)).Nodup) (he : e ∈ es) :
    es.filter (Target.self.picks ns (some e.id)) = [e] := by
  obtain ⟨before, after, rfl⟩ := List.append_of_mem he
  have hne : ∀ e' ∈ before ++ after, e'.id ≠ e.id := by
    rw [List.map_append, List.map_cons, List.nodup_middle, List.nodup_cons,
      ← List.map_append] at hids
    exact fun e' he' heq => hids.1 (heq ▸ List.mem_map_of_mem he')
  have hnone : ∀ es ⊆ before ++ after, es.filter (Target.self.picks ns (some e.id)) = [] := by
    refine fun es hes => List.filter_eq_nil_iff.mpr fun e' he' => ?_
    simpa [Target.picks] using hne e' (hes he')
  rw [List.filter_append, List.filter_cons, hnone before (List.subset_append_left ..),
    hnone after (List.subset_append_right ..)]
  simp [Target.picks]

/-- The entities that are marked as the one that executes. -/
theorem Layout.ids_selected {y : Executor} {one : Bool}
    (h : Layout ns (selected ns x others) frs es) (hx : ∀ i, x = some i → i ∈ others.map (·.id))
    (hothers : Unselected ns others) :
    (es.filter ((Generate.selectedEntity one).picks ns y)).map (·.id) = x.toList := by
  have hids : (others.map (·.id)).Nodup := by
    have := h.nodup_others
    rwa [selected, map_id_changed (by simp)] at this
  generalize hmarked : selected ns x others = marked at h
  induction h with
  | nil =>
    subst hmarked
    have hpicks : ∀ e ∈ others, (Generate.selectedEntity one).picks ns y
        (if Target.self.picks ns x e then e.addTag (Tag.selectedEntity.text ns) else e)
          = Target.self.picks ns x e := by
      intro e he
      rw [Bool.eq_iff_iff, Target.picks_selectedEntity]
      by_cases hx : Target.self.picks ns x e = true
      · simp [hx, Entity.mem_tags_addTag]
      · simp [hx, hothers e he]
    have hfilter : ((selected ns x others).filter
        ((Generate.selectedEntity one).picks ns y)).map (·.id) =
          (others.filter (Target.self.picks ns x)).map (·.id) := by
      rw [selected, changed, List.filter_map, List.map_map]
      refine (congrArg _ (List.filter_congr hpicks)).trans (List.map_congr_left fun e _ => ?_)
      simp only [Function.comp_apply]
      split <;> simp
    rw [hfilter]
    cases x with
    | none => simp [Target.picks]
    | some i =>
      obtain ⟨e, he, rfl⟩ := List.mem_map.mp (hx i rfl)
      simp [filter_self hids he]
  | push _ hshown _ ih =>
    rw [List.filter_cons_of_neg]
    · exact ih
    · rw [Target.picks_selectedEntity, hshown.mem_fixed (by decide)]
      simp

/-- All frames are there at a stop. -/
theorem Layout.suspendAll (h : Layout ns others frs es) (x : Executor) :
    Layout ns others (frs.map fun fr => { fr with suspended := true })
      (changed ((Generate.clouds [.functionCall]).picks ns x)
        (Entity.addTag (Tag.suspended.text ns)) es) := by
  induction h with
  | nil hids hidle =>
    rw [changed_eq_self]
    · exact .nil hids hidle
    · refine fun e he => Bool.eq_false_iff.mpr fun hpicks => ?_
      exact hidle e he _ (by decide) ((Target.picks_clouds.mp hpicks).2 _ List.mem_cons_self)
  | @push fr frs e es hes hshown hid ih =>
    have hpicks : (Generate.clouds [.functionCall]).picks ns x e = true :=
      (hshown.picks_clouds (by decide)).mpr (by simp)
    rw [changed_cons, if_pos hpicks, List.map_cons]
    refine .push ih ?_ ?_
    · rw [List.length_map]
      refine hshown.addTag fun tag => ?_
      cases tag <;> simp
    · rw [map_id_changed (by simp), Entity.id_addTag]
      exact hid

/-- A further condition on the anchor of entities with some tags. -/
theorem Target.picks_anchored {tags : List Tag} {r : ScoreRange} :
    (Target.select { tags, anchor := some r }).picks ns x e =
      ((Generate.clouds tags).picks ns x e && e.anchor.any fun n => r.accepts n) := by
  simp [Generate.clouds, Target.picks, Selection.accepts]

namespace World

variable {w : World} {t : Target}

/-- The entities of a target of which all are meant. -/
theorem select_eq_filter (ht : t.isAll = true) :
    w.select ns x t = w.entities.filter (t.picks ns x) := by
  cases t with
  | self => rfl
  | select s =>
    have : s.one = false := by simpa [Target.isAll] using ht
    simp only [select, this, Bool.false_eq_true, if_false]
    rfl

/-- One of the entities of a target. -/
theorem select_oneCloud (tag : Tag) :
    w.select ns x (Generate.oneCloud tag) =
      (w.entities.filter ((Generate.clouds [tag]).picks ns x)).take 1 := rfl

/-- A condition on entities lets go on where there is one. -/
theorem executorsOf_ifEntity_pos {ms : List Modifier} (ht : t.isAll = true) (he : e ∈ w.entities)
    (hpicks : t.picks ns x e = true) :
    Modifier.executorsOf ns w x (.ifEntity t :: ms) = Modifier.executorsOf ns w x ms := by
  have hmem : e ∈ w.select ns x t := by
    rw [select_eq_filter ht]
    exact List.mem_filter.mpr ⟨he, hpicks⟩
  rw [Modifier.executorsOf_ifEntity, List.isEmpty_eq_false_iff_exists_mem.mpr ⟨e, hmem⟩]
  rfl

/-- A condition on entities does not let go on where there is none. -/
theorem executorsOf_ifEntity_neg {ms : List Modifier} (ht : t.isAll = true)
    (h : ∀ e ∈ w.entities, t.picks ns x e = false) :
    Modifier.executorsOf ns w x (.ifEntity t :: ms) = [] := by
  have hnone : w.select ns x t = [] := by
    rw [select_eq_filter ht, List.filter_eq_nil_iff]
    simpa using h
  rw [Modifier.executorsOf_ifEntity, hnone]
  rfl

section

variable (hids : (w.entities.map (·.id)).Nodup)
include hids

/-- A number is among those of some entities exactly if its entity is. -/
theorem mem_ids_filter {P : Entity → Bool}
    (he : e ∈ w.entities) : e.id ∈ (w.entities.filter P).map (·.id) ↔ P e = true := by
  constructor
  · intro h
    obtain ⟨e', he', hid⟩ := List.mem_map.mp h
    obtain ⟨he', hP⟩ := List.mem_filter.mp he'
    exact List.inj_on_of_nodup_map hids he' he hid ▸ hP
  · exact fun hP => List.mem_map_of_mem (List.mem_filter.mpr ⟨he, hP⟩)

/-- A change of some entities changes each of them. -/
theorem update_filter (P : Entity → Bool) (f : Entity → Entity) :
    w.update ((w.entities.filter P).map (·.id)) f =
      { w with entities := changed P f w.entities } := by
  simp only [update, changed, World.mk.injEq, and_self, and_true]
  refine List.map_congr_left fun e he => ?_
  simp only [mem_ids_filter hids he]

/-- The removal of some entities leaves the others. -/
theorem remove_filter (P : Entity → Bool) :
    w.remove ((w.entities.filter P).map (·.id)) =
      { w with entities := w.entities.filter fun e => !P e } := by
  simp only [remove, World.mk.injEq, and_self, and_true]
  refine List.filter_congr fun e he => ?_
  simp [mem_ids_filter hids he]

/-- An entity that executes is found as itself. -/
theorem select_self (he : e ∈ w.entities) : w.select ns (some e.id) .self = [e] := by
  rw [select_eq_filter rfl, filter_self hids he]

/-- Who executes a command as the entities of a target that are at the current depth. -/
theorem executorsOf_atDepth {d : Int} (hd : w.scores "current" .depth = some d)
    (ht : t.isAll = true) :
    Modifier.executorsOf ns w x [.as t, .ifAtDepth] =
      (w.entities.filter fun e => t.picks ns x e && e.depth == some d).map fun e => some e.id := by
  have hone : ∀ e ∈ w.entities, Modifier.executorsOf ns w (some e.id) [.ifAtDepth] =
      if e.depth == some d then [some e.id] else [] := by
    intro e he
    have hcurrent : w.score ns (some e.id) .depth = some d := hd
    have hself : w.score ns (some e.id) ⟨.entities .self, .depth⟩ = e.depth := by
      simp [score, select_self hids he, Entity.score]
    simp only [Modifier.executorsOf_cons, Modifier.executors, hself, hcurrent,
      Modifier.executorsOf_nil]
    cases e.depth with
    | none => simp
    | some n => by_cases hn : n = d <;> simp [hn]
  simp only [Modifier.executorsOf_cons (m := .as t), Modifier.executors, select_eq_filter ht]
  generalize hes : w.entities = es at hone
  clear hes
  induction es with
  | nil => rfl
  | cons e es ih =>
    have ih := ih fun e he => hone e (List.mem_cons_of_mem _ he)
    by_cases hp : t.picks ns x e = true
    · rw [List.filter_cons_of_pos hp, List.map_cons, List.flatMap_cons, ih,
        hone e List.mem_cons_self]
      by_cases hdepth : e.depth = some d <;> simp [hp, hdepth]
    · rw [List.filter_cons_of_neg hp, ih]
      simp [hp]

end

section

variable {front : List Entity} {tags : List Tag} {d : Int}

/-- Entities that are no frames, or are at another depth, do not execute as the frame at a depth. -/
theorem filter_frames_eq_nil (h : ∀ e ∈ es, Tag.functionCall.text ns ∈ e.tags → e.depth ≠ some d) :
    (es.filter fun e =>
      (Generate.clouds (.functionCall :: tags)).picks ns x e && e.depth == some d) = [] := by
  refine List.filter_eq_nil_iff.mpr fun e he => ?_
  simp only [Bool.and_eq_true, Target.picks_clouds, beq_iff_eq, not_and]
  exact fun hpicks => h e he (hpicks.2 _ List.mem_cons_self)

/-- Of the frames of calls only the innermost can be at the current depth. -/
theorem executorsOf_frame (hw : w.entities = front ++ e :: es)
    (hids : (w.entities.map (·.id)).Nodup)
    (hd : w.scores "current" .depth = some (frs.length + 1 : Nat))
    (hfront : ∀ e ∈ front, Tag.functionCall.text ns ∉ e.tags)
    (he : e.depth = some (frs.length + 1 : Nat)) (hes : Layout ns others frs es) :
    Modifier.executorsOf ns w x [.as (Generate.clouds (.functionCall :: tags)), .ifAtDepth] =
      if (Generate.clouds (.functionCall :: tags)).picks ns x e then [some e.id] else [] := by
  have hdeeper : ∀ e' ∈ es, Tag.functionCall.text ns ∈ e'.tags →
      e'.depth ≠ some ((frs.length + 1 : Nat) : Int) := by
    intro e' he' htag
    obtain ⟨d, hdepth, hle⟩ := hes.depth_le he' htag
    simp only [hdepth, ne_eq, Option.some.injEq]
    omega
  rw [executorsOf_atDepth hids hd rfl, hw, List.filter_append, List.filter_cons,
    filter_frames_eq_nil hdeeper, filter_frames_eq_nil fun e' he' htag =>
      absurd htag (hfront e' he'), he]
  cases (Generate.clouds (.functionCall :: tags)).picks ns x e <;> simp

/-- Where no entity has the tag of frames, nobody executes as the frame of the current call. -/
theorem executorsOf_frame_none (hids : (w.entities.map (·.id)).Nodup)
    (hd : w.scores "current" .depth = some d)
    (hnone : ∀ e ∈ w.entities, Tag.functionCall.text ns ∉ e.tags) :
    Modifier.executorsOf ns w x [.as (Generate.clouds (.functionCall :: tags)), .ifAtDepth] =
      [] := by
  rw [executorsOf_atDepth hids hd rfl, filter_frames_eq_nil
    fun e he htag => absurd htag (hnone e he)]
  rfl

end

end World

/-! ### Effects on entities -/

section

variable {c : PackConfig} {us : Units} {w : World} {t : Target} {Q : World → Prop}
  (hids : (w.entities.map (·.id)).Nodup) (ht : t.isAll = true)
include hids ht

/-- The effect of adding a tag. -/
theorem Completes.addTag (hQ : Q { w with
      entities := changed (t.picks c.ns x) (Entity.addTag (tag.text c.ns)) w.entities }) :
    Completes c us [.addTag t tag] x w Q :=
  .of_effect (fun _ => by
    rw [Instruction.effect, World.select_eq_filter ht, World.update_filter hids]) hQ

/-- The effect of removing a tag. -/
theorem Completes.removeTag (hQ : Q { w with
      entities := changed (t.picks c.ns x) (Entity.removeTag (tag.text c.ns)) w.entities }) :
    Completes c us [.removeTag t tag] x w Q :=
  .of_effect (fun _ => by
    rw [Instruction.effect, World.select_eq_filter ht, World.update_filter hids]) hQ

/-- The effect of removing entities. -/
theorem Completes.kill (hQ : Q { w with
      entities := w.entities.filter fun e => !t.picks c.ns x e }) :
    Completes c us [.kill t] x w Q :=
  .of_effect (fun _ => by
    rw [Instruction.effect, World.select_eq_filter ht, World.remove_filter hids]) hQ

/-- The effect of copying a score to entities. -/
theorem Completes.copyToEntities {o : Objective} {s : Score}
    (hQ : Q { w with
      entities :=
        changed (t.picks c.ns x) (Entity.setScore o ((w.score c.ns x s).getD 0)) w.entities }) :
    Completes c us [.copyScore (Generate.scoreOf t o) s] x w Q :=
  .of_effect (fun _ => by
    simp only [Instruction.effect, World.setScore, Generate.scoreOf, World.select_eq_filter ht,
      World.update_filter hids]) hQ

end

end DatapackDebug

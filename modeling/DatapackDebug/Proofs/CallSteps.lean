import DatapackDebug.Proofs.CallFrames
import DatapackDebug.Proofs.Units

namespace DatapackDebug

/-!
# What the generated commands do to the frames of calls

* `Running` — a world in which the program runs, with some frames;
* `Running.mark`, `Running.start`, `Running.afterCall` — a call is made, entered and left;
* `Running.returnFront_live`, `Running.returnFront_suspended`, `Running.returnFront_last` — a frame
  is popped, and the caller is still there, was there at a stop, or is none;
* `Running.stop` — the program stops;
* `Follows` — the events between two worlds.
-/

open Generate

variable {c : PackConfig} {o : Objective} {f : ResourceName}

@[simp] theorem Pack.config_ns (p : Pack) : p.config.ns = p.ns := rfl

/-! ### Running programs -/

/-- A world in which the program runs, with the frames of its calls, the innermost first. -/
structure Running (p : Pack) (others : List Entity) (frames : List CallFrame)
    (w : World) : Prop where
  layout : Layout p.ns others frames w.entities
  fresh : ∀ e ∈ w.entities, e.id < w.nextId
  unselected : ∀ e ∈ others, Tag.selectedEntity.text p.ns ∉ e.tags
  going : w.scores "break" .global = some 0
  depth : w.scores "current" .depth = some (frames.length : Int)
  anchor : ∀ n, w.scores "anchor" .global = some n → n ≤ 1
  valid : ∀ f ∈ p.names, w.scores (p.holder f) .valid = some 1

/-- Between two worlds some events were recorded, and the position to resume at was kept. -/
structure Follows (w w' : World) (t : List Event) : Prop where
  record : w'.record = w.record ++ t
  resumePosition : w'.scores "resume_position" .global = w.scores "resume_position" .global

theorem Follows.refl (w : World) : Follows w w [] := ⟨by simp, rfl⟩

theorem Follows.trans {w₁ w₂ w₃ : World} {t₁ t₂ : List Event} (h₁ : Follows w₁ w₂ t₁)
    (h₂ : Follows w₂ w₃ t₂) : Follows w₁ w₃ (t₁ ++ t₂) :=
  ⟨by rw [h₂.record, h₁.record, List.append_assoc], h₂.resumePosition.trans h₁.resumePosition⟩

/-- Changes of entities, of the block and of some scores are no events. -/
theorem Follows.of_record {w w' : World} (hrecord : w'.record = w.record)
    (hresume : w'.scores "resume_position" .global = w.scores "resume_position" .global) :
    Follows w w' [] := ⟨by simpa using hrecord, hresume⟩

section

variable {p : Pack} {us : Units} {others : List Entity} {fr fr' : CallFrame}
  {frs frames : List CallFrame} {w w' : World} {x : Executor} {i : Instruction} {Q : World → Prop}
  {wrap : Instruction → Instruction}

/-- The effect of setting the score of a name. -/
theorem Completes.setVariable {name : Text} {n : Int} (hQ : Q (w.setVariable name o n)) :
    Completes c us [.setScore ⟨.variable name, o⟩ n] x w Q :=
  .of_effect (fun _ => rfl) hQ

/-- What does not belong to frames can change while the program runs. -/
theorem Running.congr (hw : Running p others frames w) (hentities : w'.entities = w.entities)
    (hnext : w'.nextId = w.nextId)
    (hgoing : w'.scores "break" .global = w.scores "break" .global)
    (hdepth : w'.scores "current" .depth = w.scores "current" .depth)
    (hanchor : ∀ n, w'.scores "anchor" .global = some n → n ≤ 1)
    (hvalid : ∀ name, w'.scores name .valid = w.scores name .valid) :
    Running p others frames w' where
  layout := hentities ▸ hw.layout
  fresh := by rw [hentities, hnext]; exact hw.fresh
  unselected := hw.unselected
  going := hgoing.trans hw.going
  depth := hdepth.trans hw.depth
  anchor := hanchor
  valid f hf := (hvalid _).trans (hw.valid f hf)

/-- A command of the source changes nothing that the debugger uses. -/
theorem Running.note (hw : Running p others frames w) (e : Event) :
    Running p others frames (w.note e) :=
  hw.congr rfl rfl rfl rfl hw.anchor fun _ => rfl

/-- The innermost frame is changed. -/
theorem Running.changeTop (hw : Running p others (fr :: frs) w) {e : Entity} {rest : List Entity}
    (he : w.entities = e :: rest) {f : Entity → Entity} (hid : (f e).id = e.id)
    (hf : fr.Shown p.ns (frs.length + 1) e → fr'.Shown p.ns (frs.length + 1) (f e)) :
    Running p others (fr' :: frs) { w with entities := f e :: rest } := by
  obtain ⟨e', rest', he', hshown, hne, hrest⟩ := hw.layout.top
  cases he.symm.trans he'
  refine ⟨.push hrest (hf hshown) (hid ▸ hne), fun e' hmem => ?_, hw.unselected, hw.going, hw.depth,
    hw.anchor, hw.valid⟩
  rcases List.mem_cons.mp hmem with rfl | hmem
  · rw [hid]
    exact hw.fresh e (he ▸ List.mem_cons_self)
  · exact hw.fresh e' (he ▸ List.mem_cons_of_mem _ hmem)

/-- A command is executed as the innermost frame. -/
theorem Running.completes_asFrame (hw : Running p others (fr :: frs) w)
    (h : ∀ e rest, w.entities = e :: rest → fr.Shown p.ns (frs.length + 1) e →
      e.id ∉ rest.map (·.id) → Completes p.config us [i] (some e.id) w Q) :
    Completes p.config us [.execute asFrame i] x w Q := by
  obtain ⟨e, rest, he, hshown, hne, hrest⟩ := hw.layout.top
  refine .execute ?_ (h e rest he hshown hne)
  have hpicks : (clouds [.functionCall]).picks p.ns x e = true :=
    (hshown.picks_clouds (by decide)).mpr (by simp)
  have hexecutors : Modifier.executorsOf p.ns w x asFrame = _ := World.executorsOf_frame
    (show w.entities = [] ++ e :: rest from he) hw.layout.nodup hw.depth
      (by simp) hshown.depth hrest
  exact hexecutors.trans (if_pos hpicks)

/-- Without frames nobody executes as the innermost one. -/
theorem Running.executorsOf_asFrame_none (hw : Running p others [] w) :
    Modifier.executorsOf p.ns w x asFrame = [] := by
  refine World.executorsOf_frame_none hw.layout.nodup hw.depth fun e he => ?_
  exact hw.layout.not_mem_tags (by decide) (by simp) e he

/-- A tag of the innermost frame is added. -/
theorem Running.tagTop (hw : Running p others (fr :: frs) w) (fr' : CallFrame) {tag : Tag}
    (htags : ∀ tag', tag' ∈ fr'.tags ↔ tag' = tag ∨ tag' ∈ fr.tags)
    (hQ : ∀ w', Running p others (fr' :: frs) w' → Follows w w' [] → Q w') :
    Completes p.config us [.execute asFrame (.addTag .self tag)] x w Q := by
  refine hw.completes_asFrame fun e rest he hshown hne => .addTag hw.layout.nodup rfl ?_
  rw [he, changed_first (by simp [Target.picks]) (picks_self_eq_false hne)]
  exact hQ _ (hw.changeTop he (by simp) fun h => h.addTag htags) (.of_record rfl rfl)

/-- The frame of a call is only named after a place in a function. -/
theorem Completes.nameFrame {line column : Nat} (hQ : Q w) :
    Completes p.config us [.execute asFrame (.nameFrame .self f line column)] x w Q :=
  .execute_idle (fun _ _ => rfl) hQ

/-- The anchor of a call is set. -/
theorem Running.setAnchor (hw : Running p others frames w) {n : Int} (hn : n ≤ 1) :
    Running p others frames (w.setVariable "anchor" .global n) :=
  hw.congr rfl rfl (by simp +decide) (by simp +decide)
    (fun m hm => by simp at hm; omega)
    (fun name => by simp)

/-- The anchor of a call is that of the command or of the innermost frame. -/
theorem Running.anchorOfCall (hw : Running p others (fr :: frs) w) {a : Option Argument.Anchor}
    (hQ : ∀ w', Running p others (fr :: frs) w' → Follows w w' [] → Q w') :
    Completes p.config us [anchorOfCall a] x w Q := by
  have hset : ∀ n ≤ 1, Q (w.setVariable "anchor" .global n) := fun n hn =>
    hQ _ (hw.setAnchor hn) (.of_record rfl (by simp +decide))
  match a with
  | some .eyes => exact .setVariable (hset 1 (by decide))
  | some .feet => exact .setVariable (hset 0 (by decide))
  | none =>
    refine hw.completes_asFrame fun e rest he hshown _ => ?_
    obtain ⟨a, ha, hle⟩ := hshown.anchor
    have hscore : w.score p.ns (some e.id) (scoreOf .self .anchor) = some a := by
      simp [World.score, scoreOf, World.select_self hw.layout.nodup (he ▸ List.mem_cons_self),
        Entity.score, ha]
    exact .of_effect (fun _ => by
      rw [Instruction.effect, show p.config.ns = p.ns from rfl, hscore]; rfl) (hset a hle)

/-! ### Calls -/

/-- Before a call the caller is tagged with its line. -/
theorem Running.mark (hw : Running p others (fr :: frs) w) {f : Function}
    (hfr : fr.function = f.name) (hsite : fr.site = none) (line column : Nat)
    (a : Option Argument.Anchor) :
    Completes p.config us
      [.execute asFrame (.addTag .self (.position f.name (callSite line))),
        .execute asFrame (.nameFrame .self f.name line column), Generate.anchorOfCall a] x w
          fun w' =>
      Running p others ({ fr with site := some line } :: frs) w' ∧ Follows w w' [] := by
  refine .cons (hw.tagTop { fr with site := some line } (fun tag => ?_) fun w₁ hw₁ hfollows₁ => ?_)
  · cases tag <;> simp [hsite, hfr]
  · refine .cons (.nameFrame (hw₁.anchorOfCall fun w₂ hw₂ hfollows₂ => ?_))
    exact ⟨hw₂, hfollows₁.trans hfollows₂⟩

/-- A line of a function that was validated is executed unless the program is stopped. -/
theorem Completes.guardedLine (hvalid : w.scores (p.holder f) .valid = some 1)
    (hgoing : w.scores "break" .global = some 0) (h : Completes p.config us [i] x w Q) :
    Completes p.config us
      [.eachLine ⟨[.ifScore (.valid (p.holder f)) (.exactly 1)], true⟩ (.execute [unlessStopped] i)]
      x w Q := by
  refine .eachLine (y := x) ?_ (.execute (y := x) ?_ h)
  · simp [hvalid]
  · simp [unlessStopped, Score.stopped, hgoing]

/-- A function that was validated is not refused. -/
theorem Completes.guarded {lines : List Instruction}
    (hvalid : w.scores (p.holder f) .valid = some 1) (h : Completes p.config us
      (lines.map (.eachLine ⟨[.ifScore (.valid (p.holder f)) (.exactly 1)], true⟩)) x w Q) :
    Completes p.config us (Generate.guarded p f lines) x w Q := by
  have hskip : Modifier.executorsOf p.ns w x
      [.unlessScore (.valid (p.holder f)) (.exactly 1)] = [] := by
    simp [hvalid]
  exact .cons (.execute_skip hskip (.cons (.execute_skip hskip h)))

/-- The tags that something summoned has once it is no longer new. -/
theorem mem_tags_not_new {ns : Text} {tags tags' : List Tag} {t : Text}
    (h : ∀ tag, tag ∈ tags' ↔ tag ≠ .new ∧ tag ∈ tags) :
    t ∈ (tags.map (·.text ns)).filter (· != Tag.new.text ns) ↔ ∃ tag ∈ tags', tag.text ns = t := by
  simp only [List.mem_filter, List.mem_map, bne_iff_ne]
  constructor
  · rintro ⟨⟨tag, hmem, rfl⟩, hne⟩
    exact ⟨tag, (h tag).mpr ⟨fun heq => hne (heq ▸ rfl), hmem⟩, rfl⟩
  · rintro ⟨tag, hmem, rfl⟩
    obtain ⟨hne, hmem⟩ := (h tag).mp hmem
    exact ⟨⟨tag, hmem, rfl⟩, fun heq => hne (Tag.text_fixed_inj (by decide) heq)⟩

/-- The entity of a new call has the tags of its frame once it is no longer new. -/
theorem CallFrame.shown_new {ns : Text} {depth id : Nat} {a : Int} (ha : a ≤ 1) :
    ({ function := f } : CallFrame).Shown ns depth
      (Entity.removeTag (Tag.new.text ns)
        ⟨id, true, [Tag.own, .functionCall, .new, .function f].map (·.text ns), some depth,
          some a⟩) :=
  ⟨rfl, rfl, ⟨a, rfl, ha⟩, fun _ => mem_tags_not_new fun tag => by
    cases tag <;> simp⟩

/-- The commands that summon the frame of a call and enter the function. -/
def pushFrame (f : ResourceName) : List Instruction :=
  [.summon [.own, .functionCall, .new, .function f],
    .moveHere (clouds [.new]),
    .copyScore (scoreOf (clouds [.new]) .depth) .depth,
    .copyScore (scoreOf (clouds [.new]) .anchor) .anchor,
    .nameFrame (oneCloud .new) f 1 1,
    .removeTag (clouds [.new]) .new,
    .function (.of f (.piece ⟨1, .entry⟩))]

/-- Nothing is new among the frames of a running program and the others. -/
theorem Layout.picks_new {ns : Text} {es : List Entity} (h : Layout ns others frames es) :
    ∀ e ∈ es, (clouds [.new]).picks ns x e = false := by
  have hframes : ∀ fr ∈ frames, Tag.new ∉ fr.tags := by
    simp
  refine fun e he => Bool.eq_false_iff.mpr fun hpicks => ?_
  exact h.not_mem_tags (by decide) hframes e he
    ((Target.picks_clouds.mp hpicks).2 _ List.mem_cons_self)

/-- The frame of a call is summoned, and gets the depth and the anchor of the call. -/
theorem Layout.completes_pushFrame (hw : Layout p.ns others frames w.entities)
    (hwrap : ∀ w' i Q, w'.scores = w.scores → Completes p.config us [i] x w' Q →
      Completes p.config us [wrap i] x w' Q) (hid : w.nextId ∉ w.entities.map (·.id))
    (hdepth : w.scores "current" .depth = some ((frames.length + 1 : Nat) : Int))
    (hanchor : ∀ n, w.scores "anchor" .global = some n → n ≤ 1)
    (h : ∀ e, ({ function := f } : CallFrame).Shown p.ns (frames.length + 1) e → e.id = w.nextId →
      Completes p.config us [.function (.of f (.piece ⟨1, .entry⟩))] x
        { w with entities := e :: w.entities, nextId := w.nextId + 1 } Q) :
    Completes p.config us ((pushFrame f).map wrap) x w Q := by
  have ha : ((w.scores "anchor" .global).getD 0) ≤ 1 := by
    cases h : w.scores "anchor" .global with
    | none => decide
    | some n => exact hanchor n h
  -- The commands change the entity that is new, and nothing else.
  let withNew (e : Entity) : World := { w with entities := e :: w.entities, nextId := w.nextId + 1 }
  have hids : ∀ e : Entity, e.id = w.nextId → ((e :: w.entities).map (·.id)).Nodup := fun e he =>
    List.nodup_cons.mpr ⟨by simpa [he] using hid, hw.nodup⟩
  have hfirst : ∀ (e : Entity) (g : Entity → Entity), e.isCloud = true →
      Tag.new.text p.ns ∈ e.tags →
      changed ((clouds [.new]).picks p.ns x) g (e :: w.entities) = g e :: w.entities :=
    fun e g hcloud htag => changed_first (Target.picks_clouds.mpr ⟨hcloud, by simpa using htag⟩)
      hw.picks_new
  have hcopy : ∀ (e : Entity) (o : Objective) (name : Text) (o' : Objective)
      (lines : List Instruction), e.id = w.nextId → e.isCloud = true → Tag.new.text p.ns ∈ e.tags →
      Completes p.config us lines x (withNew (e.setScore o ((w.scores name o').getD 0))) Q →
      Completes p.config us
        (wrap (.copyScore (scoreOf (clouds [.new]) o) ⟨.variable name, o'⟩) :: lines) x
        (withNew e) Q := by
    intro e o name o' lines hid hcloud htag hrest
    refine .cons (hwrap _ _ _ rfl (.copyToEntities (hids e hid) rfl ?_))
    have := hfirst e (Entity.setScore o ((w.scores name o').getD 0)) hcloud htag
    exact this.symm ▸ hrest
  refine .cons (hwrap _ _ _ rfl (.of_effect (fun _ => rfl) ?_))
  refine .cons (hwrap _ _ _ rfl (.of_effect (fun _ => rfl) ?_))
  refine hcopy _ .depth _ _ _ rfl rfl (by simp) ?_
  refine hcopy _ .anchor _ _ _ rfl rfl (by simp [Entity.setScore]) ?_
  refine .cons (hwrap _ _ _ rfl (.of_effect (fun _ => rfl) ?_))
  refine .cons (hwrap _ _ _ rfl (.removeTag (hids _ rfl) rfl ?_))
  have hshown : ({ function := f } : CallFrame).Shown p.ns (frames.length + 1)
      (Entity.removeTag (Tag.new.text p.ns)
        ⟨w.nextId, true, [Tag.own, .functionCall, .new, .function f].map (·.text p.ns),
          some ((w.scores "current" .depth).getD 0),
          some ((w.scores "anchor" .global).getD 0)⟩) := by
    rw [hdepth]
    exact CallFrame.shown_new ha
  have hnew :=
    hfirst ⟨w.nextId, true, [Tag.own, .functionCall, .new, .function f].map (·.text p.ns),
      some ((w.scores "current" .depth).getD 0), some ((w.scores "anchor" .global).getD 0)⟩
    (Entity.removeTag (Tag.new.text p.ns)) rfl (by simp)
  exact hwrap _ _ _ rfl (hnew.symm ▸ h _ hshown rfl)

/-- The effect of adding to the score of a name. -/
theorem Completes.addVariable {name : Text} {n : Nat}
    (hQ : Q (w.setVariable name o ((w.scores name o).getD 0 + n))) :
    Completes c us [.addScore ⟨.variable name, o⟩ n] x w Q :=
  .of_effect (fun _ => rfl) hQ

/-- A call pushes a frame and enters the function. -/
theorem Running.start (hw : Running p others frames w) (hf : f ∈ p.names)
    (h : ∀ w', Running p others ({ function := f } :: frames) w' → Follows w w' [] →
      Completes p.config us [.function (.of f (.piece ⟨1, .entry⟩))] x w' Q) :
    Completes p.config us (Generate.start p f) x w Q := by
  have hid : w.nextId ∉ w.entities.map (·.id) := fun hmem => by
    obtain ⟨e, he, heq⟩ := List.mem_map.mp hmem
    exact absurd (hw.fresh e he) (by omega)
  refine .guarded (hw.valid f hf) (.cons (.guardedLine (hw.valid f hf) hw.going (.addVariable ?_)))
  -- One level deeper the flags that guard the lines are the same.
  rw [hw.depth, Option.getD_some]
  generalize hw₁ : w.setVariable "current" .depth ((frames.length : Int) + (1 : Nat)) = w₁
  have hscores : ∀ (name : Text) (o : Objective), o ≠ .depth →
      w₁.scores name o = w.scores name o := fun name o hne => by
    simp [← hw₁, hne]
  have hvalid : ∀ f ∈ p.names, w₁.scores (p.holder f) .valid = some 1 := fun f hf =>
    (hscores _ _ (by simp)).trans (hw.valid f hf)
  have hgoing : w₁.scores "break" .global = some 0 := (hscores _ _ (by simp)).trans hw.going
  have hanchor : w₁.scores "anchor" .global = w.scores "anchor" .global := hscores _ _ (by simp)
  have hdepth : w₁.scores "current" .depth = some ((frames.length + 1 : Nat) : Int) := by
    simp [← hw₁]
  have hentities : w₁.entities = w.entities := by simp [← hw₁]
  have hnext : w₁.nextId = w.nextId := hw₁ ▸ rfl
  refine Layout.completes_pushFrame (hentities ▸ hw.layout)
    (fun w' i Q hw' h => .guardedLine (by rw [hw']; exact hvalid f hf)
      (by rw [hw']; exact hgoing) h)
    (by rwa [hentities, hnext]) hdepth (fun n hn => hw.anchor n (hanchor ▸ hn))
    fun e hshown hid' => h _ ?_ (.of_record (hw₁ ▸ rfl) (hscores _ _ (by simp)))
  refine ⟨.push (hentities ▸ hw.layout) hshown (by rwa [hid', hentities, hnext]), fun e' he' => ?_,
    hw.unselected, hgoing, hdepth, fun n hn => hw.anchor n (hanchor ▸ hn), hvalid⟩
  rcases List.mem_cons.mp he' with rfl | he'
  · exact Nat.lt_succ_of_le (Nat.le_of_eq hid')
  · exact Nat.lt_succ_of_lt (hnext ▸ hw.fresh e' (hentities ▸ he'))

/-- A tag of the innermost frame is removed. -/
theorem Running.untagTop (hw : Running p others (fr :: frs) w) (fr' : CallFrame) {tag : Tag}
    (htags : ∀ tag', tag' ∈ fr'.tags ↔ tag' ≠ tag ∧ tag' ∈ fr.tags)
    (hinj : ∀ tag' ∈ fr.tags, tag'.text p.ns = tag.text p.ns → tag' = tag)
    (hQ : ∀ w', Running p others (fr' :: frs) w' → Follows w w' [] → Q w') :
    Completes p.config us [.execute asFrame (.removeTag .self tag)] x w Q := by
  refine hw.completes_asFrame fun e rest he hshown hne => .removeTag hw.layout.nodup rfl ?_
  rw [he, changed_first (by simp [Target.picks]) (picks_self_eq_false hne)]
  exact hQ _ (hw.changeTop he (by simp) fun h => h.removeTag htags hinj) (.of_record rfl rfl)

/-- Where no frame is one that a call returns to, no entity is. -/
theorem Layout.picks_returnTarget {es : List Entity} (h : Layout p.ns others frs es)
    (hfrs : ∀ fr ∈ frs, fr.target = false) (tags : List Tag) :
    ∀ e ∈ es, (clouds (.returnTarget :: tags)).picks p.ns x e = false := by
  refine fun e he => Bool.eq_false_iff.mpr fun hpicks => ?_
  refine h.not_mem_tags (by decide) (fun fr hfr => ?_) e he
    ((Target.picks_clouds.mp hpicks).2 _ List.mem_cons_self)
  simp [hfrs fr hfr]

/-- The frame that a call has returned to is no longer where to go on. -/
theorem Running.untarget (hw : Running p others (fr :: frs) w)
    (hfrs : ∀ fr ∈ frs, fr.target = false)
    (hQ : ∀ w', Running p others ({ fr with target := false } :: frs) w' → Follows w w' [] → Q w') :
    Completes p.config us [.removeTag (clouds [.returnTarget]) .returnTarget] x w Q := by
  obtain ⟨e, rest, he, hshown, -, hrest⟩ := hw.layout.top
  refine .removeTag hw.layout.nodup rfl ?_
  cases htarget : fr.target with
  | false =>
    have hfr : { fr with target := false } = fr := by rw [← htarget]
    rw [hfr] at hQ
    rw [changed_eq_self]
    · exact hQ _ hw (.of_record rfl rfl)
    · exact hw.layout.picks_returnTarget
        (fun fr' h => (List.mem_cons.mp h).elim (· ▸ htarget) (hfrs fr')) []
  | true =>
    have hpicks : (clouds [.returnTarget]).picks p.ns x e = true :=
      (hshown.picks_clouds (by decide)).mpr (by simp [htarget])
    rw [Pack.config_ns, he, changed_first hpicks (hrest.picks_returnTarget hfrs [])]
    refine hQ _ (hw.changeTop he (by simp) fun h => h.removeTag (fun tag => ?_) fun tag _ htext =>
      Tag.text_fixed_inj (by decide) htext) (.of_record rfl rfl)
    cases tag <;> simp

/-- After a call the caller is no longer tagged with its line. -/
theorem Running.afterCall (hw : Running p others (fr :: frs) w) (hf : f.Valid)
    (hfr : fr.function = f) {line : Nat} (hsite : ∀ l, fr.site = some l → l = line)
    (hfrs : ∀ fr ∈ frs, fr.target = false) :
    Completes p.config us (Generate.afterCall f line) x w fun w' =>
      Running p others ({ fr with site := none, target := false } :: frs) w' ∧ Follows w w' [] := by
  refine .cons (hw.untagTop { fr with site := none } (fun tag => ?_) (fun tag htag htext => ?_)
    fun w₁ hw₁ hfollows₁ => hw₁.untarget hfrs fun w₂ hw₂ hfollows₂ =>
      ⟨hw₂, hfollows₁.trans hfollows₂⟩)
  · have : ∀ l, fr.site = some l → callSite l = callSite line := fun l hl => by rw [hsite l hl]
    cases tag <;> simp [hfr]
    grind
  · -- Only the tag of the function could be mistaken for the tag of a position.
    rcases CallFrame.mem_tags.mp htag with rfl | rfl | rfl | ⟨rfl, -⟩ | ⟨rfl, -⟩ |
        ⟨line', hline, rfl⟩
    · exact (Tag.text_fixed_inj (by decide) htext.symm).symm
    · exact (Tag.text_fixed_inj (by decide) htext.symm).symm
    · have := Tag.compare_of_text_function_eq_position hf (hfr ▸ hf) htext
      simp [hfr] at this
    · exact (Tag.text_fixed_inj (by decide) htext.symm).symm
    · exact (Tag.text_fixed_inj (by decide) htext.symm).symm
    · rw [hsite line' hline, hfr]

/-! ### Returns -/

/-- A running program is not changed by a mark of the debugger that frames do not show. -/
theorem Running.setReturning (hw : Running p others frames w) (n : Int) :
    Running p others frames (w.setVariable "returning_suspended" .global n) :=
  hw.congr rfl rfl (by simp +decide) (by simp +decide)
    (fun m hm => hw.anchor m (by simpa +decide using hm))
    (fun name => by simp)

/-- Whether the innermost frame was there at a stop is remembered. -/
theorem Running.remember (hw : Running p others (fr :: frs) w)
    (hQ : ∀ w', Running p others (fr :: frs) w' → Follows w w' [] →
      w'.scores "returning_suspended" .global = some (if fr.suspended then 1 else 0) → Q w') :
    Completes p.config us
      [.setScore .returningSuspended 0,
        .execute [.as (clouds [.functionCall, .suspended]), .ifAtDepth]
          (.setScore .returningSuspended 1)] x w Q := by
  refine .cons (.setVariable ?_)
  have hw₁ := hw.setReturning 0
  obtain ⟨e, rest, he, hshown, hne, hrest⟩ := hw₁.layout.top
  have hexecutors : Modifier.executorsOf p.ns _ x [.as (clouds [.functionCall, .suspended]),
      .ifAtDepth]
      = _ := World.executorsOf_frame (show _ = [] ++ e :: rest from he) hw₁.layout.nodup hw₁.depth
    (by simp) hshown.depth hrest
  have hpicks : (clouds [.functionCall, .suspended]).picks p.ns x e = fr.suspended := by
    rw [Bool.eq_iff_iff, hshown.picks_clouds (by decide)]
    simp
  rw [hpicks] at hexecutors
  cases hs : fr.suspended with
  | true =>
    refine .execute (hexecutors.trans (if_pos hs)) (.setVariable ?_)
    exact hQ _ (hw₁.setReturning 1) (.of_record rfl (by simp +decide)) (by simp [hs])
  | false =>
    refine .execute_skip (hexecutors.trans (if_neg (by simp [hs]))) ?_
    exact hQ _ hw₁ (.of_record rfl (by simp +decide)) (by simp [hs])

/-- The effect of taking from the score of a name. -/
theorem Completes.removeVariable {name : Text} {n : Nat}
    (hQ : Q (w.setVariable name o ((w.scores name o).getD 0 - n))) :
    Completes c us [.removeScore ⟨.variable name, o⟩ n] x w Q :=
  .of_effect (fun _ => rfl) hQ

/-- The innermost frame is popped. -/
theorem Running.pop (hw : Running p others (fr :: frs) w)
    (hQ : ∀ w', Running p others frs w' → Follows w w' [] →
      w'.scores "returning_suspended" .global = w.scores "returning_suspended" .global → Q w') :
    Completes p.config us [.execute asFrame (.kill .self), .removeScore .depth 1] x w Q := by
  refine .cons (hw.completes_asFrame fun e rest he hshown hne => .kill hw.layout.nodup rfl
    (.removeVariable ?_))
  obtain ⟨e', rest', he', -, -, hrest⟩ := hw.layout.top
  cases he.symm.trans he'
  have hkilled : w.entities.filter (fun e' => !Target.self.picks p.ns (some e.id) e') = rest := by
    rw [he, List.filter_cons_of_neg (by simp [Target.picks]), List.filter_eq_self]
    exact fun e' he' => by simp [picks_self_eq_false hne e' he']
  refine hQ _ ⟨?_, fun e' he' => ?_, hw.unselected, ?_, ?_, fun n hn => hw.anchor n ?_,
    fun f hf => ?_⟩ (.of_record rfl (by simp)) (by simp)
  · simpa [hkilled] using hrest
  · have hmem : e' ∈ rest := by simpa [hkilled] using he'
    exact hw.fresh e' (he ▸ List.mem_cons_of_mem _ hmem)
  · simpa using hw.going
  · simp [hw.depth]
  · simpa using hn
  · simpa using hw.valid f hf

/-- The program has ended: no frames are left, and a marker of the end waits to be told. -/
structure Ended (p : Pack) (others : List Entity) (w : World) : Prop where
  running : ∃ m : Entity, (clouds [.exitMarker]).picks p.ns none m = true ∧
    Running p (m :: others.filter fun e => !(clouds [.exitMarker]).picks p.ns none e) [] w
  block : w.block = some (.addTag (oneCloud .exitMarker) .exit)

/-- At the end the marker of an earlier end is replaced. -/
theorem Running.exit (hw : Running p others [] w) :
    Completes p.config us (onExit p.config) x w fun w' => Ended p others w' ∧ Follows w w' [] := by
  have hothers := hw.layout.eq_others
  refine .cons (.kill hw.layout.nodup rfl (.cons (.of_effect (fun _ => rfl)
    (.cons (.of_effect (fun _ => rfl) (.of_effect (fun _ => rfl) ?_))))))
  refine ⟨⟨⟨⟨w.nextId, true, [Tag.own, .exitMarker].map (·.text p.ns), none, none⟩, ?_, ?_⟩, rfl⟩,
    .of_record rfl rfl⟩
  · simp [Target.picks_clouds]
  · -- The marker of the end is one of the others: it has no tag that a running program looks for.
    have hkept : others.filter (fun e => !(clouds [.exitMarker]).picks p.ns none e) ⊆ others :=
      List.filter_subset_self _
    have htags : ∀ tag ∈ Tag.fixed, tag ≠ .own → tag ≠ .exitMarker →
        tag.text p.ns ∉ [Tag.own, .exitMarker].map (·.text p.ns) := by
      intro tag hfixed hown hmarker hmem
      obtain ⟨tag', hmem, htext⟩ := List.mem_map.mp hmem
      have : tag' = tag := Tag.text_fixed_inj hfixed htext
      simp_all
    have hlayout : Layout p.ns
        (⟨w.nextId, true, [Tag.own, .exitMarker].map (·.text p.ns), none, none⟩ ::
          others.filter fun e => !(clouds [.exitMarker]).picks p.ns none e) []
        (⟨w.nextId, true, [Tag.own, .exitMarker].map (·.text p.ns), none, none⟩ ::
          w.entities.filter fun e => !(clouds [.exitMarker]).picks p.ns x e) := by
      rw [hothers]
      refine .nil (List.nodup_cons.mpr ⟨fun hmem => ?_, ?_⟩) fun e he => ?_
      · obtain ⟨e, he, heq⟩ := List.mem_map.mp hmem
        exact absurd (hw.fresh e (hothers ▸ hkept he)) (by simp [heq])
      · exact (hothers ▸ hw.layout.nodup).sublist (List.Sublist.map _ List.filter_sublist)
      · rcases List.mem_cons.mp he with rfl | he
        · exact fun tag htag => htags tag (Tag.inUse_subset_fixed htag)
            (by rintro rfl; revert htag; decide) (by rintro rfl; revert htag; decide)
        · exact hw.layout.idle e (hkept he)
    refine ⟨hlayout, fun e he => ?_, fun e he => ?_, hw.going, hw.depth, hw.anchor, hw.valid⟩
    · rcases List.mem_cons.mp he with rfl | he
      · exact Nat.lt_succ_self _
      · exact Nat.lt_succ_of_lt (hw.fresh e (List.mem_filter.mp he).1)
    · rcases List.mem_cons.mp he with rfl | he
      · exact htags _ (by decide) (by decide) (by decide)
      · exact hw.unselected e (hkept he)

/-- The commands of a return before it goes on in a caller. -/
def returnFront : List Instruction :=
  [.setScore .returningSuspended 0,
    .execute [.as (clouds [.functionCall, .suspended]), .ifAtDepth]
      (.setScore .returningSuspended 1)] ++
    [.execute asFrame (.kill .self), .removeScore .depth 1] ++
    [.execute [.ifScore .depth (.atMost 0)] (.function .onExit),
      .execute (.ifScore .returningSuspended (.exactly 1) :: asFrame) (.addTag .self .returnTarget)]

/-- The return of the last frame ends the program. -/
theorem Running.returnFront_last (hw : Running p others [fr] w)
    (hexit : us.lines? .onExit = some (onExit p.config)) :
    Completes p.config us returnFront x w fun w' => Ended p others w' ∧ Follows w w' [] := by
  refine .append (.append (hw.remember fun w₁ hw₁ hfollows₁ _ => hw₁.pop
    fun w₂ hw₂ hfollows₂ _ => ?_))
  have hexecutors : Modifier.executorsOf p.ns w₂ x [.ifScore .depth (.atMost 0)] = [x] := by
    simp [hw₂.depth]
  refine .cons (.execute hexecutors (.function hexit (hw₂.exit.mono fun w₃ ⟨hw₃, hfollows₃⟩ => ?_)))
  -- No frame is left that could be gone back to.
  obtain ⟨m, -, hw₄⟩ := hw₃.running
  refine .execute_skip ?_ ⟨hw₃, (hfollows₁.trans hfollows₂).trans hfollows₃⟩
  simp [hw₄.executorsOf_asFrame_none]

/-- The return of a frame that was there at no stop leaves the frames of its callers. -/
theorem Running.returnFront_live (hw : Running p others (fr :: fr' :: frs) w)
    (hfr : fr.suspended = false) :
    Completes p.config us returnFront x w fun w' =>
      Running p others (fr' :: frs) w' ∧ Follows w w' [] := by
  refine .append (.append (hw.remember fun w₁ hw₁ hfollows₁ hflag =>
    hw₁.pop fun w₂ hw₂ hfollows₂ hkept => ?_))
  refine .cons (.execute_skip ?_ (.execute_skip ?_ ⟨hw₂, hfollows₁.trans hfollows₂⟩))
  · simp [hw₂.depth]
  · simp [hkept, hflag, hfr]

/-- The return of a frame that was there at a stop tags the frame of its caller. -/
theorem Running.returnFront_suspended (hw : Running p others (fr :: fr' :: frs) w)
    (hfr : fr.suspended = true) :
    Completes p.config us returnFront x w fun w' =>
      Running p others ({ fr' with target := true } :: frs) w' ∧ Follows w w' [] := by
  refine .append (.append (hw.remember fun w₁ hw₁ hfollows₁ hflag =>
    hw₁.pop fun w₂ hw₂ hfollows₂ hkept => ?_))
  have hreturning : w₂.scoreIn p.ns x .returningSuspended (.exactly 1) = true := by
    simp [hkept, hflag, hfr]
  refine .cons (.execute_skip ?_ ?_)
  · simp [hw₂.depth]
  · have hexecutors : _ = Modifier.executorsOf p.ns w₂ x asFrame :=
      (Modifier.executorsOf_ifScore ..).trans (if_pos hreturning)
    refine .execute_congr hexecutors ?_
    exact hw₂.tagTop { fr' with target := true } (fun tag => by cases tag <;> simp)
      fun w₃ hw₃ hfollows₃ => ⟨hw₃, (hfollows₁.trans hfollows₂).trans hfollows₃⟩

/-! ### Stops -/

/-- Before the frames and the others there is a marker with some tags. -/
structure AtMarker (p : Pack) (others : List Entity) (tags : List Tag) (frames : List CallFrame)
    (w : World) : Prop where
  layout : ∃ m es, w.entities = m :: es ∧ m.isCloud = true ∧
    (∀ t, t ∈ m.tags ↔ ∃ tag ∈ tags, tag.text p.ns = t) ∧ m.id ∉ es.map (·.id) ∧
    Layout p.ns others frames es
  fresh : ∀ e ∈ w.entities, e.id < w.nextId
  depth : w.scores "current" .depth = some (frames.length : Int)
  valid : ∀ f ∈ p.names, w.scores (p.holder f) .valid = some 1

/-- The program is stopped at a position: there is a marker of the function, the entity that was
    executing is marked, and the position waits to be told. -/
structure Stopped (p : Pack) (others : List Entity) (x : Executor) (f : ResourceName) (q : Position)
    (frames : List CallFrame) (w : World) : Prop
    extends AtMarker p (selected p.ns x others) [.own, .breakpoint, .function f] frames w where
  unselected : ∀ e ∈ others, Tag.selectedEntity.text p.ns ∉ e.tags
  stopped : w.scores "break" .global = some 1
  block : w.block = some (.addTag (oneCloud .breakpoint) (.position f q))

/-- The frames are suspended and the executor is marked. -/
theorem Running.suspend (hw : Running p others frames w)
    (hx : ∀ i, x = some i → i ∈ others.map (·.id)) (hQ : ∀ es, Layout p.ns (selected p.ns x others)
        (frames.map fun fr => { fr with suspended := true }) es →
      es.map (·.id) = w.entities.map (·.id) →
      Q { w.setVariable "break" .global 1 with entities := es }) :
    Completes p.config us Generate.suspend x w Q := by
  have hsuspended := hw.layout.suspendAll x
  refine .cons
    (.setVariable (.cons (.addTag hw.layout.nodup rfl (.addTag hsuspended.nodup rfl ?_))))
  refine hQ _ (hsuspended.select hx) ?_
  rw [map_id_changed (by simp), map_id_changed (by simp), World.setVariable_entities]

/-- The program stops at a position.  The commands may stand behind a condition that holds at the
    depth of the stop. -/
theorem Running.stop (hw : Running p others frames w) (hx : ∀ i, x = some i → i ∈ others.map (·.id))
    (hsuspend : us.lines? .suspend = some Generate.suspend)
    (hwrap : ∀ w' i Q, w'.scores "current" .depth = w.scores "current" .depth →
      Completes p.config us [i] x w' Q → Completes p.config us [wrap i] x w' Q) (f : Function)
    (q : Position) :
    Completes p.config us ((Generate.stop p.config f q).map wrap) x w fun w' =>
      Stopped p others x f.name q (frames.map fun fr => { fr with suspended := true }) w' ∧
        Follows w w' [] := by
  refine .cons (hwrap _ _ _ rfl (.function hsuspend (hw.suspend hx fun es hes hids => ?_)))
  have hdepth : (w.setVariable "break" .global 1).scores "current" .depth =
      w.scores "current" .depth := by simp
  have hid : w.nextId ∉ es.map (·.id) := fun hmem => by
    rw [hids] at hmem
    obtain ⟨e, he, heq⟩ := List.mem_map.mp hmem
    exact absurd (hw.fresh e he) (by omega)
  have hfresh : ∀ e ∈ es, e.id < w.nextId := fun e he => by
    have : e.id ∈ w.entities.map (·.id) := hids ▸ List.mem_map_of_mem he
    obtain ⟨e', he', heq⟩ := List.mem_map.mp this
    exact heq ▸ hw.fresh e' he'
  refine .cons (hwrap _ _ _ hdepth (.of_effect (fun _ => rfl) ?_))
  refine .cons (hwrap _ _ _ hdepth (.of_effect (fun _ => rfl) ?_))
  refine .cons (hwrap _ _ _ hdepth (.removeTag (List.nodup_cons.mpr ⟨hid, hes.nodup⟩) rfl ?_))
  refine .cons (hwrap _ _ _ hdepth (.nameFrame ?_))
  refine .cons (hwrap _ _ _ hdepth (.of_effect (fun _ => rfl) ?_))
  refine hwrap _ _ _ hdepth (.of_effect (fun _ => rfl) ?_)
  -- The marker is the only entity that was new.
  have hmarker : changed ((clouds [.new]).picks p.ns x) (Entity.removeTag (Tag.new.text p.ns))
      (⟨w.nextId, true, [Tag.own, .breakpoint, .new, .function f.name].map (·.text p.ns), none,
        none⟩ ::
        es) = _ :: es := changed_first (Target.picks_clouds.mpr ⟨rfl, by simp⟩) hes.picks_new
  refine ⟨⟨⟨⟨_, es, hmarker, rfl, fun _ => mem_tags_not_new fun tag => ?_, hid, hes⟩,
    fun e he => ?_, ?_, fun g hg => ?_⟩, hw.unselected, ?_, rfl⟩, .of_record rfl ?_⟩
  · cases tag <;> simp
  · have he : e ∈ _ :: es := hmarker ▸ he
    rcases List.mem_cons.mp he with rfl | he
    · exact Nat.lt_succ_self _
    · exact Nat.lt_succ_of_lt (hfresh e he)
  · simpa [World.summon] using hw.depth
  · simpa [World.summon] using hw.valid g hg
  · simp [World.summon]
  · simp +decide [World.summon]

end

end DatapackDebug

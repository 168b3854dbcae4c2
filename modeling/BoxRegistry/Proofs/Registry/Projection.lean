import BoxRegistry.Proofs.Basic
import BoxRegistry.Proofs.Registry.Cell

/-!
This module contains the proof that a registry is nothing but its cells as far as boxes are concerned:
an event changes the cell of the box it is about by `Cell.step`, has the effects of that cell, and
leaves all other cells alone. This rests on tasks being numbered one after the other and on a watch
being a task of its own box.
-/

namespace BoxRegistry
namespace Registry

open Time (Moment)

def duty? (r : Registry) (slot : Slot) (task : TaskId) : Option Duty :=
  (r.task? task).bind fun t => if t.slot = slot then some t.duty else none

def cell? (r : Registry) (slot : Slot) : Option Cell :=
  r.boxes[slot]?.map fun b => ⟨b, r.duty? slot⟩

@[simp]
theorem task?_dropTask (r : Registry) (task t : TaskId)
    : (r.dropTask task).task? t = if t = task then none else r.task? t := by
  simp only [dropTask, task?]
  apply lookup_filter_ne

@[simp]
theorem task?_assign (r : Registry) (task t : TaskId) (slot : Slot) (duty : Duty)
    : (r.assign task slot duty).task? t = if t = task then some ⟨slot, duty⟩ else r.task? t := by
  by_cases h : t = task
  . simp [assign, task?, h]
  . have hne : (t == task) = false := by simpa using h
    have := task?_dropTask r task t
    simp only [task?] at this
    simp [assign, task?, List.lookup_cons, hne, this, h]

@[simp]
theorem task?_modifyBox (r : Registry) (slot : Slot) (f : Box → Box) (t : TaskId)
    : (r.modifyBox slot f).task? t = r.task? t := rfl

@[simp]
theorem boxes_modifyBox (r : Registry) (slot i : Slot) (f : Box → Box)
    : (r.modifyBox slot f).boxes[i]? = if slot = i then r.boxes[i]?.map f else r.boxes[i]? := by
  simp only [modifyBox, List.getElem?_modify]
  split
  . rfl
  . simp

@[simp]
theorem length_modifyBox (r : Registry) (slot : Slot) (f : Box → Box)
    : (r.modifyBox slot f).boxes.length = r.boxes.length := by
  simp [modifyBox]

theorem modifyBox_eq {r : Registry} {slot : Slot} {b : Box} (h : r.boxes[slot]? = some b) (f : Box → Box)
    : r.modifyBox slot f = r.modifyBox slot fun _ => f b := by
  have : r.boxes.modify slot f = r.boxes.modify slot fun _ => f b := by
    apply List.ext_getElem?
    intro i
    simp only [List.getElem?_modify]
    split
    . next hi =>
      subst hi
      simp [h]
    . rfl
  simp [modifyBox, this]

theorem cell?_eq_some {r : Registry} {slot : Slot} {c : Cell}
    : r.cell? slot = some c ↔ r.boxes[slot]? = some c.box ∧ r.duty? slot = c.duty := by
  simp only [cell?, Option.map_eq_some_iff]
  constructor
  . rintro ⟨b, hb, rfl⟩
    exact ⟨hb, rfl⟩
  . intro h
    exact ⟨c.box, h.1, by rw [h.2]⟩

theorem map_box_cell? (r : Registry) (slot : Slot) : (r.cell? slot).map Cell.box = r.boxes[slot]? := by
  cases h : r.boxes[slot]? <;> simp [cell?, h]

theorem duty?_eq_some {r : Registry} {slot : Slot} {t : TaskId} {d : Duty}
    : r.duty? slot t = some d ↔ r.task? t = some ⟨slot, d⟩ := by
  unfold duty?
  cases r.task? t with
  | none => simp
  | some task =>
    rcases task with ⟨s, d'⟩
    by_cases h : s = slot
    . simp [h]
    . simp [h]

structure Tidy (r : Registry) : Prop where
  fresh : ∀ t task, r.task? t = some task → t < r.nextTask
  housed : ∀ t task, r.task? t = some task → task.slot < r.boxes.length
  watch : ∀ (i : Slot) (b : Box) (t : TaskId), r.boxes[i]? = some b → b.watch = some t →
    t < r.nextTask ∧ ∀ task, r.task? t = some task → task.slot = i

structure Changes (r r' : Registry) (slot : Slot) (c : Cell) : Prop where
  tidy : r'.Tidy
  cell : r'.cell? slot = some c
  others : ∀ i, i ≠ slot → r'.cell? i = r.cell? i
  length : r'.boxes.length = r.boxes.length
  limits : r'.limits = r.limits

namespace Changes

variable {r r' r'' : Registry} {slot : Slot} {c c' : Cell}

theorem refl (h : r.Tidy) (hc : r.cell? slot = some c) : Changes r r slot c :=
  ⟨h, hc, fun _ _ => rfl, rfl, rfl⟩

theorem trans (h : Changes r r' slot c) (h' : Changes r' r'' slot c') : Changes r r'' slot c' where
  tidy := h'.tidy
  cell := h'.cell
  others i hi := by rw [h'.others i hi, h.others i hi]
  length := by rw [h'.length, h.length]
  limits := by rw [h'.limits, h.limits]

theorem box (h : Changes r r' slot c) : r'.boxes[slot]? = some c.box :=
  (cell?_eq_some.mp h.cell).1

theorem box_other (h : Changes r r' slot c) {i : Slot} (hi : i ≠ slot) : r'.boxes[i]? = r.boxes[i]? := by
  rw [← map_box_cell?, h.others i hi, map_box_cell?]

end Changes

section Primitives

variable {r : Registry} {slot : Slot} {c : Cell}

theorem lt_length_of_cell? (hc : r.cell? slot = some c) : slot < r.boxes.length := by
  have := (cell?_eq_some.mp hc).1
  exact (List.getElem?_eq_some_iff.mp this).1

theorem changes_modifyBox (h : r.Tidy) (hc : r.cell? slot = some c) {b : Box}
    (hb : ∀ t, b.watch = some t → c.box.watch = some t ∨ ∃ d, c.duty t = some d)
    : Changes r (r.modifyBox slot fun _ => b) slot { c with box := b } := by
  rcases cell?_eq_some.mp hc with ⟨hbox, hduty⟩
  constructor
  . constructor
    . intro t task ht
      exact h.fresh t task ht
    . intro t task ht
      rw [length_modifyBox]
      exact h.housed t task ht
    . intro i b' t hi ht
      rw [boxes_modifyBox] at hi
      split at hi
      . next heq =>
        subst heq
        simp only [hbox, Option.map_some, Option.some.injEq] at hi
        subst hi
        cases hb t ht with
        | inl hw => exact h.watch slot c.box t hbox hw
        | inr hd =>
          rcases hd with ⟨d, hd⟩
          rw [← hduty, duty?_eq_some] at hd
          refine ⟨h.fresh t _ hd, ?_⟩
          intro task htask
          rw [task?_modifyBox, hd] at htask
          rw [← Option.some.inj htask]
      . exact h.watch i b' t hi ht
  . rw [cell?_eq_some]
    constructor
    . simp [hbox]
    . exact hduty
  . intro i hi
    simp only [cell?, boxes_modifyBox, Ne.symm hi, if_false]
    rfl
  . simp
  . rfl

structure Retasks (r r' : Registry) (slot : Slot) : Prop where
  boxes : r'.boxes = r.boxes
  limits : r'.limits = r.limits
  nextTask : r.nextTask ≤ r'.nextTask
  task : ∀ t, r'.task? t = r.task? t ∨
    ((∃ d, r.task? t = some ⟨slot, d⟩) ∨ r.nextTask ≤ t) ∧
      ∀ task, r'.task? t = some task → task.slot = slot ∧ t < r'.nextTask

namespace Retasks

variable {r' : Registry}

theorem tidy (h : Retasks r r' slot) (hr : r.Tidy) (hlt : slot < r.boxes.length) : r'.Tidy where
  fresh t task ht := by
    rcases h.task t with heq | ⟨-, hnow⟩
    . exact Nat.lt_of_lt_of_le (hr.fresh t task (by rw [← heq, ht])) h.nextTask
    . exact (hnow task ht).2
  housed t task ht := by
    rw [h.boxes]
    rcases h.task t with heq | ⟨-, hnow⟩
    . exact hr.housed t task (by rw [← heq, ht])
    . rw [(hnow task ht).1]
      exact hlt
  watch i b t hi hw := by
    rw [h.boxes] at hi
    rcases hr.watch i b t hi hw with ⟨hfresh, hslot⟩
    refine ⟨Nat.lt_of_lt_of_le hfresh h.nextTask, ?_⟩
    intro task ht
    rcases h.task t with heq | ⟨⟨d, hd⟩ | hge, hnow⟩
    . exact hslot task (by rw [← heq, ht])
    . rw [(hnow task ht).1]
      exact hslot _ hd
    . exact absurd hfresh (Nat.not_lt.mpr hge)

theorem cell?_other (h : Retasks r r' slot) (hr : r.Tidy) {i : Slot} (hi : i ≠ slot) : r'.cell? i = r.cell? i := by
  have hduty : r'.duty? i = r.duty? i := by
    funext t
    rcases h.task t with heq | ⟨hown, hnow⟩
    . simp only [duty?, heq]
    . have hbefore : ∀ d, r.duty? i t ≠ some d := by
        intro d hd
        rw [duty?_eq_some] at hd
        rcases hown with ⟨d', hd'⟩ | hge
        . rw [hd'] at hd
          cases hd
          exact hi rfl
        . exact absurd (hr.fresh t _ hd) (Nat.not_lt.mpr hge)
      have hafter : ∀ d, r'.duty? i t ≠ some d := fun d hd => hi (hnow _ (duty?_eq_some.mp hd)).1
      rw [Option.eq_none_iff_forall_ne_some.mpr hbefore, Option.eq_none_iff_forall_ne_some.mpr hafter]
  simp only [cell?, hduty, h.boxes]

theorem changes (h : Retasks r r' slot) (hr : r.Tidy) (hc : r.cell? slot = some c) {duty : TaskId → Option Duty}
    (hduty : ∀ t, r'.duty? slot t = duty t)
    : Changes r r' slot ⟨c.box, duty⟩ where
  tidy := h.tidy hr (lt_length_of_cell? hc)
  cell := by
    rw [cell?_eq_some, h.boxes]
    exact ⟨(cell?_eq_some.mp hc).1, funext hduty⟩
  others i hi := h.cell?_other hr hi
  length := by rw [h.boxes]
  limits := h.limits

end Retasks

theorem changes_of_task {r' : Registry} (h : r.Tidy) (hc : r.cell? slot = some c) {task : TaskId} {new : Option Duty}
    (hown : (∃ old, r.task? task = some ⟨slot, old⟩) ∨ r.nextTask ≤ task) (hboxes : r'.boxes = r.boxes)
    (hlimits : r'.limits = r.limits) (hnext : r.nextTask ≤ r'.nextTask) (hlt : new.isSome = true → task < r'.nextTask)
    (htask : ∀ t, r'.task? t = if t = task then new.map fun d => ⟨slot, d⟩ else r.task? t)
    : Changes r r' slot ⟨c.box, fun t => if t = task then new else c.duty t⟩ := by
  have hretasks : Retasks r r' slot := by
    refine ⟨hboxes, hlimits, hnext, ?_⟩
    intro t
    rw [htask]
    split
    . next heq =>
      subst heq
      refine .inr ⟨hown, ?_⟩
      intro task' h'
      rcases Option.map_eq_some_iff.mp h' with ⟨d, hd, rfl⟩
      exact ⟨rfl, hlt (by rw [hd]; rfl)⟩
    . exact .inl rfl
  apply hretasks.changes h hc
  intro t
  rw [← (cell?_eq_some.mp hc).2]
  simp only [duty?, htask]
  split
  . cases new <;> simp
  . rfl

theorem changes_assign (h : r.Tidy) (hc : r.cell? slot = some c) {task : TaskId} {old : Duty}
    (ht : c.duty task = some old) (new : Duty)
    : Changes r (r.assign task slot new) slot (c.assign task new) := by
  rw [← (cell?_eq_some.mp hc).2, duty?_eq_some] at ht
  exact changes_of_task h hc (.inl ⟨old, ht⟩) rfl rfl (Nat.le_refl _) (fun _ => h.fresh task _ ht)
    fun t => task?_assign r task t slot new

theorem changes_dropTask (h : r.Tidy) (hc : r.cell? slot = some c) {task : TaskId} {old : Duty}
    (ht : c.duty task = some old)
    : Changes r (r.dropTask task) slot (c.dropTask task) := by
  rw [← (cell?_eq_some.mp hc).2, duty?_eq_some] at ht
  exact changes_of_task h hc (.inl ⟨old, ht⟩) rfl rfl (Nat.le_refl _) (by simp) fun t => task?_dropTask r task t

theorem changes_spawn (h : r.Tidy) (hc : r.cell? slot = some c) (duty : Duty)
    : Changes r (r.spawn slot duty).2 slot (c.assign r.nextTask duty) :=
  changes_of_task h hc (.inr (Nat.le_refl _)) rfl rfl (Nat.le_succ _) (fun _ => Nat.lt_succ_self _)
    fun t => task?_assign r r.nextTask t slot duty

theorem changes_aside (h : r.Tidy) (hc : r.cell? slot = some c) (ids : IdSource)
    (names : List (String × BoxId)) (counters : Counters)
    : Changes r { r with ids, names, counters } slot c := by
  have hretasks : Retasks r { r with ids, names, counters } slot := ⟨rfl, rfl, Nat.le_refl _, fun _ => .inl rfl⟩
  apply hretasks.changes h hc
  intro t
  rw [← (cell?_eq_some.mp hc).2]
  rfl

theorem changes_disarm (h : r.Tidy) (hc : r.cell? slot = some c)
    : Changes r (r.disarm slot c.box) slot c.disarm := by
  rcases cell?_eq_some.mp hc with ⟨hbox, hduty⟩
  have hmod := changes_modifyBox (b := { c.box with watch := none }) h hc (by simp)
  unfold disarm
  rw [modifyBox_eq hbox]
  cases hwatch : c.box.watch with
  | none =>
    rw [Cell.disarm_of_idle (by simp [hwatch])]
    exact hmod
  | some w =>
    have hown := (h.watch slot c.box w hbox hwatch).2
    dsimp only
    rw [task?_modifyBox]
    cases htask : r.task? w with
    | none =>
      have hnone : c.duty w = none := by
        rw [← hduty, duty?, htask]
        rfl
      rw [Cell.disarm_of_idle (by simp [hwatch, hnone])]
      exact hmod
    | some task =>
      have hd : c.duty w = some task.duty := by
        rw [← hduty, duty?_eq_some, htask, ← hown task htask]
      cases hvigil : task.duty.isVigil with
      | false =>
        rw [Cell.disarm_of_idle (by simp [hwatch, hd, hvigil])]
        simpa [hvigil] using hmod
      | true =>
        rw [Cell.disarm_of_vigil hwatch (by simp [hd, hvigil])]
        simpa [hvigil] using hmod.trans (changes_dropTask hmod.tidy hmod.cell hd)

end Primitives

section Deeds

variable {r : Registry} {slot : Slot} {c : Cell}

theorem nextTask_disarm (r : Registry) (slot : Slot) (b : Box) : (r.disarm slot b).nextTask = r.nextTask := by
  unfold disarm
  dsimp
  split
  . rfl
  . split
    . split <;> rfl
    . rfl

theorem changes_perform (h : r.Tidy) (hc : r.cell? slot = some c) (deed : Deed)
    : Changes r (r.perform slot c.box deed).1 slot (c.perform r.nextTask deed) := by
  cases deed with
  | count milestone => exact changes_aside h hc r.ids r.names _
  | release pid => exact .refl h hc
  | unlist => exact changes_aside h hc r.ids _ r.counters
  | disarm => exact changes_disarm h hc
  | watch pid =>
    have hdisarm := changes_disarm h hc
    have hspawn := hdisarm.trans (changes_spawn hdisarm.tidy hdisarm.cell (.post pid))
    rw [nextTask_disarm] at hspawn
    have hmod := changes_modifyBox (b := (c.arm r.nextTask pid).box) hspawn.tidy hspawn.cell <| by
      intro t ht
      refine .inr ⟨.post pid, ?_⟩
      simp only [Cell.arm, Option.some.injEq] at ht
      simp [Cell.assign, ht]
    show Changes r
      (((r.disarm slot c.box).spawn slot (.post pid)).2.modifyBox slot fun b =>
        { b with watch := some (r.disarm slot c.box).nextTask }) slot (c.arm r.nextTask pid)
    rw [modifyBox_eq hspawn.box, nextTask_disarm]
    exact hspawn.trans hmod

theorem nextTask_perform (r : Registry) (slot : Slot) (b : Box) (deed : Deed)
    : (r.perform slot b deed).1.nextTask = r.nextTask + deed.spawns := by
  cases deed with
  | watch pid => 
    show (r.disarm slot b).nextTask + 1 = _
    rw [nextTask_disarm]
    rfl
  | disarm => exact nextTask_disarm r slot b
  | _ => rfl

theorem effects_perform (r : Registry) (slot : Slot) (b : Box) (deed : Deed)
    : (r.perform slot b deed).2 = deed.effects r.nextTask := by
  cases deed with
  | watch pid => 
    show [Effect.wake (r.disarm slot b).nextTask] = _
    rw [nextTask_disarm]
    rfl
  | _ => rfl

theorem changes_performAll (h : r.Tidy) (hc : r.cell? slot = some c) (deeds : List Deed)
    : Changes r (r.performAll slot deeds).1 slot (c.performAll r.nextTask deeds).1 ∧
      (r.performAll slot deeds).2 = (c.performAll r.nextTask deeds).2 := by
  induction deeds generalizing r c with
  | nil => exact ⟨.refl h hc, rfl⟩
  | cons deed deeds ih =>
    have hperform := changes_perform h hc deed
    have hrest := ih hperform.tidy hperform.cell
    rw [nextTask_perform] at hrest
    simp only [performAll, (cell?_eq_some.mp hc).1, Cell.performAll, effects_perform]
    exact ⟨hperform.trans hrest.1, by rw [hrest.2]⟩

theorem Cell.duty_performAll {d : Duty} {t : TaskId} (ht : c.duty t = some d) (hd : d.isVigil = false)
    {fresh : TaskId} (hfresh : t < fresh) (deeds : List Deed)
    : (c.performAll fresh deeds).1.duty t = some d := by
  induction deeds generalizing c fresh with
  | nil => exact ht
  | cons deed deeds ih =>
    simp only [Cell.performAll]
    apply ih
    . cases deed with
      | watch pid =>
        have : t ≠ fresh := Nat.ne_of_lt hfresh
        simp [Cell.perform, Cell.arm, Cell.assign, Cell.disarm, ht, hd, this]
      | disarm => simp [Cell.perform, Cell.disarm, ht, hd]
      | _ => exact ht
    . exact Nat.lt_of_lt_of_le hfresh (Nat.le_add_right _ _)

theorem changes_leave (h : r.Tidy) (hc : r.cell? slot = some c) {task : TaskId} {d : Duty}
    (ht : c.duty task = some d)
    : Changes r (r.leave slot task).1 slot (c.leave task).1 ∧ (r.leave slot task).2 = (c.leave task).2 := by
  have hbox := (cell?_eq_some.mp hc).1
  have hmod := changes_modifyBox (b := c.box.handOver) h hc (fun t ht => .inl ht)
  have hdrop := hmod.trans (changes_dropTask hmod.tidy hmod.cell ht)
  simp only [leave, modifyBox_eq hbox]
  have : (((r.modifyBox slot fun _ => c.box.handOver).dropTask task).boxes[slot]? >>= Box.holder) =
      c.box.handOver.holder := by
    rw [hdrop.box]
    rfl
  rw [this]
  cases hh : c.box.handOver.holder with
  | none => exact ⟨hdrop, by simp [Cell.leave, hh]⟩
  | some next => exact ⟨hdrop, by simp [Cell.leave, hh]⟩

end Deeds

end Registry
end BoxRegistry

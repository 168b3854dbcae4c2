import BoxRegistry.Proofs.Registry.Moves
import BoxRegistry.Proofs.Registry.Projection

namespace BoxRegistry
namespace Registry

open Time (Moment)

section Work

variable {r : Registry} {slot : Slot} {c : Cell}

theorem lt_nextTask (h : r.Tidy) (hc : r.cell? slot = some c) {t : TaskId} {d : Duty}
    (ht : c.duty t = some d)
    : t < r.nextTask := by
  rw [← (cell?_eq_some.mp hc).2, duty?_eq_some] at ht
  exact h.fresh t _ ht

theorem changes_apply (h : r.Tidy) (hc : r.cell? slot = some c) {task : TaskId} {d : Duty}
    (ht : c.duty task = some d) (hd : d.isVigil = false) (op : Operation) {m : Move}
    (hm : c.box.Alike m.box)
    : Changes r (r.apply slot task op m).1 slot (c.apply r.limits r.nextTask task op m).1 ∧
      (r.apply slot task op m).2 = (c.apply r.limits r.nextTask task op m).2 := by
  have hmod := changes_modifyBox (b := m.box) h hc (fun t ht => .inl (by rw [← hm.watch, ht]))
  have hdeeds := changes_performAll hmod.tidy hmod.cell m.deeds
  have hall := hmod.trans hdeeds.1
  -- The deeds may spawn a watch or strike one off, but not the task that makes the move.
  have htask := Cell.duty_performAll (c := { c with box := m.box }) ht hd (lt_nextTask h hc ht) m.deeds
  unfold apply Cell.apply
  dsimp only
  cases m.next with
  | wait stage =>
    refine ⟨hall.trans (changes_assign hall.tidy hall.cell htask _), ?_⟩
    dsimp only
    rw [hdeeds.2, hall.limits]
    rfl
  | finish result =>
    have hleave := changes_leave hall.tidy hall.cell htask
    refine ⟨hall.trans hleave.1, ?_⟩
    dsimp only
    rw [hdeeds.2, hleave.2]
    rfl
  | crash message =>
    have hleave := changes_leave hall.tidy hall.cell htask
    refine ⟨hall.trans hleave.1, ?_⟩
    dsimp only
    rw [hdeeds.2, hleave.2]
    rfl

theorem changes_notice (h : r.Tidy) (hc : r.cell? slot = some c) {task : TaskId} {d : Duty}
    (ht : c.duty task = some d) (hd : d.isVigil = false) (now : Moment) (pid : Pid)
    (result : Except Fault ProcessEnd)
    : Changes r (r.notice now slot task pid result c.box).1 slot
        (c.notice r.nextTask now task pid result).1 ∧
      (r.notice now slot task pid result c.box).2 = (c.notice r.nextTask now task pid result).2 := by
  have halike := c.box.alike_noticeEnd now task pid result
  unfold notice Cell.notice
  generalize c.box.noticeEnd now task pid result = out at halike ⊢
  rcases out with ⟨b, deeds⟩
  have hmod := changes_modifyBox (b := b) h hc (fun t ht => .inl (by rw [← halike.watch, ht]))
  have hdeeds := changes_performAll hmod.tidy hmod.cell deeds
  have hall := hmod.trans hdeeds.1
  have htask := Cell.duty_performAll (c := { c with box := b }) ht hd (lt_nextTask h hc ht) deeds
  have hleave := changes_leave hall.tidy hall.cell htask
  refine ⟨hall.trans hleave.1, ?_⟩
  dsimp only
  rw [hdeeds.2, hleave.2]
  rfl

theorem changes_withBox (h : r.Tidy) (hc : r.cell? slot = some c) (task : TaskId)
    {work : Registry → Box → Registry × List Effect} {work' : Cell → Cell × List Effect}
    (hwork : ∀ (r' : Registry) (c' : Cell), r'.Tidy → r'.cell? slot = some c' → r'.limits = r.limits →
      r'.nextTask = r.nextTask → c'.duty = c.duty →
      Changes r' (work r' c'.box).1 slot (work' c').1 ∧ (work r' c'.box).2 = (work' c').2)
    : Changes r (r.withBox slot task c.box work).1 slot (c.withBox task work').1 ∧
      (r.withBox slot task c.box work).2 = (c.withBox task work').2 := by
  unfold withBox Cell.withBox
  have hmod := changes_modifyBox (b := (c.box.claim task).2) h hc
    (fun t ht => .inl (by rw [← (c.box.untouched_claim task).watch, ht]))
  dsimp only
  cases (c.box.claim task).1 with
  | true =>
    have := hwork _ _ hmod.tidy hmod.cell rfl rfl rfl
    exact ⟨hmod.trans this.1, this.2⟩
  | false => exact ⟨hmod, rfl⟩

theorem task?_of_duty (hc : r.cell? slot = some c) {task : TaskId} {d : Duty} (ht : c.duty task = some d)
    : r.task? task = some ⟨slot, d⟩ := by
  rwa [← (cell?_eq_some.mp hc).2, duty?_eq_some] at ht

theorem duty_of_task? (hc : r.cell? slot = some c) {task : TaskId} {d : Duty} (ht : r.task? task = some ⟨slot, d⟩)
    : c.duty task = some d := by
  rwa [← (cell?_eq_some.mp hc).2, duty?_eq_some]

theorem changes_run (h : r.Tidy) (hc : r.cell? slot = some c) (now : Moment) {task : TaskId} {d : Duty}
    (ht : c.duty task = some d)
    : Changes r (r.run now task).1 slot (c.turn r.limits r.nextTask now task).1 ∧
      (r.run now task).2 = (c.turn r.limits r.nextTask now task).2 := by
  simp only [run, task?_of_duty hc ht, (cell?_eq_some.mp hc).1, Cell.turn, ht]
  cases d with
  | enter op =>
    apply changes_withBox h hc
    intro r' c' h' hc' hlimits hnext hduty
    rw [← hlimits, ← hnext]
    exact changes_apply h' hc' (by rw [hduty, ht]) rfl op (op.alike_enter c'.box)
  | post pid => exact ⟨changes_assign h hc ht _, rfl⟩
  | notice pid result =>
    apply changes_withBox h hc
    intro r' c' h' hc' hlimits hnext hduty
    rw [← hnext]
    exact changes_notice h' hc' (by rw [hduty, ht]) rfl now pid result
  | work op stage => exact ⟨.refl h hc, rfl⟩
  | watch pid => exact ⟨.refl h hc, rfl⟩

theorem changes_answer (h : r.Tidy) (hc : r.cell? slot = some c) (now : Moment) {task : TaskId} {d : Duty}
    (ht : c.duty task = some d) (reply : Reply)
    : Changes r (r.answer now task reply).1 slot (c.reply r.limits r.nextTask now task reply).1 ∧
      (r.answer now task reply).2 = (c.reply r.limits r.nextTask now task reply).2 := by
  simp only [answer, task?_of_duty hc ht, (cell?_eq_some.mp hc).1, Cell.reply, ht]
  cases d with
  | work op stage => exact changes_apply h hc ht rfl op (op.alike_proceed r.limits now c.box stage reply)
  | watch pid =>
    have hnotice : Changes r ((r.assign task slot (.notice pid reply.ending)).run now task).1 slot
          ((c.assign task (.notice pid reply.ending)).turn r.limits r.nextTask now task).1 ∧
        ((r.assign task slot (.notice pid reply.ending)).run now task).2 =
          ((c.assign task (.notice pid reply.ending)).turn r.limits r.nextTask now task).2 := by
      have hassign := changes_assign h hc ht (.notice pid reply.ending)
      have hduty : (c.assign task (.notice pid reply.ending)).duty task = some (.notice pid reply.ending) := by
        simp [Cell.assign]
      have hrun := changes_run hassign.tidy hassign.cell now hduty
      exact ⟨hassign.trans hrun.1, hrun.2⟩
    cases reply with
    | panicked message => exact ⟨changes_dropTask h hc ht, rfl⟩
    | done => exact hnotice
    | launched pid => exact hnotice
    | ended how => exact hnotice
    | failed f => exact hnotice
    | late => exact hnotice
  | enter op => exact ⟨.refl h hc, rfl⟩
  | post pid => exact ⟨.refl h hc, rfl⟩
  | notice pid result => exact ⟨.refl h hc, rfl⟩

end Work

theorem cell?_eq_none {r : Registry} {slot : Slot} : r.cell? slot = none ↔ r.boxes[slot]? = none := by
  simp [cell?]

def Event.slot? (r : Registry) : Event → Option Slot
  | create .. => none
  | begin slot _ | describe slot .. => some slot
  | turn _ task | reply _ task _ => (r.task? task).map Task.slot

theorem slot?_of_task? {r : Registry} {e : Event} {task : TaskId} {t : Task} (he : e.task? = some task)
    (htask : r.task? task = some t)
    : e.slot? r = some t.slot := by
  cases e <;> cases he <;> simp [Event.slot?, htask]

theorem slot?_of_duty {r : Registry} {slot : Slot} {c : Cell} {e : Event} {task : TaskId} {d : Duty}
    (he : e.task? = some task) (hc : r.cell? slot = some c) (hduty : c.duty task = some d)
    : e.slot? r = some slot :=
  slot?_of_task? he (task?_of_duty hc hduty)

theorem duty_of_slot? {r : Registry} {slot : Slot} {c : Cell} (hc : r.cell? slot = some c) {task : TaskId}
    (h : (r.task? task).map Task.slot = some slot)
    : ∃ d, c.duty task = some d := by
  rcases Option.map_eq_some_iff.mp h with ⟨t, ht, hs⟩
  refine ⟨t.duty, ?_⟩
  rw [← (cell?_eq_some.mp hc).2, duty?_eq_some, ht, ← hs]

theorem changes_describe {r : Registry} {slot : Slot} {c : Cell} (h : r.Tidy) (hc : r.cell? slot = some c)
    (record : Record) (reading : Option Usage)
    : Changes r (r.describe slot record reading).2 slot
      (c.step r.limits r.nextTask slot (.describe slot record reading)).1 := by
  have hbox := (cell?_eq_some.mp hc).1
  simp only [describe, hbox, Cell.step, true_and]
  cases Box.sampledPid? record with
  | none => exact .refl h hc
  | some pid =>
    dsimp only
    rw [modifyBox_eq hbox]
    exact changes_modifyBox h hc fun t ht => .inl ht

theorem changes_step {r : Registry} {slot : Slot} {c : Cell} {e : Event} (h : r.Tidy)
    (hc : r.cell? slot = some c) (he : e.slot? r = some slot)
    : Changes r (r.step e).1 slot (c.step r.limits r.nextTask slot e).1 ∧
      (r.step e).2 = (c.step r.limits r.nextTask slot e).2 := by
  cases e with
  | create request now clock chance => exact absurd he (by simp [Event.slot?])
  | begin s op =>
    obtain rfl : s = slot := Option.some.inj he
    simp only [step, lt_length_of_cell? hc, Cell.step, if_true]
    exact ⟨changes_spawn h hc (.enter op), rfl⟩
  | turn now task =>
    rcases duty_of_slot? hc he with ⟨d, hd⟩
    exact changes_run h hc now hd
  | reply now task reply =>
    rcases duty_of_slot? hc he with ⟨d, hd⟩
    exact changes_answer h hc now hd reply
  | describe s record reading =>
    obtain rfl : s = slot := Option.some.inj he
    refine ⟨changes_describe h hc record reading, ?_⟩
    simp only [step, Cell.step]
    split <;> rfl

theorem slot?_cases (r : Registry) (e : Event)
    : (∃ slot c, e.slot? r = some slot ∧ r.cell? slot = some c) ∨
      ∀ slot, e.slot? r = some slot → r.boxes[slot]? = none := by
  cases hslot : e.slot? r with
  | none => exact .inr (by simp)
  | some slot =>
    cases hc : r.cell? slot with
    | none =>
      refine .inr ?_
      intro s hs
      rw [← Option.some.inj hs]
      exact cell?_eq_none.mp hc
    | some c => exact .inl ⟨slot, c, rfl, hc⟩

theorem duty_of_slot?_ne {r : Registry} {slot : Slot} {c : Cell} (hc : r.cell? slot = some c) {task : TaskId}
    (h : (r.task? task).map Task.slot ≠ some slot)
    : c.duty task = none := by
  rw [Option.eq_none_iff_forall_ne_some]
  intro d hd
  exact h (by rw [task?_of_duty hc hd]; rfl)

theorem step_of_slot?_ne {r : Registry} {slot : Slot} {c : Cell} {e : Event} (hc : r.cell? slot = some c)
    (he : e.slot? r ≠ some slot) (limits : Limits) (fresh : TaskId)
    : c.step limits fresh slot e = (c, []) := by
  cases e with
  | create request now clock chance => rfl
  | begin s op =>
    have : s ≠ slot := fun heq => he (by rw [← heq]; rfl)
    simp [Cell.step, this]
  | turn now task => simp only [Cell.step, Cell.turn, duty_of_slot?_ne hc he]
  | reply now task reply => simp only [Cell.step, Cell.reply, duty_of_slot?_ne hc he]
  | describe s record reading =>
    have : s ≠ slot := fun heq => he (by rw [← heq]; rfl)
    simp [Cell.step, this]

theorem step_of_slot?_out {r : Registry} {e : Event} (h : ∀ slot, e.slot? r = some slot → r.boxes[slot]? = none)
    : r.step e = (r, []) ∨ ∃ request now clock chance, e = .create request now clock chance := by
  cases e with
  | create request now clock chance => exact .inr ⟨request, now, clock, chance, rfl⟩
  | begin slot op =>
    have : ¬slot < r.boxes.length := by
      have := List.getElem?_eq_none_iff.mp (h slot rfl)
      exact Nat.not_lt.mpr this
    exact .inl (by simp [step, this])
  | turn now task =>
    refine .inl ?_
    simp only [step, run]
    cases ht : r.task? task with
    | none => rfl
    | some t => simp [h t.slot (by simp [Event.slot?, ht])]
  | reply now task reply =>
    refine .inl ?_
    simp only [step, answer]
    cases ht : r.task? task with
    | none => rfl
    | some t => simp [h t.slot (by simp [Event.slot?, ht])]
  | describe slot record reading => exact .inl (by simp [step, describe, h slot rfl])

section Create

variable {r : Registry}

theorem create_eq_ok {request : Request} {now : Moment} {clock chance : Nat} {snapshot : Snapshot}
    {r' : Registry} (h : r.create request now clock chance = .ok (snapshot, r'))
    : ∃ granted number ids, request.resolve = .ok granted ∧ r.isTaken request.name = false ∧
      r.ids.draw? clock chance = some (number, ids) ∧
      snapshot = .of (.freeze (.ofNumber number) request granted now) (.new now) none ∧
      r' = r.add (.freeze (.ofNumber number) request granted now) ids := by
  simp only [create, bind, Except.bind] at h
  cases hgranted : request.resolve with
  | error f => simp [hgranted] at h
  | ok granted =>
    cases htaken : r.isTaken request.name with
    | true => simp [hgranted, htaken, throw, throwThe, MonadExceptOf.throw] at h
    | false =>
      cases hdraw : r.ids.draw? clock chance with
      | none => simp [hgranted, htaken, hdraw, throw, throwThe, MonadExceptOf.throw] at h
      | some drawn =>
        simp [hgranted, htaken, hdraw, pure, Except.pure] at h
        exact ⟨granted, drawn.1, drawn.2, rfl, rfl, rfl, h.1.symm, h.2.symm⟩

theorem step_create (r : Registry) (request : Request) (now : Moment) (clock chance : Nat)
    : (r.step (.create request now clock chance)).1 = r ∨
      ∃ spec ids, spec.createdAt = now ∧
        (r.step (.create request now clock chance)).1 = r.add spec ids := by
  simp only [step]
  cases h : r.create request now clock chance with
  | error f => exact .inl rfl
  | ok out =>
    rcases create_eq_ok h with ⟨granted, number, ids, -, -, -, -, heq⟩
    exact .inr ⟨_, _, rfl, heq⟩

theorem task?_add (r : Registry) (spec : Spec) (ids : IdSource) (t : TaskId)
    : (r.add spec ids).task? t = r.task? t := rfl

theorem duty?_length (h : r.Tidy) (t : TaskId) : r.duty? r.boxes.length t = none := by
  rw [Option.eq_none_iff_forall_ne_some]
  intro d hd
  exact absurd (h.housed t _ (duty?_eq_some.mp hd)) (Nat.lt_irrefl _)

theorem cell?_add_self (h : r.Tidy) (spec : Spec) (ids : IdSource)
    : (r.add spec ids).cell? r.boxes.length = some ⟨.new spec, fun _ => none⟩ := by
  rw [cell?_eq_some]
  refine ⟨by simp [add], ?_⟩
  funext t
  exact duty?_length h t

theorem cell?_add_ne (spec : Spec) (ids : IdSource) {i : Slot} (hi : i ≠ r.boxes.length)
    : (r.add spec ids).cell? i = r.cell? i := by
  have : (r.add spec ids).boxes[i]? = r.boxes[i]? := by
    simp only [add, List.getElem?_append]
    split
    . rfl
    . next h =>
      have : i - r.boxes.length ≠ 0 := by
        unfold Slot at *
        omega
      cases hk : i - r.boxes.length with
      | zero => contradiction
      | succ k =>
        simp only [List.getElem?_cons_succ, List.getElem?_nil]
        exact (List.getElem?_eq_none (by omega)).symm
  simp only [cell?, this]
  rfl

theorem tidy_add (h : r.Tidy) (spec : Spec) (ids : IdSource) : (r.add spec ids).Tidy where
  fresh := h.fresh
  housed t task ht := Nat.lt_of_lt_of_le (h.housed t task ht) (by simp [add])
  watch i b t hb ht := by
    by_cases hi : i = r.boxes.length
    . subst hi
      have := (cell?_eq_some.mp (cell?_add_self h spec ids)).1
      rw [this] at hb
      rw [← Option.some.inj hb] at ht
      cases ht
    . have := cell?_add_ne spec ids hi
      simp only [cell?, hb, Option.map_some] at this
      cases hold : r.boxes[i]? with
      | none => simp [hold] at this
      | some b' =>
        simp only [hold, Option.map_some, Option.some.injEq, Cell.mk.injEq] at this
        exact h.watch i b' t hold (by rw [← this.1, ht])

end Create

theorem tidy_start (limits : Limits) : Tidy { limits } where
  fresh t task h := by cases h
  housed t task h := by cases h
  watch i b t h := by cases h

theorem exists_cell? {r : Registry} {slot : Slot} {b : Box} (h : r.boxes[slot]? = some b)
    : ∃ c, r.cell? slot = some c ∧ c.box = b :=
  ⟨⟨b, r.duty? slot⟩, by simp [cell?, h], rfl⟩

structure Evolves (r : Registry) (e : Event) : Prop where
  tidy : (r.step e).1.Tidy
  limits : (r.step e).1.limits = r.limits
  cell : ∀ slot c, r.cell? slot = some c →
    (r.step e).1.cell? slot = some (c.step r.limits r.nextTask slot e).1
  added : ∀ slot c', r.cell? slot = none → (r.step e).1.cell? slot = some c' →
    ∃ spec, c' = ⟨.new spec, fun _ => none⟩

theorem Evolves.before {r : Registry} {e : Event} {slot : Slot} {c' : Cell} (h : Evolves r e)
    (hc' : (r.step e).1.cell? slot = some c')
    : (∃ spec, c' = ⟨.new spec, fun _ => none⟩) ∨
      ∃ c, r.cell? slot = some c ∧ c' = (c.step r.limits r.nextTask slot e).1 := by
  cases hc : r.cell? slot with
  | none => exact .inl (h.added slot c' hc hc')
  | some c =>
    rw [h.cell slot c hc] at hc'
    exact .inr ⟨c, rfl, (Option.some.inj hc').symm⟩

theorem evolves_of_add {r : Registry} {e : Event} (h : r.Tidy) {spec : Spec} {ids : IdSource}
    (heq : (r.step e).1 = r.add spec ids) (he : ∀ (slot : Slot) (c : Cell), c.step r.limits r.nextTask slot e = (c, []))
    : Evolves r e where
  tidy := by
    rw [heq]
    exact tidy_add h spec ids
  limits := by rw [heq]; rfl
  cell slot c hc := by
    have : slot ≠ r.boxes.length := Nat.ne_of_lt (lt_length_of_cell? hc)
    rw [heq, cell?_add_ne spec ids this, hc, he]
  added slot c' hnone hc := by
    refine ⟨spec, ?_⟩
    by_cases hslot : slot = r.boxes.length
    . rw [heq, hslot, cell?_add_self h] at hc
      exact (Option.some.inj hc).symm
    . rw [heq, cell?_add_ne spec ids hslot, hnone] at hc
      cases hc

theorem evolves_of_eq {r : Registry} {e : Event} (h : r.Tidy) (heq : (r.step e).1 = r)
    (he : ∀ slot c, r.cell? slot = some c → c.step r.limits r.nextTask slot e = (c, []))
    : Evolves r e where
  tidy := by rwa [heq]
  limits := by rw [heq]
  cell slot c hc := by rw [heq, he slot c hc, hc]
  added slot c' hnone hc := by
    rw [heq, hnone] at hc
    cases hc

theorem evolves_of_changes {r : Registry} {e : Event} {slot : Slot} {c : Cell}
    (hc : r.cell? slot = some c) (he : e.slot? r = some slot)
    (hchanges : Changes r (r.step e).1 slot (c.step r.limits r.nextTask slot e).1)
    : Evolves r e where
  tidy := hchanges.tidy
  limits := hchanges.limits
  cell i ci hci := by
    by_cases hi : i = slot
    . subst hi
      rw [hc] at hci
      rw [← Option.some.inj hci]
      exact hchanges.cell
    . rw [hchanges.others i hi, hci, step_of_slot?_ne hci]
      rw [he]
      exact fun h => hi (Option.some.inj h).symm
  added i ci hnone hci := by
    have hi : i ≠ slot := by
      intro heq
      rw [heq, hc] at hnone
      cases hnone
    rw [hchanges.others i hi, hnone] at hci
    cases hci

theorem evolves {r : Registry} (h : r.Tidy) (e : Event) : Evolves r e := by
  -- An event is about a box that is there, or else it creates one, or else it does nothing.
  rcases r.slot?_cases e with ⟨slot, c, he, hc⟩ | hout
  . exact evolves_of_changes hc he (changes_step h hc he).1
  . cases step_of_slot?_out hout with
    | inl heq =>
      apply evolves_of_eq h (by rw [heq])
      intro slot c hc
      apply step_of_slot?_ne hc
      intro he
      have := hout slot he
      rw [(cell?_eq_some.mp hc).1] at this
      cases this
    | inr hcreate =>
      rcases hcreate with ⟨request, now, clock, chance, rfl⟩
      cases step_create r request now clock chance with
      | inl heq => exact evolves_of_eq h heq fun _ _ _ => rfl
      | inr hadd =>
        rcases hadd with ⟨spec, ids, -, heq⟩
        exact evolves_of_add h heq fun _ _ => rfl

section NextTask

theorem le_nextTask_performAll (r : Registry) (slot : Slot) (deeds : List Deed)
    : r.nextTask ≤ (r.performAll slot deeds).1.nextTask := by
  induction deeds generalizing r with
  | nil => exact Nat.le_refl _
  | cons deed deeds ih =>
    unfold performAll
    split
    . exact Nat.le_refl _
    . next b _ =>
      have hrest := ih (r.perform slot b deed).1
      rw [nextTask_perform] at hrest
      exact Nat.le_trans (Nat.le_add_right _ _) hrest

theorem nextTask_leave (r : Registry) (slot : Slot) (t : TaskId) : (r.leave slot t).1.nextTask = r.nextTask := by
  unfold leave
  dsimp only
  split <;> rfl

theorem le_nextTask_apply (r : Registry) (slot : Slot) (t : TaskId) (op : Operation) (m : Move)
    : r.nextTask ≤ (r.apply slot t op m).1.nextTask := by
  have hdeeds := le_nextTask_performAll (r.modifyBox slot fun _ => m.box) slot m.deeds
  unfold apply
  dsimp only
  split
  . exact hdeeds
  . dsimp only
    rw [nextTask_leave]
    exact hdeeds
  . dsimp only
    rw [nextTask_leave]
    exact hdeeds

theorem le_nextTask_notice (r : Registry) (now : Moment) (slot : Slot) (t : TaskId) (pid : Pid)
    (result : Except Fault ProcessEnd) (b : Box)
    : r.nextTask ≤ (r.notice now slot t pid result b).1.nextTask := by
  unfold notice
  dsimp only
  rw [nextTask_leave]
  exact le_nextTask_performAll (r.modifyBox slot fun _ => (b.noticeEnd now t pid result).1) slot _

theorem le_nextTask_withBox (r : Registry) (slot : Slot) (t : TaskId) (b : Box)
    {work : Registry → Box → Registry × List Effect} (h : ∀ r b, r.nextTask ≤ (work r b).1.nextTask)
    : r.nextTask ≤ (r.withBox slot t b work).1.nextTask := by
  unfold withBox
  dsimp only
  split
  . exact h (r.modifyBox slot fun _ => (b.claim t).2) _
  . exact Nat.le_refl _

theorem le_nextTask_run (r : Registry) (now : Moment) (t : TaskId) : r.nextTask ≤ (r.run now t).1.nextTask := by
  unfold run
  split
  . exact Nat.le_refl _
  . split
    . exact Nat.le_refl _
    . split
      . exact le_nextTask_withBox _ _ _ _ fun r b => le_nextTask_apply r _ _ _ _
      . exact Nat.le_refl _
      . exact le_nextTask_withBox _ _ _ _ fun r b => le_nextTask_notice r _ _ _ _ _ _
      . exact Nat.le_refl _
      . exact Nat.le_refl _

theorem le_nextTask_step (r : Registry) (e : Event) : r.nextTask ≤ (r.step e).1.nextTask := by
  cases e with
  | create request now clock chance =>
    rcases step_create r request now clock chance with heq | ⟨spec, ids, -, heq⟩
    . exact Nat.le_of_eq (congrArg nextTask heq).symm
    . exact Nat.le_of_eq (congrArg nextTask heq).symm
  | begin slot op =>
    simp only [step]
    split
    . exact Nat.le_succ _
    . exact Nat.le_refl _
  | turn now t => exact le_nextTask_run r now t
  | reply now t reply =>
    simp only [step, answer]
    split
    . exact Nat.le_refl _
    . split
      . exact Nat.le_refl _
      . split
        . exact le_nextTask_apply _ _ _ _ _
        . split
          . exact Nat.le_refl _
          . exact le_nextTask_run (r.assign t _ _) now t
        . exact Nat.le_refl _
        . exact Nat.le_refl _
        . exact Nat.le_refl _
  | describe slot record reading =>
    simp only [step, describe]
    split
    . exact Nat.le_refl _
    . split <;> exact Nat.le_refl _

theorem le_nextTask_after (r : Registry) (es : List Event) : r.nextTask ≤ (r.after es).nextTask := by
  induction es generalizing r with
  | nil => exact Nat.le_refl _
  | cons e es ih => exact Nat.le_trans (le_nextTask_step r e) (ih (r.step e).1)

end NextTask

theorem limits_after {r : Registry} (h : r.Tidy) (es : List Event) : (r.after es).limits = r.limits := by
  induction es generalizing r with
  | nil => rfl
  | cons e es ih =>
    have hevolves := evolves h e
    rw [after_cons, ih hevolves.tidy, hevolves.limits]

theorem tidy_of_reachable {limits : Limits} {allowed : Registry → Event → Prop} {r : Registry}
    (h : Reachable limits allowed r)
    : r.Tidy := by
  induction h with
  | start => exact tidy_start limits
  | step _ _ ih => exact (evolves ih _).tidy

theorem cell_of_reachable {limits : Limits} {allowed : Registry → Event → Prop} {P : Cell → Prop}
    (hnew : ∀ spec, P ⟨.new spec, fun _ => none⟩)
    (hstep : ∀ r slot c e, r.Tidy → r.cell? slot = some c → allowed r e → P c →
      P (c.step r.limits r.nextTask slot e).1)
    {r : Registry} (h : Reachable limits allowed r)
    : ∀ slot c, r.cell? slot = some c → P c := by
  induction h with
  | start =>
    intro slot c hc
    cases hc
  | @step r e hr he ih =>
    have htidy := tidy_of_reachable hr
    intro slot c' hc'
    cases hc : r.cell? slot with
    | none =>
      rcases (evolves htidy e).added slot c' hc hc' with ⟨spec, rfl⟩
      exact hnew spec
    | some c =>
      rw [(evolves htidy e).cell slot c hc] at hc'
      rw [← Option.some.inj hc']
      exact hstep r slot c e htidy hc he (ih slot c hc)

end Registry
end BoxRegistry

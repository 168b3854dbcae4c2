import BoxRegistry.Proofs.Registry.Sound

namespace BoxRegistry

open Time (Moment)

def Registry.Event.Acts (b : Box) (e : Registry.Event) : Prop :=
  ∃ task, e.task? = some task ∧ (b.claim task).1 = true

namespace Cell

variable {c : Cell}

theorem Sound.untouched_step (h : c.Sound) {e : Registry.Event} (he : ¬e.Acts c.box) (limits : Limits)
    (fresh : TaskId) (slot : Slot)
    : c.box.Untouched (c.step limits fresh slot e).1.box ∧
      (c.step limits fresh slot e).1.box.holder = c.box.holder := by
  have hidle : ∀ task, e.task? = some task → (c.box.claim task).1 ≠ true :=
    fun task htask hclaim => he ⟨task, htask, hclaim⟩
  have hsteps := c.steps limits fresh slot e
  generalize c.step limits fresh slot e = out at hsteps
  cases hsteps with
  | rests rests => exact ⟨.refl _, rfl⟩
  | begins op => exact ⟨.refl _, rfl⟩
  | posts duty => exact ⟨.refl _, rfl⟩
  | queues arrives unclaimed => exact ⟨c.box.untouched_claim _, (Box.holder_of_claim_aside unclaimed).1⟩
  | @enters now task op duty claimed => exact absurd claimed (hidle task rfl)
  | @proceeds now task reply op stage duty =>
    -- A task that carries out an operation has hold of the box, so its reply acts on it.
    exact absurd (Box.claim_eq_true_iff.mpr (.inr (h.worker task op stage duty))) (hidle task rfl)
  | reports arrives claimed => exact absurd claimed (hidle _ arrives.task?_eq)
  | quits duty => exact ⟨.refl _, rfl⟩
  | samples sampled => exact ⟨⟨rfl, rfl, rfl, rfl⟩, rfl⟩

end Cell

namespace Registry

theorem untouched_step {limits : Limits} {allowed : Registry → Event → Prop} {r : Registry}
    (h : Reachable limits allowed r) {slot : Slot} {b : Box} (hb : r.boxes[slot]? = some b) {e : Event}
    (he : ¬e.Acts b)
    : ∃ b', (r.step e).1.boxes[slot]? = some b' ∧ b.Untouched b' ∧ b'.holder = b.holder := by
  rcases exists_cell? hb with ⟨c, hc, rfl⟩
  have hstep := (evolves (tidy_of_reachable h) e).cell slot c hc
  have huntouched := (sound_of_reachable h hc).untouched_step he r.limits r.nextTask slot
  exact ⟨_, (cell?_eq_some.mp hstep).1, huntouched⟩

end Registry

end BoxRegistry

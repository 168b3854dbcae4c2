import BoxRegistry.Proofs.Registry.RemovedQueue
import Mathlib.Data.Nat.Pairing

namespace BoxRegistry

namespace Registry

variable {limits : Limits} {allowed : Registry → Event → Prop} {r : Registry} {slot : Slot} {c : Cell}

/--
Of all that a registry keeps, nothing is changed but the line of the box at a place.
-/
structure Spares (r r' : Registry) (slot : Slot) : Prop where
  ids : r'.ids = r.ids
  names : r'.names = r.names
  counters : r'.counters = r.counters
  others : ∀ s ≠ slot, r'.cell? s = r.cell? s

section Step

theorem removed_of_settled (h : Reachable limits allowed r) {e : Event} {task : TaskId} {d : Duty} {force : Bool}
    (hduty : r.task? task = some ⟨slot, d⟩) (hop : d.op? = some (.remove force))
    (hok : .settled task (.ok ()) ∈ (r.step e).2)
    : ∃ c, (r.step e).1.cell? slot = some c ∧ c.box.removed = true := by
  have htidy := tidy_of_reachable h
  rcases r.slot?_cases e with ⟨s, c, hs, hc⟩ | hout
  . have hchanges := changes_step htidy hc hs
    have hsound := sound_of_reachable h hc
    rw [hchanges.2] at hok
    have htask := slot?_of_task? (Cell.settled_step hok).1 hduty
    obtain rfl : s = slot := Option.some.inj (hs.symm.trans htask)
    have hcell : c.duty task = some d := by rw [← (cell?_eq_some.mp hc).2, duty?_eq_some, hduty]
    exact ⟨_, hchanges.1.cell,
      (hsound.happens (below_of_tidy htidy hc) r.limits s e).removed hsound hcell hop hok⟩
  . rcases step_of_slot?_out hout with heq | ⟨request, now, clock, chance, rfl⟩
    . rw [heq] at hok
      cases hok
    . simp only [step] at hok
      split at hok <;> cases hok

theorem spares_of_removed (h : Reachable limits allowed r) (hc : r.cell? slot = some c)
    (hremoved : c.box.removed = true) {e : Event} (he : e.slot? r = some slot)
    : Spares r (r.step e).1 slot := by
  have htidy := tidy_of_reachable h
  have hpapers := papers_step htidy hc he
  rw [(sound_of_reachable h hc).deeds_of_removed hremoved] at hpapers
  exact {
    ids := congrArg Papers.ids hpapers
    names := congrArg Papers.names hpapers
    counters := congrArg Papers.counters hpapers
    others := (changes_step htidy hc he).1.others }

theorem step_of_removed (h : Reachable limits allowed r) (hc : r.cell? slot = some c)
    (hremoved : c.box.removed = true) (e : Event)
    : ∃ c', (r.step e).1.cell? slot = some c' ∧ c.box.Agrees c'.box ∧ c.Recedes e (c', r.effectsAt slot e) := by
  have htidy := tidy_of_reachable h
  have hsound := sound_of_reachable h hc
  refine ⟨_, (evolves htidy e).cell slot c hc, ?_, ?_⟩
  . exact Cell.agrees_step slot (hsound.commits_of_removed hremoved e)
  . rw [effectsAt_eq htidy hc]
    exact hsound.recedes (below_of_tidy htidy hc) hremoved r.limits slot e

theorem slot_ne_of_removed (h : Reachable limits allowed r) (hc : r.cell? slot = some c)
    (hremoved : c.box.removed = true) {e : Event} {x : Dealing} (hx : x ∈ r.dealings e)
    : x.slot ≠ slot := by
  have htidy := tidy_of_reachable h
  have hsound := sound_of_reachable h hc
  have hrecedes := hsound.recedes (below_of_tidy htidy hc) hremoved r.limits slot e
  have hnone : (r.dealings e).filter (Dealing.isAt slot) = [] := by
    rw [filter_dealings htidy hc, Cell.dealings, hsound.heard_of_removed hremoved, hrecedes.dealings, List.append_nil]
  rintro rfl
  exact List.filter_eq_nil_iff.mp hnone x hx (by simp [Dealing.isAt])

theorem lookup_ne_of_removed (h : Reachable limits allowed r) (hc : r.cell? slot = some c)
    (hremoved : c.box.removed = true) (key : String)
    : r.lookup key ≠ .ok slot := by
  intro hlookup
  rcases (lookup_eq_ok_iff (indexed_of_reachable h)).mp hlookup with ⟨spec, hlists, -⟩
  rw [lists_cell hc, hremoved] at hlists
  cases hlists.1

end Step

theorem removed_after (h : Reachable limits (fun _ _ => True) r) (hc : r.cell? slot = some c)
    (hremoved : c.box.removed = true) (es : List Event)
    : ∃ c', (r.after es).cell? slot = some c' ∧ c.box.Agrees c'.box := by
  induction es generalizing r c with
  | nil => exact ⟨c, hc, .refl c.box⟩
  | cons e es ih =>
    rcases step_of_removed h hc hremoved e with ⟨c₁, hc₁, hagrees₁, -⟩
    rcases ih (h.step trivial) hc₁ (by rw [hagrees₁.removed, hremoved]) with ⟨c', hc', hagrees⟩
    exact ⟨c', hc', hagrees₁.trans hagrees⟩

section Dealt

theorem dealt_append (r : Registry) (es es' : List Event) : r.dealt (es ++ es') = r.dealt es ++ (r.after es).dealt es' := by
  induction es generalizing r with
  | nil => rfl
  | cons e es ih => simp only [List.cons_append, dealt, ih, after_cons, List.append_assoc]

theorem launched_of_dealt {es : List Event} {x : Dealing} (hx : x ∈ ({ limits } : Registry).dealt es) {pid : Pid}
    (hpid : x.pid? = some pid)
    : ∃ t order, .hear x.slot t (.launch order) (.launched pid) ∈ ({ limits } : Registry).dealt es := by
  rcases conducts_after hx rfl with ⟨c, -, -, hconducts⟩
  have hhere : x ∈ (({ limits } : Registry).dealt es).filter (Dealing.isAt x.slot) :=
    List.mem_filter.mpr ⟨hx, by simp [Dealing.isAt]⟩
  rcases hconducts.life.launched_of_mem hhere hpid with ⟨t, order, hlaunch⟩
  exact ⟨t, order, (List.mem_filter.mp hlaunch).1⟩

end Dealt

section Later

def upTo (r : Registry) (later : Nat → Event) (n : Nat) : Registry :=
  r.after ((List.range n).map later)

variable {later : Nat → Event}

theorem upTo_succ (r : Registry) (later : Nat → Event) (n : Nat)
    : r.upTo later (n + 1) = ((r.upTo later n).step (later n)).1 := by
  simp [upTo, List.range_succ, after_append]

theorem reachable_upTo (h : Reachable limits (fun _ _ => True) r) (later : Nat → Event) (n : Nat)
    : Reachable limits (fun _ _ => True) (r.upTo later n) :=
  h.after fun _ _ _ => trivial

theorem mem_dealt_upTo (es : List Event) {n : Nat} {x : Dealing}
    (hx : x ∈ ((r.after es).upTo later n).dealings (later n))
    : x ∈ r.dealt (es ++ (List.range (n + 1)).map later) := by
  rw [List.range_succ, List.map_append, dealt_append]
  apply List.mem_append_right
  rw [dealt_append]
  apply List.mem_append_right
  rw [List.map_singleton, dealt, dealt, List.append_nil]
  exact hx

theorem Cell.lined_of_sound (h : c.Sound) {t : TaskId} (ht : t ∈ c.line) : ∃ d, c.duty t = some d := by
  rcases List.mem_append.mp ht with hholder | hqueue
  . rcases h.holder t (by simpa using hholder) with ⟨d, hd, -⟩
    exact ⟨d, hd⟩
  . rcases h.queue t hqueue with ⟨d, hd, -⟩
    exact ⟨d, hd⟩

section Removed

variable (h : Reachable limits (fun _ _ => True) r) (hc : r.cell? slot = some c) (hremoved : c.box.removed = true)
include h hc hremoved

theorem removed_upTo (later : Nat → Event) (n : Nat)
    : ∃ c', (r.upTo later n).cell? slot = some c' ∧ c.box.Agrees c'.box ∧ c'.box.removed = true := by
  rcases removed_after h hc hremoved ((List.range n).map later) with ⟨c', hc', hagrees⟩
  exact ⟨c', hc', hagrees, by rw [hagrees.removed, hremoved]⟩

theorem record_upTo (later : Nat → Event) (n : Nat)
    : ∃ b', (r.upTo later n).boxes[slot]? = some b' ∧ b'.spec = c.box.spec ∧ b'.record = c.box.record ∧
        b'.removed = true := by
  rcases removed_upTo h hc hremoved later n with ⟨c', hc', hagrees, hremoved'⟩
  exact ⟨c'.box, (cell?_eq_some.mp hc').1, hagrees.spec, hagrees.record, hremoved'⟩

theorem lookup_upTo_ne (later : Nat → Event) (n : Nat) (key : String) : (r.upTo later n).lookup key ≠ .ok slot := by
  rcases removed_upTo h hc hremoved later n with ⟨c', hc', -, hremoved'⟩
  exact lookup_ne_of_removed (reachable_upTo h later n) hc' hremoved' key

theorem spares_upTo (later : Nat → Event) {n : Nat} (hslot : (later n).slot? (r.upTo later n) = some slot)
    : Spares (r.upTo later n) (r.upTo later (n + 1)) slot := by
  rcases removed_upTo h hc hremoved later n with ⟨c', hc', -, hremoved'⟩
  rw [upTo_succ]
  exact spares_of_removed (reachable_upTo h later n) hc' hremoved' hslot

theorem idle_upTo (later : Nat → Event) {n : Nat} (hslot : (later n).slot? (r.upTo later n) = some slot)
    {effect : Effect} (heffect : effect ∈ ((r.upTo later n).step (later n)).2)
    : (∃ t, effect = .wake t) ∨
        ∃ t op, (r.upTo later n).duty? slot t = some (.enter op) ∧
          effect = .settled t (.error (.notFound c.box.spec.id.text)) := by
  rcases removed_upTo h hc hremoved later n with ⟨c', hc', hagrees, hremoved'⟩
  rcases step_of_removed (reachable_upTo h later n) hc' hremoved' (later n) with ⟨c'', -, -, hrecedes⟩
  have heffects : (r.upTo later n).effectsAt slot (later n) = ((r.upTo later n).step (later n)).2 := if_pos hslot
  rw [heffects] at hrecedes
  rw [← hagrees.spec, (cell?_eq_some.mp hc').2]
  exact hrecedes.idle effect heffect

theorem slot_ne_upTo (later : Nat → Event) {n : Nat} {x : Dealing} (hx : x ∈ (r.upTo later n).dealings (later n))
    : x.slot ≠ slot := by
  rcases removed_upTo h hc hremoved later n with ⟨c', hc', -, hremoved'⟩
  exact slot_ne_of_removed (reachable_upTo h later n) hc' hremoved' hx

theorem contends_upTo (later : Nat → Event) {n : Nat} {t : TaskId} {d : Duty}
    (hduty : (r.upTo later n).duty? slot t = some d)
    : d.contends = true := by
  rcases removed_upTo h hc hremoved later n with ⟨c', hc', -, hremoved'⟩
  rw [(cell?_eq_some.mp hc').2] at hduty
  exact (sound_of_reachable (reachable_upTo h later n) hc').contends_of_removed hremoved' hduty

theorem departs_of_removed
    (hfair : ∀ n t d, (r.upTo later n).duty? slot t = some d → ∃ m ≥ n, ∃ now, later m = .turn now t)
    {n : Nat} {t : TaskId} {d : Duty} (hduty : (r.upTo later n).duty? slot t = some d)
    : ∃ m ≥ n, (r.upTo later (m + 1)).duty? slot t = none ∧
        ∀ op, d = .enter op →
          .settled t (.error (.notFound c.box.spec.id.text)) ∈ ((r.upTo later m).step (later m)).2 := by
  choose cells hcells hagrees hremoved' using fun n => removed_upTo h hc hremoved later n
  have hduties : ∀ n, (r.upTo later n).duty? slot = (cells n).duty := fun n => (cell?_eq_some.mp (hcells n)).2
  have hdwindles : Cell.Dwindles cells later fun n => (r.upTo later n).effectsAt slot (later n) := by
    constructor
    . intro n
      rcases step_of_removed (reachable_upTo h later n) (hcells n) (hremoved' n) (later n) with ⟨c', hc', -, hrecedes⟩
      rw [← upTo_succ, hcells] at hc'
      rwa [Option.some.inj hc']
    . exact fun n t ht => Cell.lined_of_sound (sound_of_reachable (reachable_upTo h later n) (hcells n)) ht
    . intro n t d hd
      rw [← hduties] at hd
      exact hfair n t d hd
  rw [hduties] at hduty
  rcases hdwindles.departs hduty with ⟨m, hm, hgone, woken, heffects⟩
  dsimp only at heffects
  refine ⟨m, hm, by rw [hduties, hgone], ?_⟩
  rintro op rfl
  have hmem : .settled t (.error (.notFound c.box.spec.id.text)) ∈ (r.upTo later m).effectsAt slot (later m) := by
    rw [heffects, (hagrees m).spec]
    simp [Cell.farewell]
  unfold effectsAt at hmem
  split at hmem
  . exact hmem
  . cases hmem

end Removed

end Later

/--
What a removed box leaves to be done, whatever happens later. Its record stays as it is, and no key leads to it.
What its tasks do spares all but their own line: none of them deals with the backend, and each that has its turn
again and again ends, without having found the box if it was to carry out an operation.
-/
theorem removal_is_final (limits : Limits) (es : List Event) (e : Event) {task : TaskId} {slot : Slot} {d : Duty}
    {force : Bool} (hduty : (({ limits } : Registry).after es).task? task = some ⟨slot, d⟩)
    (hop : d.op? = some (.remove force))
    (hok : .settled task (.ok ()) ∈ ((({ limits } : Registry).after es).step e).2)
    : let r := ({ limits } : Registry).after (es ++ [e])
      ∃ b, r.boxes[slot]? = some b ∧ b.removed = true ∧ ∀ later : Nat → Event,
        (∀ n, ∃ b', (r.upTo later n).boxes[slot]? = some b' ∧ b'.spec = b.spec ∧ b'.record = b.record ∧
          b'.removed = true) ∧
        (∀ n key, (r.upTo later n).lookup key ≠ .ok slot) ∧
        (∀ n, (later n).slot? (r.upTo later n) = some slot →
          Spares (r.upTo later n) (r.upTo later (n + 1)) slot ∧
          ∀ effect ∈ ((r.upTo later n).step (later n)).2, (∃ t, effect = .wake t) ∨
            ∃ t op, (r.upTo later n).duty? slot t = some (.enter op) ∧
              effect = .settled t (.error (.notFound b.spec.id.text))) ∧
        (∀ n, ∀ x ∈ (r.upTo later n).dealings (later n), x.slot ≠ slot ∧
          ∀ pid, x.pid? = some pid → ∃ t order, .hear x.slot t (.launch order) (.launched pid) ∈
            ({ limits } : Registry).dealt (es ++ e :: (List.range (n + 1)).map later)) ∧
        (∀ n t d, (r.upTo later n).duty? slot t = some d → d.contends = true) ∧
        ((∀ n t d, (r.upTo later n).duty? slot t = some d → ∃ m ≥ n, ∃ now, later m = .turn now t) →
          ∀ n t d, (r.upTo later n).duty? slot t = some d →
            ∃ m ≥ n, (r.upTo later (m + 1)).duty? slot t = none ∧
              ∀ op, d = .enter op →
                .settled t (.error (.notFound b.spec.id.text)) ∈ ((r.upTo later m).step (later m)).2) := by
  intro r
  have hbefore : Reachable limits (fun _ _ => True) (({ limits } : Registry).after es) :=
    Reachable.start.after fun _ _ _ => trivial
  have hreachable : Reachable limits (fun _ _ => True) r := Reachable.start.after fun _ _ _ => trivial
  rcases removed_of_settled hbefore hduty hop hok with ⟨c, hc, hremoved⟩
  have hr : r = ((({ limits } : Registry).after es).step e).1 := by simp [r, after_append]
  rw [← hr] at hc
  refine ⟨c.box, (cell?_eq_some.mp hc).1, hremoved, ?_⟩
  intro later
  refine ⟨record_upTo hreachable hc hremoved later, lookup_upTo_ne hreachable hc hremoved later, ?_, ?_, ?_, ?_⟩
  . exact fun n hslot => ⟨spares_upTo hreachable hc hremoved later hslot,
      fun effect heffect => idle_upTo hreachable hc hremoved later hslot heffect⟩
  . intro n x hx
    refine ⟨slot_ne_upTo hreachable hc hremoved later hx, ?_⟩
    intro pid hpid
    have hdealt := mem_dealt_upTo (es ++ [e]) hx
    rw [List.append_assoc] at hdealt
    exact launched_of_dealt hdealt hpid
  . exact fun n t d hd => contends_upTo hreachable hc hremoved later hd
  . exact fun hfair n t d hd => departs_of_removed hreachable hc hremoved hfair hd

def stopDuringRemoval : List Event :=
  [.create { image := "alpine" } ⟨0, 0⟩ 1 0, .begin 0 .start, .turn ⟨0, 0⟩ 0, .reply ⟨0, 0⟩ 0 (.launched 7),
    .turn ⟨0, 0⟩ 1, .begin 0 (.remove true), .turn ⟨1, 0⟩ 2, .reply ⟨1, 0⟩ 2 .done, .begin 0 (.stop ⟨0⟩),
    .turn ⟨1, 0⟩ 3]

def roundRobin (n : Nat) : Event :=
  .turn ⟨2, 0⟩ n.unpair.1

theorem removal_is_final_stopDuringRemoval
    : let ended : Event := .reply ⟨1, 0⟩ 2 (.ended (.signaled 9))
      let r := ({} : Registry).after (stopDuringRemoval ++ [ended])
      .settled 2 (.ok ()) ∈ ((({} : Registry).after stopDuringRemoval).step ended).2 ∧
        ∃ b, r.boxes[0]? = some b ∧ b.removed = true ∧ b.record.status = .stopped ∧
          ∃ m, .settled 3 (.error (.notFound b.spec.id.text)) ∈ ((r.upTo roundRobin m).step (roundRobin m)).2 := by
  intro ended r
  have hok : .settled 2 (.ok ()) ∈ ((({} : Registry).after stopDuringRemoval).step ended).2 := by
    show _ ∈ [Effect.release 7, .wake 3, .settled 2 (.ok ())]
    simp
  have hduty : (({} : Registry).after stopDuringRemoval).task? 2 = some ⟨0, .work (.remove true) (.confirming 7)⟩ := rfl
  rcases removal_is_final {} stopDuringRemoval ended hduty rfl hok with ⟨b, hb, hremoved, hlater⟩
  rcases hlater roundRobin with ⟨-, -, -, -, -, hdeparts⟩
  have hfair : ∀ n t d, (r.upTo roundRobin n).duty? 0 t = some d → ∃ m ≥ n, ∃ now, roundRobin m = .turn now t := by
    intro n t d _
    exact ⟨Nat.pair t n, Nat.right_le_pair t n, ⟨2, 0⟩, by simp [roundRobin]⟩
  have hstop : (r.upTo roundRobin 0).duty? 0 3 = some (.enter (.stop ⟨0⟩)) := rfl
  rcases hdeparts hfair 0 3 _ hstop with ⟨m, -, -, hsettled⟩
  refine ⟨hok, b, hb, hremoved, ?_, m, hsettled _ rfl⟩
  cases hb
  rfl

end Registry

end BoxRegistry

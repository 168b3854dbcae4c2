import BoxRegistry.Proofs.Registry.ProtocolInvariant
import Mathlib.Data.List.Nodup

namespace BoxRegistry

namespace Dealing

variable {slot : Slot} {record : Record} {dealt past before after : List Dealing} {pid : Pid} {x : Dealing}

def isAt (slot : Slot) (x : Dealing) : Bool :=
  x.slot = slot

def concerns (pid : Pid) (x : Dealing) : Bool :=
  x.pid? = some pid

theorem Justified.of_filter (h : x.Justified (past.filter (isAt x.slot))) : x.Justified past := by
  have heased : ∀ {slot task op status pid}, Eased slot task op status pid (past.filter (isAt slot)) →
      Eased slot task op status pid past :=
    fun h => h.mono fun _ hx => (List.mem_filter.mp hx).1
  have hfilter : ∀ slot task,
      (past.filter (isAt slot)).filter (isOf slot task) = past.filter (isOf slot task) := by
    intro slot task
    rw [List.filter_filter]
    apply List.filter_congr
    intro x _
    cases x <;> simp +contextual [isOf, isAt, Dealing.slot]
  cases h with
  | hear => exact .hear
  | release ended => exact .release ended
  | launch => exact .launch
  | wait active => exact .wait active
  | pause => exact .pause
  | resume => exact .resume
  | ease stops => exact .ease stops
  | terminate active eased => exact .terminate active (heased eased)
  | kill active eased unheeded =>
    refine .kill active (heased eased) (unheeded.imp_right ?_)
    rintro ⟨grace, hop, h⟩
    refine ⟨grace, hop, ?_⟩
    rw [← hfilter]
    exact h

theorem Proper.of_filter (h : ∀ slot, Proper (dealt.filter (isAt slot))) : Proper dealt := by
  intro past x rest heq
  apply Justified.of_filter
  apply h x.slot _ x (rest.filter (isAt x.slot))
  simp [heq, isAt]

theorem pid?_of_asks (h : x.Asks slot pid) : x.pid? = some pid := by
  rcases h with ⟨task, op, status, call, bound, rfl, hcall, -⟩
  exact hcall

theorem pid?_of_dealings {asks ending : List Dealing} (hdealings : after.filter (fun x => x.pid?.isSome) = asks ++ ending)
    (hasks : ∀ x ∈ asks, x.Asks slot pid) (hending : ∀ x ∈ ending, x.pid? = some pid) (hx : x ∈ after)
    (hsome : x.pid?.isSome = true)
    : x.pid? = some pid := by
  have hdealt : x ∈ asks ++ ending := hdealings ▸ List.mem_filter.mpr ⟨hx, hsome⟩
  cases List.mem_append.mp hdealt with
  | inl hask => exact pid?_of_asks (hasks x hask)
  | inr hend => exact hending x hend

namespace Life

theorem launched_of_mem (h : Life slot record dealt) (hx : x ∈ dealt) (hpid : x.pid? = some pid)
    : ∃ task order, hear slot task (.launch order) (.launched pid) ∈ dealt := by
  cases h with
  | unlaunched pidless quiet unanswered =>
    rw [(quiet x hx).1] at hpid
    cases hpid
  | @launched before after asks ending task order pid' eq quiet once dealings asked state =>
    have hmem : hear slot task (.launch order) (.launched pid') ∈ dealt := by simp [eq]
    suffices x.pid? = some pid' by
      rw [hpid] at this
      obtain rfl := Option.some.inj this
      exact ⟨task, order, hmem⟩
    rw [eq, List.mem_append, List.mem_cons] at hx
    rcases hx with hx | rfl | hx
    . rw [quiet x hx] at hpid
      cases hpid
    . cases hpid
    . apply pid?_of_dealings dealings asked ?_ hx (by simp [hpid])
      rcases state with ⟨-, rfl⟩ | ⟨-, rfl⟩ <;> simp [Dealing.pid?]

theorem split (h : Life slot record dealt) (hcoherent : record.pid.isSome = record.status.isActive)
    {task : TaskId} {order : LaunchOrder} (heq : dealt = before ++ hear slot task (.launch order) (.launched pid) :: after)
    : (∀ x ∈ before, x.pid? = none) ∧
        ∃ asks, after.filter (fun x => x.pid?.isSome) =
          asks ++ (if record.status.isTerminal then [release slot record.status pid] else []) ∧
          ∀ x ∈ asks, x.Asks slot pid := by
  have hmem : hear slot task (.launch order) (.launched pid) ∈ dealt := by simp [heq]
  cases h with
  | unlaunched pidless quiet unanswered => cases (quiet _ hmem).2
  | launched eq quiet once dealings asked state =>
    -- Only one launch was ever answered, so this is the one.
    rw [heq, eq_comm, List.append_cons_inj_of_notMem] at eq
    . rcases eq with ⟨rfl, hsame, rfl⟩
      cases hsame
      refine ⟨quiet, _, dealings.trans ?_, asked⟩
      rcases state with ⟨hpid, rfl⟩ | ⟨hterminal, rfl⟩
      . rw [hpid] at hcoherent
        rw [Status.isTerminal_of_isActive hcoherent.symm]
        rfl
      . rw [hterminal]
        rfl
    . intro hmem
      cases once _ (List.mem_append_left _ hmem)
    . intro hmem
      cases once _ (List.mem_append_right _ hmem)

theorem quiet_of_failed (h : Life slot record dealt) {task : TaskId} {order : LaunchOrder} {reply : Reply}
    (hmem : hear slot task (.launch order) reply ∈ dealt) (hreply : ∀ pid, reply ≠ .launched pid)
    : ∀ x ∈ dealt, x.pid? = none := by
  cases h with
  | unlaunched pidless quiet unanswered => exact fun x hx => (quiet x hx).1
  | launched eq quiet once dealings asked state =>
    rw [eq, List.mem_append, List.mem_cons] at hmem
    rcases hmem with hmem | heq | hmem
    . cases once _ (List.mem_append_left _ hmem)
    . cases heq
      exact absurd rfl (hreply _)
    . cases once _ (List.mem_append_right _ hmem)

end Life

end Dealing

namespace Registry

open Dealing (Proper)

/--
What passes between the registry and its backend at an event: what the task of the event hears, then what is
said to the backend, in this order.
-/
def dealings (r : Registry) (e : Event) : List Dealing :=
  match e.slot? r with
  | none => []
  | some slot =>
    match r.cell? slot, (r.step e).1.cell? slot with
    | some c, some c' => c.heard r.limits slot e ++ (r.step e).2.filterMap (c'.dealing? slot)
    | _, _ => []

def dealt (r : Registry) : List Event → List Dealing
  | [] => []
  | e :: es => r.dealings e ++ (r.step e).1.dealt es

section Dealt

variable {r : Registry} {slot : Slot} {c : Cell} {e : Event}

theorem dealings_eq (h : r.Tidy) (hc : r.cell? slot = some c) (he : e.slot? r = some slot)
    : r.dealings e = c.dealings r.limits r.nextTask slot e := by
  have hchanges := changes_step h hc he
  simp only [dealings, he, hc, hchanges.1.cell, hchanges.2, Cell.dealings]

theorem Cell.slot_of_mem_dealings {limits : Limits} {fresh : TaskId} {x : Dealing}
    (h : x ∈ c.dealings limits fresh slot e)
    : x.slot = slot := by
  cases List.mem_append.mp h with
  | inl h =>
    cases e with
    | reply now task reply =>
      rcases List.mem_map.mp h with ⟨asked, -, rfl⟩
      rfl
    | _ => cases h
  | inr h =>
    rcases List.mem_filterMap.mp h with ⟨effect, -, heffect⟩
    cases effect <;> cases heffect <;> rfl

theorem Cell.heard_of_slot?_ne (hc : r.cell? slot = some c) (he : e.slot? r ≠ some slot) (limits : Limits)
    : c.heard limits slot e = [] := by
  cases e with
  | reply now task reply => simp [Cell.heard, duty_of_slot?_ne hc he]
  | _ => rfl

theorem filter_dealings (h : r.Tidy) (hc : r.cell? slot = some c) (e : Event)
    : (r.dealings e).filter (Dealing.isAt slot) = c.dealings r.limits r.nextTask slot e := by
  by_cases he : e.slot? r = some slot
  . rw [dealings_eq h hc he, List.filter_eq_self]
    intro x hx
    simp [Dealing.isAt, Cell.slot_of_mem_dealings hx]
  . have hnone : c.dealings r.limits r.nextTask slot e = [] := by
      simp [Cell.dealings, Cell.heard_of_slot?_ne hc he, step_of_slot?_ne hc he]
    rw [hnone, List.filter_eq_nil_iff]
    intro x hx
    rcases r.slot?_cases e with ⟨s, cs, hs, hcs⟩ | hout
    . rw [dealings_eq h hcs hs] at hx
      have hne : s ≠ slot := fun heq => he (by rw [hs, heq])
      simp [Dealing.isAt, Cell.slot_of_mem_dealings hx, hne]
    . unfold dealings at hx
      split at hx
      . cases hx
      . next s hs => simp [cell?_eq_none.mpr (hout s hs)] at hx

theorem filter_dealings_of_none (h : r.Tidy) (hc : r.cell? slot = none) (e : Event)
    : (r.dealings e).filter (Dealing.isAt slot) = [] := by
  rw [List.filter_eq_nil_iff]
  intro x hx
  unfold dealings at hx
  split at hx
  . cases hx
  . next s hs =>
    cases hcs : r.cell? s with
    | none => simp [hcs] at hx
    | some cs =>
      have hne : s ≠ slot := by
        rintro rfl
        rw [hc] at hcs
        cases hcs
      have hx' : x ∈ r.dealings e := by
        simpa only [dealings, hs] using hx
      rw [dealings_eq h hcs hs] at hx'
      simp [Dealing.isAt, Cell.slot_of_mem_dealings hx', hne]

def ConductAt (r : Registry) (slot : Slot) (dealt : List Dealing) : Prop :=
  Tracked (fun _ c noted => c.Conducts slot noted) [] r slot dealt

theorem conductAt_start (limits : Limits) (slot : Slot) : ConductAt { limits } slot [] :=
  tracked_start _ _ limits slot

theorem ConductAt.step {past : List Dealing} (h : r.ConductAt slot past) (e : Event)
    : (r.step e).1.ConductAt slot (past ++ (r.dealings e).filter (Dealing.isAt slot)) := by
  apply Tracked.step h e (Cell.conducts_new slot)
  . intro hc
    rw [filter_dealings_of_none h.tidy hc, List.append_nil]
  . intro c hc hsound hbelow hconducts
    rw [filter_dealings h.tidy hc]
    exact hconducts.step hsound hbelow r.limits e

theorem ConductAt.run {past : List Dealing} (h : r.ConductAt slot past) (es : List Event)
    : (r.after es).ConductAt slot (past ++ (r.dealt es).filter (Dealing.isAt slot)) := by
  induction es generalizing r past with
  | nil => simpa [dealt] using h
  | cons e es ih =>
    simp only [after_cons, dealt, List.filter_append, ← List.append_assoc]
    exact ih (h.step e)

end Dealt

section Protocol

variable {limits : Limits} {es : List Event} {slot : Slot}

theorem conducts_after {x : Dealing} (hx : x ∈ ({ limits } : Registry).dealt es) (hslot : x.slot = slot)
    : ∃ c, (({ limits } : Registry).after es).cell? slot = some c ∧ c.Sound ∧
        c.Conducts slot ((({ limits } : Registry).dealt es).filter (Dealing.isAt slot)) := by
  have hconduct := (conductAt_start limits slot).run es
  rw [List.nil_append] at hconduct
  cases hc : (({ limits } : Registry).after es).cell? slot with
  | some c => exact ⟨c, rfl, hconduct.cell c hc⟩
  | none =>
    have hmem : x ∈ (({ limits } : Registry).dealt es).filter (Dealing.isAt slot) :=
      List.mem_filter.mpr ⟨hx, by simp [Dealing.isAt, hslot]⟩
    rw [hconduct.absent hc] at hmem
    cases hmem

theorem proper_dealt (limits : Limits) (es : List Event) : Proper (({ limits } : Registry).dealt es) := by
  apply Proper.of_filter
  intro slot past x rest heq
  have hmem : x ∈ (({ limits } : Registry).dealt es).filter (Dealing.isAt slot) := by simp [heq]
  rcases List.mem_filter.mp hmem with ⟨hx, hslot⟩
  rcases conducts_after hx (by simpa [Dealing.isAt] using hslot) with ⟨c, -, -, hconducts⟩
  exact hconducts.proper past x rest heq

theorem slot_of_pid {before after : List Dealing} {task : TaskId} {order : LaunchOrder} {pid : Pid}
    (hdistinct : ((({ limits } : Registry).dealt es).filterMap Dealing.launched?).Nodup)
    (heq : ({ limits } : Registry).dealt es = before ++ .hear slot task (.launch order) (.launched pid) :: after)
    {x : Dealing} (hx : x ∈ ({ limits } : Registry).dealt es) (hpid : x.pid? = some pid)
    : x.slot = slot := by
  rcases conducts_after hx rfl with ⟨c, -, -, hconducts⟩
  have hxs : x ∈ (({ limits } : Registry).dealt es).filter (Dealing.isAt x.slot) :=
    List.mem_filter.mpr ⟨hx, by simp [Dealing.isAt]⟩
  rcases hconducts.life.launched_of_mem hxs hpid with ⟨t, o, hlaunch⟩
  have hlaunched := (List.mem_filter.mp hlaunch).1
  have hlast : (Dealing.hear slot task (.launch order) (.launched pid)).launched? = some pid := rfl
  rw [heq, List.filterMap_append, List.filterMap_cons_some hlast, List.nodup_middle, List.nodup_cons,
    ← List.filterMap_append] at hdistinct
  rw [heq, List.mem_append, List.mem_cons] at hlaunched
  have hother : ∀ y, y.launched? = some pid → y ∉ before ++ after :=
    fun y hy hmem => hdistinct.1 (List.mem_filterMap.mpr ⟨y, hmem, hy⟩)
  rcases hlaunched with hbefore | heq | hafter
  . exact absurd (List.mem_append_left _ hbefore) (hother _ rfl)
  . cases heq
    rfl
  . exact absurd (List.mem_append_right _ hafter) (hother _ rfl)

section Said

variable {r : Registry}

def Effect.said? : Effect → Option (Call ⊕ Pid)
  | .call _ call _ => some (.inl call)
  | .release pid => some (.inr pid)
  | .wake _ | .settled .. => none

def Dealing.said? : Dealing → Option (Call ⊕ Pid)
  | .ask _ _ _ _ call _ => some (.inl call)
  | .release _ _ pid => some (.inr pid)
  | .hear .. => none

theorem Cell.said_heard (c : Cell) (limits : Limits) (slot : Slot) (e : Event)
    : (c.heard limits slot e).filterMap Dealing.said? = [] := by
  rw [List.filterMap_eq_nil_iff]
  intro x hx
  cases e with
  | reply now task reply =>
    rcases List.mem_map.mp hx with ⟨asked, -, rfl⟩
    rfl
  | _ => cases hx

theorem said_dealings (h : r.Tidy) (e : Event)
    : (r.dealings e).filterMap Dealing.said? = (r.step e).2.filterMap Effect.said? := by
  rcases r.slot?_cases e with ⟨s, c, he, hc⟩ | hout
  . have hchanges := changes_step h hc he
    simp only [dealings, he, hc, hchanges.1.cell, List.filterMap_append, Cell.said_heard, List.nil_append,
      List.filterMap_filterMap]
    congr 1
    funext effect
    cases effect <;> rfl
  . have hnone : (r.step e).2 = [] := by
      rcases step_of_slot?_out hout with heq | ⟨request, now, clock, chance, rfl⟩
      . rw [heq]
      . simp only [step]
        split <;> rfl
    have hdealings : r.dealings e = [] := by
      unfold dealings
      split
      . rfl
      . next s hs => simp [cell?_eq_none.mpr (hout s hs)]
    rw [hnone, hdealings]
    rfl

def said (r : Registry) : List Event → List (Call ⊕ Pid)
  | [] => []
  | e :: es => (r.step e).2.filterMap Effect.said? ++ (r.step e).1.said es

/--
The dealings of a run leave out nothing that is said to the backend, and keep the order in which it is said.
-/
theorem said_dealt (h : r.Tidy) (es : List Event) : (r.dealt es).filterMap Dealing.said? = r.said es := by
  induction es generalizing r with
  | nil => rfl
  | cons e es ih => rw [dealt, said, List.filterMap_append, said_dealings h, ih (evolves h e).tidy]

end Said

/--
The registry keeps the protocol of its backend, as long as no two launches lead to processes of one number. With a
process nothing is done before it is launched; then there are only such calls as are made while its box is active,
and exactly if the box is over the release of the process, which is the last of it. All that is said to the
backend is justified by what has passed before, and by `said_dealt` the dealings leave none of it out. Where a launch
leads to no process nothing is done with any.
-/
theorem protocol_kept (limits : Limits) (es : List Event)
    (hdistinct : ((({ limits } : Registry).dealt es).filterMap Dealing.launched?).Nodup)
    : (∀ before after slot task order pid,
        ({ limits } : Registry).dealt es = before ++ .hear slot task (.launch order) (.launched pid) :: after →
        before.filter (Dealing.concerns pid) = [] ∧
          ∃ b asks, (({ limits } : Registry).after es).boxes[slot]? = some b ∧
            after.filter (Dealing.concerns pid) =
              asks ++ (if b.record.status.isTerminal then [.release slot b.record.status pid] else []) ∧
            ∀ x ∈ asks, x.Asks slot pid) ∧
      Proper (({ limits } : Registry).dealt es) ∧
      ∀ slot task order reply, .hear slot task (.launch order) reply ∈ ({ limits } : Registry).dealt es →
        (∀ pid, reply ≠ .launched pid) → ∀ x ∈ ({ limits } : Registry).dealt es, x.slot = slot → x.pid? = none := by
  refine ⟨?_, proper_dealt limits es, ?_⟩
  . intro before after slot task order pid heq
    have hslot : ∀ x ∈ ({ limits } : Registry).dealt es, x.pid? = some pid → x.slot = slot :=
      fun x hx hpid => slot_of_pid hdistinct heq hx hpid
    have hlaunch : .hear slot task (.launch order) (.launched pid) ∈ ({ limits } : Registry).dealt es := by
      simp [heq]
    have hhere : (Dealing.hear slot task (.launch order) (.launched pid)).slot = slot := rfl
    rcases conducts_after hlaunch hhere with ⟨c, hc, hsound, hconducts⟩
    have hsplit : (({ limits } : Registry).dealt es).filter (Dealing.isAt slot) =
        before.filter (Dealing.isAt slot) ++
          .hear slot task (.launch order) (.launched pid) :: after.filter (Dealing.isAt slot) := by
      simp [heq, Dealing.isAt, Dealing.slot]
    rcases hconducts.life.split hsound.coherent.process hsplit with ⟨hbefore, asks, hafter, hasks⟩
    refine ⟨?_, c.box, asks, (cell?_eq_some.mp hc).1, ?_, hasks⟩
    . rw [List.filter_eq_nil_iff]
      intro x hx hconcerns
      have hpid : x.pid? = some pid := by simpa [Dealing.concerns] using hconcerns
      have hxslot := hslot x (heq ▸ List.mem_append_left _ hx) hpid
      rw [hbefore x (List.mem_filter.mpr ⟨hx, by simp [Dealing.isAt, hxslot]⟩)] at hpid
      cases hpid
    . rw [← hafter, List.filter_filter]
      apply List.filter_congr
      intro x hx
      rw [Bool.eq_iff_iff]
      simp only [Dealing.concerns, Dealing.isAt, decide_eq_true_eq, Bool.and_eq_true]
      constructor
      . intro hpid
        exact ⟨by simp [hpid], hslot x (heq ▸ List.mem_append_right _ (List.mem_cons_of_mem _ hx)) hpid⟩
      . rintro ⟨hsome, hxslot⟩
        apply Dealing.pid?_of_dealings hafter hasks ?_ (List.mem_filter.mpr ⟨hx, by simp [Dealing.isAt, hxslot]⟩) hsome
        split <;> simp [Dealing.pid?]
  . intro slot task order reply hmem hreply x hx hslot
    rcases conducts_after hx hslot with ⟨c, -, -, hconducts⟩
    exact hconducts.life.quiet_of_failed (List.mem_filter.mpr ⟨hmem, by simp [Dealing.isAt, Dealing.slot]⟩) hreply x
      (List.mem_filter.mpr ⟨hx, by simp [Dealing.isAt, hslot]⟩)

def suspendAndStop : List Event :=
  [.create { image := "alpine" } ⟨0, 0⟩ 1 0, .begin 0 .start, .turn ⟨0, 0⟩ 0, .reply ⟨0, 0⟩ 0 (.launched 7),
    .turn ⟨0, 0⟩ 1, .begin 0 .pause, .turn ⟨1, 0⟩ 2, .reply ⟨1, 0⟩ 2 .done, .begin 0 (.stop ⟨5000000000⟩),
    .turn ⟨2, 0⟩ 3, .reply ⟨2, 0⟩ 3 .done, .reply ⟨2, 0⟩ 3 .done, .reply ⟨7, 0⟩ 3 .late, .reply ⟨7, 0⟩ 3 .done,
    .reply ⟨7, 0⟩ 3 (.ended (.signaled 9))]

theorem protocol_kept_suspendAndStop
    : let dealt := ({} : Registry).dealt suspendAndStop
      (dealt.filterMap Dealing.launched?).Nodup ∧ Proper dealt ∧
        ∃ b asks, (({} : Registry).after suspendAndStop).boxes[0]? = some b ∧ b.record.status = .stopped ∧
          (dealt.drop 2).filter (Dealing.concerns 7) = asks ++ [.release 0 .stopped 7] ∧ asks.length = 7 ∧
          ∀ x ∈ asks, x.Asks 0 7 := by
  intro dealt
  have hdistinct : (dealt.filterMap Dealing.launched?).Nodup := by
    rw [show dealt.filterMap Dealing.launched? = [7] from rfl]
    exact List.nodup_singleton 7
  have h := protocol_kept {} suspendAndStop hdistinct
  rcases (h.1 (dealt.take 1) (dealt.drop 2) 0 0 _ 7 rfl).2 with ⟨b, asks, hb, hasks, hactive⟩
  cases hb
  refine ⟨hdistinct, h.2.1, _, asks, rfl, rfl, hasks, ?_, hactive⟩
  have hlength := congrArg List.length hasks
  rw [List.length_append] at hlength
  exact Nat.add_right_cancel (hlength.symm.trans rfl)

end Protocol

end Registry

end BoxRegistry

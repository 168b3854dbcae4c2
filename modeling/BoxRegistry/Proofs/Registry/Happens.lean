import BoxRegistry.Proofs.Registry.Serial

namespace BoxRegistry

open Time (Moment)

def Deed.released? : Deed → Option Pid
  | release pid => some pid
  | count _ | watch _ | disarm | unlist => none

namespace Cell

def deedsOfTurn (c : Cell) (now : Moment) (task : TaskId) : List Deed :=
  if (c.box.claim task).1 then
    match c.duty task with
    | some (.enter op) => (op.enter (c.box.claim task).2).deeds
    | some (.notice pid result) => ((c.box.claim task).2.noticeEnd now task pid result).2
    | some (.work ..) | some (.post _) | some (.watch _) | none => []
  else []

def deeds (c : Cell) (limits : Limits) : Registry.Event → List Deed
  | .turn now task => c.deedsOfTurn now task
  | .reply now task reply =>
    match c.duty task with
    | some (.work op stage) => (op.proceed limits now c.box stage reply).deeds
    | some (.watch pid) =>
      match reply with
      | .panicked _ => []
      | _ => (c.assign task (.notice pid reply.ending)).deedsOfTurn now task
    | some (.enter _) | some (.post _) | some (.notice ..) | none => []
  | .create .. | .begin .. | .describe .. => []

inductive Happens (c : Cell) (limits : Limits) (fresh : TaskId) :
    Registry.Event → Cell × List Effect → List Deed → Prop where
  | aside {e : Registry.Event} {c' : Cell} {effects : List Effect} (untouched : c.box.Untouched c'.box)
    (works : ∀ t op stage, c'.duty t = some (.work op stage) ↔ c.duty t = some (.work op stage))
    (wakes : ∀ effect ∈ effects, ∃ t, effect = .wake t)
    (other : ∀ now task reply op stage, e = .reply now task reply → c.duty task ≠ some (.work op stage)) :
    Happens c limits fresh e (c', effects) []
  | posts {now : Moment} {task : TaskId} {pid : Pid} (duty : c.duty task = some (.post pid)) :
    Happens c limits fresh (.turn now task)
      (c.assign task (.watch pid), [.call task (.wait pid) .unlimited]) []
  | enters {now : Moment} {task : TaskId} {op : Operation} {c₁ : Cell} (duty : c.duty task = some (.enter op))
    (claimed : (c.box.claim task).1 = true) (eq : c₁ = { c with box := (c.box.claim task).2 })
    (orderly : c₁.Orderly) (holder : c₁.box.holder = some task) :
    Happens c limits fresh (.turn now task) (c₁.apply limits fresh task op (op.enter c₁.box))
      (op.enter c₁.box).deeds
  | proceeds {now : Moment} {task : TaskId} {reply : Reply} {op : Operation} {stage : Stage}
    (duty : c.duty task = some (.work op stage)) :
    Happens c limits fresh (.reply now task reply)
      (c.apply limits fresh task op (op.proceed limits now c.box stage reply))
      (op.proceed limits now c.box stage reply).deeds
  | reports {e : Registry.Event} {now : Moment} {task : TaskId} {d : Duty} {pid : Pid}
    {result : Except Fault ProcessEnd} {c₁ : Cell} (duty : c.duty task = some d)
    (contends : d.Contends (.notice pid result)) (claimed : (c.box.claim task).1 = true)
    (eq : c₁ = { c.assign task (.notice pid result) with box := (c.box.claim task).2 })
    (orderly : c₁.Orderly) (holder : c₁.box.holder = some task)
    (learns : e = .turn now task ∧ d = .notice pid result ∨ ∃ reply, e = .reply now task reply ∧ d = .watch pid) :
    Happens c limits fresh e (c₁.notice fresh now task pid result)
      (c₁.box.noticeEnd now task pid result).2

variable {c : Cell} {limits : Limits} {slot : Slot} {now : Moment} {task fresh : TaskId} {e : Registry.Event}

section Happens

theorem works_assign {d : Duty} (h : ∀ op stage, c.duty task ≠ some (.work op stage))
    (hd : ∀ op stage, d ≠ .work op stage) (t : TaskId) (op : Operation) (stage : Stage)
    : (c.assign task d).duty t = some (.work op stage) ↔ c.duty t = some (.work op stage) := by
  rw [duty_assign]
  split
  . next heq =>
    subst heq
    simp [h op stage, hd op stage]
  . rfl

theorem not_work_of_contends {d : Duty} {pid : Pid} {result : Except Fault ProcessEnd} (hduty : c.duty task = some d)
    (hd : d.Contends (.notice pid result)) (op : Operation) (stage : Stage)
    : c.duty task ≠ some (.work op stage) := by
  intro hwork
  rw [hduty] at hwork
  cases hwork
  rcases hd.2 with heq | ⟨pid', result', heq, -⟩ <;> cases heq

theorem not_work_of_learns {e : Registry.Event} {now : Moment} {d : Duty} {pid : Pid}
    {result : Except Fault ProcessEnd} (hduty : c.duty task = some d) (hd : d.Contends (.notice pid result))
    (hlearns : e = .turn now task ∧ d = .notice pid result ∨ ∃ reply, e = .reply now task reply ∧ d = .watch pid)
    : ∀ now' task' reply op stage, e = .reply now' task' reply → c.duty task' ≠ some (.work op stage) := by
  rintro now' task' reply op stage rfl
  rcases hlearns with ⟨heq, -⟩ | ⟨reply', heq, -⟩ <;> cases heq
  exact not_work_of_contends hduty hd op stage

theorem deeds_of_rests (h : c.Rests slot e) (limits : Limits) : c.deeds limits e = [] := by
  cases h with
  | @turn now task waits =>
    simp only [deeds, deedsOfTurn]
    cases hduty : c.duty task with
    | none => exact ite_self []
    | some d => cases d <;> first | exact ite_self [] | cases waits _ hduty
  | @reply now task reply idle =>
    simp only [deeds]
    cases hduty : c.duty task with
    | none => rfl
    | some d => cases d <;> first | rfl | cases idle _ hduty
  | _ => rfl

theorem deeds_of_unclaimed {d : Duty} (h : c.Arrives now task e d) (hclaim : (c.box.claim task).1 = false)
    (limits : Limits)
    : c.deeds limits e = [] := by
  cases h with
  | turn duty contends => simp [deeds, deedsOfTurn, hclaim]
  | @reply pid reply duty whole =>
    cases reply with
    | panicked message => exact absurd rfl (whole message)
    | _ => simp [deeds, deedsOfTurn, assign, duty, hclaim]

theorem deeds_of_reports {pid : Pid} {result : Except Fault ProcessEnd} (h : c.Arrives now task e (.notice pid result))
    (hclaim : (c.box.claim task).1 = true) (limits : Limits)
    : c.deeds limits e = ((c.box.claim task).2.noticeEnd now task pid result).2 := by
  cases h with
  | turn duty contends => simp [deeds, deedsOfTurn, duty, hclaim]
  | @reply pid reply duty whole =>
    cases reply with
    | panicked message => exact absurd rfl (whole message)
    | _ => simp [deeds, deedsOfTurn, assign, duty, hclaim]

theorem Sound.happens (h : c.Sound) (hbelow : c.Below fresh) (limits : Limits) (slot : Slot)
    (e : Registry.Event)
    : c.Happens limits fresh e (c.step limits fresh slot e) (c.deeds limits e) := by
  have hsteps := c.steps limits fresh slot e
  generalize c.step limits fresh slot e = out at hsteps
  cases hsteps with
  | rests rests =>
    rw [deeds_of_rests rests]
    exact .aside (.refl _) (fun _ _ _ => .rfl) (by simp) fun _ _ _ _ _ he => rests.not_work he _ _
  | begins op =>
    exact .aside (.refl _) (works_assign (by simp [hbelow.fresh]) (by simp)) (by simp) (by simp)
  | posts duty =>
    simp only [deeds, deedsOfTurn, duty, ite_self]
    exact .posts duty
  | @queues e now task d arrives unclaimed =>
    rw [deeds_of_unclaimed arrives unclaimed]
    exact .aside (c.box.untouched_claim task) (works_assign arrives.not_work_self arrives.ne_work) (by simp)
      fun _ _ _ _ _ he => arrives.not_work he _ _
  | enters duty claimed =>
    rcases h.claim_enter duty claimed with ⟨horderly, hholder⟩
    simp only [deeds, deedsOfTurn, duty, claimed, if_true]
    exact .enters duty claimed rfl horderly hholder
  | proceeds duty =>
    simp only [deeds, duty]
    exact .proceeds duty
  | @reports e now task pid result arrives claimed =>
    rcases h.claim_arrives arrives claimed with ⟨horderly, hholder⟩
    rw [deeds_of_reports arrives claimed]
    cases arrives with
    | turn duty contends => exact .reports duty ⟨rfl, .inl rfl⟩ claimed rfl horderly hholder (.inl ⟨rfl, rfl⟩)
    | reply duty whole =>
      exact .reports duty ⟨rfl, .inr ⟨_, _, rfl, rfl⟩⟩ claimed rfl horderly hholder (.inr ⟨_, rfl, rfl⟩)
  | @quits now task pid message duty =>
    simp only [deeds, duty]
    refine .aside (.refl _) ?_ (by simp) ?_
    . intro t op stage
      by_cases heq : t = task
      . simp [dropTask, heq, duty]
      . simp [dropTask, heq]
    . rintro _ _ _ op stage heq
      cases heq
      simp [duty]
  | samples sampled => exact .aside ⟨rfl, rfl, rfl, rfl⟩ (fun _ _ _ => .rfl) (by simp) (by simp)

end Happens

section Effects

variable {β : Type} {f : Effect → Option β}

theorem filterMap_wakes {effects : List Effect} (h : ∀ effect ∈ effects, ∃ t, effect = .wake t)
    (hwake : ∀ t, f (.wake t) = none)
    : effects.filterMap f = [] := by
  rw [List.filterMap_eq_nil_iff]
  intro effect heffect
  rcases h effect heffect with ⟨t, rfl⟩
  exact hwake t

theorem filterMap_performAll (c : Cell) (fresh : TaskId) (deeds : List Deed) (hwake : ∀ t, f (.wake t) = none)
    : (c.performAll fresh deeds).2.filterMap f =
      (deeds.filterMap Deed.released?).filterMap fun pid => f (.release pid) := by
  induction deeds generalizing c fresh with
  | nil => rfl
  | cons deed deeds ih =>
    simp only [performAll, List.filterMap_append, ih]
    cases deed <;> simp [Deed.effects, Deed.released?, hwake, List.filterMap_cons]
    split <;> rfl

theorem filterMap_leave (c : Cell) (task : TaskId) (hwake : ∀ t, f (.wake t) = none)
    : (c.leave task).2.filterMap f = [] := by
  simp only [leave]
  cases c.box.handOver.holder <;> simp [hwake]

theorem filterMap_apply (c : Cell) (limits : Limits) (fresh task : TaskId) (op : Operation) (m : Move)
    (hwake : ∀ t, f (.wake t) = none) (hsettled : ∀ t result, f (.settled t result) = none)
    : (c.apply limits fresh task op m).2.filterMap f =
      (m.deeds.filterMap Deed.released?).filterMap (fun pid => f (.release pid)) ++
        match m.next with
        | .wait stage => (f (.call task (stage.call m.box.spec) (stage.bound limits))).toList
        | .finish _ | .crash _ => [] := by
  unfold apply
  dsimp only
  cases m.next with
  | wait stage =>
    simp only [List.filterMap_append, filterMap_performAll _ _ _ hwake]
    cases hf : f (.call task (stage.call m.box.spec) (stage.bound limits)) <;> simp [hf]
  | finish result =>
    simp [List.filterMap_append, filterMap_performAll _ _ _ hwake, filterMap_leave _ _ hwake, hsettled]
  | crash message =>
    simp [List.filterMap_append, filterMap_performAll _ _ _ hwake, filterMap_leave _ _ hwake, hsettled]

theorem filterMap_notice (c : Cell) (fresh : TaskId) (now : Moment) (task : TaskId) (pid : Pid)
    (result : Except Fault ProcessEnd) (hwake : ∀ t, f (.wake t) = none)
    : (c.notice fresh now task pid result).2.filterMap f =
      ((c.box.noticeEnd now task pid result).2.filterMap Deed.released?).filterMap fun pid => f (.release pid) := by
  simp [notice, filterMap_performAll _ _ _ hwake, filterMap_leave _ _ hwake]

end Effects

end Cell

end BoxRegistry

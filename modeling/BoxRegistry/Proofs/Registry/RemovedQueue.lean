import BoxRegistry.Proofs.Registry.Protocol
import BoxRegistry.Proofs.Registry.Stops
import BoxRegistry.Proofs.Registry.TableLock

/-!
This module contains the line of a box that was removed. Tasks that had found the box before may still stand in
it. They leave one after the other, and nothing comes of them but that those that were to carry out an operation
tell that they have not found the box.
-/

namespace BoxRegistry

open Time (Moment)

theorem Operation.Moves.removed {force : Bool} {b : Box} {origin : Option Stage} {m : Move}
    (h : (Operation.remove force).Moves b origin m) (hnext : m.next = .finish (.ok ()))
    : m.box.removed = true := by
  cases h with
  | stopAndRemove removes runs unwatched stopped process ends => rfl
  | remove removes inactive listed => rfl
  | launch start created listed running process => cases start
  | turnOver runs active process turns => rcases turns with ⟨heq, -⟩ | ⟨heq, -⟩ <;> cases heq
  | stop stops runs unwatched stopped process ends => cases stops
  | _ => cases hnext

theorem Operation.commits_of_removed (op : Operation) {b : Box} (h : b.removed = true) : op.commits b = false := by
  cases op with
  | remove force => cases force <;> simp [commits, h]
  | _ => rfl

theorem Stage.Fits.listed {stage : Stage} {op : Operation} {b : Box} (h : stage.Fits op b) : b.removed = false := by
  cases stage with
  | launching => exact h.2.2
  | pausing pid => exact h.2.2.listed
  | resuming pid => exact h.2.2.listed
  | _ => exact h.2.1.listed

namespace Cell

variable {c : Cell} {limits : Limits} {fresh task : TaskId} {slot : Slot} {e : Registry.Event}

theorem finish_of_settled {op : Operation} {m : Move} {result : Except Fault Unit}
    (h : .settled task result ∈ (c.apply limits fresh task op m).2) (hresult : result = .ok ())
    : m.next = .finish result := by
  have hmem : (task, result) ∈ (c.apply limits fresh task op m).2.filterMap Effect.result? :=
    List.mem_filterMap.mpr ⟨_, h, rfl⟩
  rw [c.results_apply limits fresh task op m 0 []] at hmem
  cases hnext : m.next with
  | wait stage =>
    rw [hnext] at hmem
    cases hmem
  | finish result' =>
    rw [hnext] at hmem
    cases List.mem_singleton.mp hmem
    rfl
  | crash message =>
    rw [hnext] at hmem
    cases List.mem_singleton.mp hmem
    cases hresult

theorem Happens.removed {out : Cell × List Effect} {deeds : List Deed} (h : c.Happens limits fresh e out deeds)
    (hsound : c.Sound) {d : Duty} {force : Bool} (hduty : c.duty task = some d) (hop : d.op? = some (.remove force))
    (hsettled : .settled task (.ok ()) ∈ out.2)
    : out.1.box.removed = true := by
  cases h with
  | aside untouched works wakes other =>
    rcases wakes _ hsettled with ⟨t, heq⟩
    cases heq
  | posts duty => cases List.mem_singleton.mp hsettled
  | enters duty claimed eq orderly holder =>
    obtain ⟨rfl, -⟩ := settled_apply hsettled
    rw [hduty] at duty
    cases duty
    cases hop
    rw [(box_apply ..).2.2]
    exact (Operation.moves_enter _ _).removed (finish_of_settled hsettled rfl)
  | proceeds duty =>
    obtain ⟨rfl, -⟩ := settled_apply hsettled
    rw [hduty] at duty
    cases duty
    cases hop
    rw [(box_apply ..).2.2]
    exact (Operation.moves_proceed (hsound.fits _ _ _ hduty) _ _ _).removed (finish_of_settled hsettled rfl)
  | reports duty contends claimed eq orderly holder learns =>
    cases not_settled_notice _ _ _ _ _ _ hsettled

theorem Sound.contends_of_removed (h : c.Sound) (hremoved : c.box.removed = true) {d : Duty}
    (hduty : c.duty task = some d)
    : d.contends = true := by
  have hwatch := h.watch_eq_none (h.coherent.removed hremoved)
  cases d with
  | enter op => rfl
  | notice pid result => rfl
  | work op stage =>
    have hlisted := (h.fits task op stage hduty).listed
    rw [hremoved] at hlisted
    cases hlisted
  | post pid => simp [h.vigil task _ hduty rfl] at hwatch
  | watch pid => simp [h.vigil task _ hduty rfl] at hwatch

def farewell (spec : Spec) (task : TaskId) : Duty → List Effect
  | .enter _ => [.settled task (.error (.notFound spec.id.text))]
  | .work .. | .post _ | .watch _ | .notice .. => []

theorem turn_of_removed (hremoved : c.box.removed = true) {d : Duty} (hduty : c.duty task = some d)
    (hd : d.contends = true) (limits : Limits) (fresh : TaskId) (now : Moment)
    : c.turn limits fresh now task =
      c.withBox task fun c' => ((c'.leave task).1, (c'.leave task).2 ++ farewell c.box.spec task d) := by
  have hclaim : (c.box.claim task).2.removed = true := by
    rw [(c.box.untouched_claim task).removed, hremoved]
  cases d with
  | enter op =>
    simp only [turn, hduty, withBox]
    split
    . have hrefuse : op.enter (c.box.claim task).2 =
          (c.box.claim task).2.refuse (.notFound c.box.spec.id.text) := by
        simp [Operation.enter, hclaim, (c.box.untouched_claim task).spec]
      rw [hrefuse]
      rfl
    . rfl
  | notice pid result =>
    simp only [turn, hduty, withBox]
    split
    . have hheeds : (c.box.claim task).2.heeds task = false := by simp [Box.heeds, hclaim]
      simp only [notice, Box.box_noticeEnd hheeds, farewell, List.append_nil]
      rfl
    . rfl
  | _ => cases hd

def line (c : Cell) : List TaskId :=
  c.box.holder.toList ++ c.box.queue

theorem line_leave (c : Cell) (task : TaskId) : (c.leave task).1.line = c.box.queue := by
  simp only [line, leave, dropTask, Box.handOver]
  cases c.box.queue <;> rfl

/--
What can become of the line of a box that was removed. All stay where they are, and maybe one takes its place at
the end, or else the first in line leaves. Nothing else comes of it but that tasks have something to do.
-/
inductive Recedes (c : Cell) (e : Registry.Event) (out : Cell × List Effect) : Prop where
  | stays (line : c.line <+: out.1.line) (duty : ∀ t d, c.duty t = some d → out.1.duty t = some d)
    (turn : ∀ now t d, e = .turn now t → c.duty t = some d → t ∈ out.1.line ∧ t ∉ c.line.head?)
    (wakes : ∀ effect ∈ out.2, ∃ t, effect = .wake t) :
    Recedes c e out
  | leaves {now : Moment} {t : TaskId} {d : Duty} (woken : List Effect) (turn : e = .turn now t)
    (has : c.duty t = some d) (first : ∀ u ∈ c.line.head?, u = t) (line : out.1.line = c.line.tail)
    (gone : out.1.duty t = none) (duty : ∀ u d, u ≠ t → c.duty u = some d → out.1.duty u = some d)
    (effects : out.2 = woken ++ farewell c.box.spec t d) (wakes : ∀ effect ∈ woken, ∃ u, effect = .wake u) :
    Recedes c e out

theorem recedes_same (heffects : ∀ now t, e ≠ .turn now t) : c.Recedes e (c, []) :=
  .stays (List.prefix_refl _) (fun _ _ h => h) (fun now t _ heq => absurd heq (heffects now t)) (by simp)

theorem Sound.line_claim_held (h : c.Sound) (hheld : (c.box.claim task).1 = true)
    : (∀ u ∈ c.line.head?, u = task) ∧ (c.box.claim task).2.queue = c.line.tail := by
  have hclaims := c.box.claims task
  generalize c.box.claim task = out at hclaims hheld
  cases hclaims with
  | free idle => simp [line, idle, h.idle idle]
  | own held => simp [line, held]
  | again held another waits => cases hheld
  | line held another arrives => cases hheld

theorem line_claim_aside (hheld : (c.box.claim task).1 = false)
    : let c' : Cell := { c with box := (c.box.claim task).2 }
      c.line <+: c'.line ∧ task ∈ c'.line ∧ task ∉ c.line.head? := by
  have hclaims := c.box.claims task
  generalize c.box.claim task = out at hclaims hheld
  cases hclaims with
  | free idle => cases hheld
  | own held => cases hheld
  | again held another waits => simp [line, held, another, waits]
  | line held another arrives => simp [line, held, another]

theorem Sound.recedes_turn (h : c.Sound) (hremoved : c.box.removed = true) (limits : Limits) (fresh : TaskId)
    (now : Moment) (task : TaskId)
    : c.Recedes (.turn now task) (c.turn limits fresh now task) := by
  cases hduty : c.duty task with
  | none =>
    simp only [Cell.turn, hduty]
    refine .stays (List.prefix_refl c.line) (fun _ _ h => h) ?_ (by simp)
    rintro now' t d heq hd
    cases heq
    rw [hduty] at hd
    cases hd
  | some d =>
    rw [turn_of_removed hremoved hduty (h.contends_of_removed hremoved hduty)]
    cases hheld : (c.box.claim task).1 with
    | true =>
      have hline := h.line_claim_held hheld
      rw [withBox_held hheld]
      apply Recedes.leaves _ rfl hduty hline.1
      . rw [line_leave]
        exact hline.2
      . exact duty_leave_self _ task
      . exact fun u d hne hd => kept_leave hd hne
      . rfl
      . simp [leave]
    | false =>
      have hline := line_claim_aside hheld
      rw [withBox_aside hheld]
      refine .stays hline.1 (fun _ _ h => h) ?_ (by simp)
      rintro now' t d' heq -
      cases heq
      exact hline.2

theorem Sound.recedes (h : c.Sound) (hbelow : c.Below fresh) (hremoved : c.box.removed = true) (limits : Limits)
    (slot : Slot) (e : Registry.Event)
    : c.Recedes e (c.step limits fresh slot e) := by
  cases e with
  | create request now clock chance => exact recedes_same (by simp)
  | begin s op =>
    simp only [Cell.step]
    split
    . refine .stays ?_ ?_ (by simp) (by simp)
      . exact List.prefix_refl _
      intro t d hd
      rw [duty_assign, if_neg, hd]
      rintro rfl
      rw [hbelow.fresh] at hd
      cases hd
    . exact recedes_same (by simp)
  | turn now task => exact h.recedes_turn hremoved limits fresh now task
  | reply now task reply =>
    have hnone : c.step limits fresh slot (.reply now task reply) = (c, []) := by
      simp only [Cell.step, Cell.reply]
      cases hduty : c.duty task with
      | none => rfl
      | some d =>
        have hd := h.contends_of_removed hremoved hduty
        cases d <;> first | rfl | cases hd
    rw [hnone]
    exact recedes_same (by simp)
  | describe s record reading =>
    simp only [Cell.step]
    split
    . refine .stays ?_ (fun _ _ h => h) (by simp) (by simp)
      exact List.prefix_refl _
    . exact recedes_same (by simp)

theorem Sound.commits_of_removed (h : c.Sound) (hremoved : c.box.removed = true) (e : Registry.Event)
    : c.commits e = false := by
  cases e with
  | turn now task =>
    simp only [commits]
    cases c.duty task with
    | none => rfl
    | some d =>
      cases d with
      | enter op =>
        dsimp only
        rw [Operation.commits_of_removed op hremoved, Bool.and_false]
      | notice pid result => simp [Box.heeds, hremoved]
      | _ => rfl
  | reply now task reply =>
    simp only [commits]
    cases hduty : c.duty task with
    | none => rfl
    | some d =>
      have hd := h.contends_of_removed hremoved hduty
      cases d <;> first | rfl | cases hd
  | _ => rfl

theorem deedsOfTurn_of_removed (hremoved : c.box.removed = true) (now : Moment) (task : TaskId)
    : c.deedsOfTurn now task = [] := by
  have hclaim : (c.box.claim task).2.removed = true := by
    rw [(c.box.untouched_claim task).removed, hremoved]
  unfold deedsOfTurn
  split
  . cases c.duty task with
    | none => rfl
    | some d =>
      cases d with
      | enter op => simp [Operation.enter, hclaim, Box.refuse]
      | notice pid result =>
        dsimp only
        rw [Box.box_noticeEnd]
        simp [Box.heeds, hclaim]
      | _ => rfl
  . rfl

theorem Sound.deeds_of_removed (h : c.Sound) (hremoved : c.box.removed = true) (limits : Limits)
    (e : Registry.Event)
    : c.deeds limits e = [] := by
  cases e with
  | turn now task => exact deedsOfTurn_of_removed hremoved now task
  | reply now task reply =>
    simp only [deeds]
    cases hduty : c.duty task with
    | none => rfl
    | some d =>
      have hd := h.contends_of_removed hremoved hduty
      cases d <;> first | rfl | cases hd
  | _ => rfl

theorem Sound.heard_of_removed (h : c.Sound) (hremoved : c.box.removed = true) (limits : Limits) (slot : Slot)
    (e : Registry.Event)
    : c.heard limits slot e = [] := by
  cases e with
  | reply now task reply =>
    simp only [heard]
    cases hduty : c.duty task with
    | none => rfl
    | some d =>
      have hd := h.contends_of_removed hremoved hduty
      cases d <;> first | rfl | cases hd
  | _ => rfl

theorem Recedes.idle {out : Cell × List Effect} (h : c.Recedes e out)
    : ∀ effect ∈ out.2, (∃ t, effect = .wake t) ∨
        ∃ t op, c.duty t = some (.enter op) ∧ effect = .settled t (.error (.notFound c.box.spec.id.text)) := by
  intro effect heffect
  cases h with
  | stays line duty turn wakes => exact .inl (wakes effect heffect)
  | leaves woken turn has first line gone duty effects wakes =>
    rw [effects] at heffect
    rcases List.mem_append.mp heffect with hwoken | hlast
    . exact .inl (wakes effect hwoken)
    . rename_i t d
      cases d with
      | enter op => exact .inr ⟨t, op, has, List.mem_singleton.mp hlast⟩
      | _ => cases hlast

theorem Recedes.dealings {c' : Cell} {out : Cell × List Effect} (h : c.Recedes e out) (slot : Slot)
    : out.2.filterMap (c'.dealing? slot) = [] := by
  rw [List.filterMap_eq_nil_iff]
  intro effect heffect
  rcases h.idle effect heffect with ⟨t, rfl⟩ | ⟨t, op, -, rfl⟩ <;> rfl

section Dwindles

variable {cells : Nat → Cell} {later : Nat → Registry.Event} {effects : Nat → List Effect} {t u : TaskId} {d : Duty}

structure Dwindles (cells : Nat → Cell) (later : Nat → Registry.Event) (effects : Nat → List Effect) : Prop where
  recedes : ∀ n, (cells n).Recedes (later n) (cells (n + 1), effects n)
  lined : ∀ n, ∀ t ∈ (cells n).line, ∃ d, (cells n).duty t = some d
  fair : ∀ n t d, (cells n).duty t = some d → ∃ m ≥ n, ∃ now, later m = .turn now t

def Departs (cells : Nat → Cell) (effects : Nat → List Effect) (t : TaskId) (d : Duty) (n : Nat) : Prop :=
  ∃ m ≥ n, (cells (m + 1)).duty t = none ∧ ∃ woken, effects m = woken ++ farewell (cells m).box.spec t d

theorem Departs.mono {n m : Nat} (h : Departs cells effects t d m) (hle : n ≤ m) : Departs cells effects t d n := by
  rcases h with ⟨k, hk, hgone⟩
  exact ⟨k, Nat.le_trans hle hk, hgone⟩

namespace Dwindles

theorem head_turn (h : Dwindles cells later effects) {n : Nat} {rest : List TaskId} (hline : (cells n).line = u :: rest)
    (hduty : (cells n).duty u = some d) {m : Nat} {now : Moment} (hle : n ≤ m) (hturn : later m = .turn now u)
    : ∃ k ≥ n, ((cells (k + 1)).duty u = none ∧ ∃ woken, effects k = woken ++ farewell (cells k).box.spec u d) ∧
        rest <+: (cells (k + 1)).line ∧
        ∀ t d, t ≠ u → (cells n).duty t = some d → (cells (k + 1)).duty t = some d := by
  cases h.recedes n with
  | leaves woken turn has first line gone duty effects wakes =>
    obtain rfl := first u (by simp [hline])
    rw [hduty] at has
    obtain rfl := Option.some.inj has
    refine ⟨n, Nat.le_refl n, ⟨gone, woken, effects⟩, ?_, duty⟩
    rw [line, hline]
    exact List.prefix_refl rest
  | stays line duty turn wakes =>
    have hne : n ≠ m := by
      rintro rfl
      have hnot := (turn now u d hturn hduty).2
      simp [hline] at hnot
    have hlt : n < m := Nat.lt_of_le_of_ne hle hne
    rw [hline] at line
    rcases line with ⟨more, hmore⟩
    rcases h.head_turn hmore.symm (duty u d hduty) hlt hturn with ⟨k, hk, hgone, hrest, hkept⟩
    refine ⟨k, Nat.le_of_succ_le hk, hgone, (List.prefix_append rest more).trans hrest, ?_⟩
    intro t d' hne hd
    exact hkept t d' hne (duty t d' hd)
termination_by m - n

theorem departs_of_lined (h : Dwindles cells later effects) {n : Nat} {before rest : List TaskId}
    (hline : (cells n).line = before ++ t :: rest) (hduty : (cells n).duty t = some d)
    : Departs cells effects t d n := by
  induction before generalizing n rest with
  | nil =>
    rcases h.fair n t d hduty with ⟨m, hm, now, hturn⟩
    rcases h.head_turn hline hduty hm hturn with ⟨k, hk, hgone, -, -⟩
    exact ⟨k, hk, hgone⟩
  | cons u before ih =>
    rcases h.lined n u (by simp [hline]) with ⟨d', hd'⟩
    rcases h.fair n u d' hd' with ⟨m, hm, now, hturn⟩
    rcases h.head_turn hline hd' hm hturn with ⟨k, hk, hgone, ⟨more, hmore⟩, hkept⟩
    by_cases htu : t = u
    . subst htu
      rw [hduty] at hd'
      obtain rfl := Option.some.inj hd'
      exact ⟨k, hk, hgone⟩
    . have hnext : (cells (k + 1)).line = before ++ t :: (rest ++ more) := by simp [← hmore]
      exact (ih hnext (hkept t d htu hduty)).mono (Nat.le_succ_of_le hk)

theorem departs_at (h : Dwindles cells later effects) {n : Nat} (hduty : (cells n).duty t = some d) {m : Nat} {now : Moment}
    (hle : n ≤ m) (hturn : later m = .turn now t)
    : Departs cells effects t d n := by
  cases h.recedes n with
  | leaves woken turn has first line gone duty effects wakes =>
    rename_i now' u d'
    by_cases htu : t = u
    . subst htu
      rw [hduty] at has
      obtain rfl := Option.some.inj has
      exact ⟨n, Nat.le_refl n, gone, woken, effects⟩
    . have hne : n ≠ m := by
        rintro rfl
        rw [hturn] at turn
        cases turn
        exact htu rfl
      have hlt : n < m := Nat.lt_of_le_of_ne hle hne
      exact (h.departs_at (duty t d htu hduty) hlt hturn).mono (Nat.le_succ n)
  | stays line duty turn wakes =>
    by_cases heq : n = m
    . subst heq
      rcases List.append_of_mem (turn now t d hturn hduty).1 with ⟨before, rest, hline⟩
      exact (h.departs_of_lined hline (duty t d hduty)).mono (Nat.le_succ n)
    . have hlt : n < m := Nat.lt_of_le_of_ne hle heq
      exact (h.departs_at (duty t d hduty) hlt hturn).mono (Nat.le_succ n)
termination_by m - n

theorem departs (h : Dwindles cells later effects) {n : Nat} (hduty : (cells n).duty t = some d)
    : Departs cells effects t d n := by
  rcases h.fair n t d hduty with ⟨m, hm, now, hturn⟩
  exact h.departs_at hduty hm hturn

end Dwindles

end Dwindles

end Cell

end BoxRegistry

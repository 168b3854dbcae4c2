import BoxRegistry.Proofs.Registry.Suspension
import BoxRegistry.Simulation.Backend

namespace BoxRegistry.Simulation

inductive Stands : Call → Pending → Prop where
  | held {call : Call} {due : Nat} : Stands call (.held (.call call) .pass due)
  | launching {order : LaunchOrder} {due : Nat} : Stands (.launch order) (.launching order due)
  | awaiting {pid : Pid} : Stands (.wait pid) (.awaiting pid)

namespace Backend

structure Tidy (b : Backend) : Prop where
  scripts : b.scripts = []
  below : ∀ p ∈ b.processes, p.pid < b.nextPid
  distinct : ∀ p ∈ b.processes, ∀ q ∈ b.processes, p.pid = q.pid → p = q

structure Answered (b b' : Backend) (call : Call) (reply : Reply) : Prop where
  tidy : b'.Tidy
  next : b.nextPid ≤ b'.nextPid
  alive : ∀ pid, b'.isAlive pid = true → b.isAlive pid = true ∨ reply = .launched pid
  launched : ∀ pid, reply = .launched pid → (∃ order, call = .launch order) ∧ pid = b.nextPid ∧ pid < b'.nextPid
  panicked : ∀ message, reply = .panicked message → ∃ order, call = .launch order
  ended : ∀ pid, call = .wait pid → b'.isAlive pid = false
  killed : ∀ pid, call = .terminate pid true → (∀ f, reply ≠ .failed f) ∨ b.refusesKill = false →
    b'.isAlive pid = false
  refuses : b'.refusesKill = b.refusesKill
  suspended : ∀ pid, b'.isAlive pid = true → b'.isPaused pid = (call.suspends? pid).getD (b.isPaused pid) ∧
    ((call.suspends? pid).isSome = true → reply = .done)

variable {b : Backend} {pid : Pid}

theorem process?_eq_some (h : b.Tidy) {p : Process}
    : b.process? pid = some p ↔ p ∈ b.processes ∧ p.pid = pid ∧ p.lost = false := by
  unfold process?
  constructor
  . intro hfind
    have hmem := List.mem_of_find?_eq_some hfind
    have htest := List.find?_some hfind
    simp only [Bool.and_eq_true, decide_eq_true_eq, Bool.not_eq_true'] at htest
    exact ⟨hmem, htest⟩
  . rintro ⟨hmem, hpid, hlost⟩
    apply find?_eq_some_of_unique hmem
    . simp [hpid, hlost]
    . intro q hq htest
      simp only [Bool.and_eq_true, decide_eq_true_eq] at htest
      exact h.distinct q hq p hmem (by rw [htest.1, hpid])

theorem find?_eq_some_of_mem (h : b.Tidy) {p : Process} (hmem : p ∈ b.processes) (hpid : p.pid = pid)
    : b.processes.find? (fun q => q.pid = pid) = some p := by
  apply find?_eq_some_of_unique hmem
  . simpa using hpid
  . intro q hq htest
    exact h.distinct q hq p hmem (by rw [hpid, of_decide_eq_true htest])

theorem isAlive_iff (h : b.Tidy)
    : b.isAlive pid = true ↔ ∃ p ∈ b.processes, p.pid = pid ∧ p.lost = false ∧ p.ending = none := by
  simp only [isAlive, Option.any_eq_true, process?_eq_some h, Option.isNone_iff_eq_none]
  constructor
  . rintro ⟨p, ⟨hmem, hpid, hlost⟩, hending⟩
    exact ⟨p, hmem, hpid, hlost, hending⟩
  . rintro ⟨p, hmem, hpid, hlost, hending⟩
    exact ⟨p, ⟨hmem, hpid, hlost⟩, hending⟩

section Modify

theorem mem_modifyProcess {f : Process → Process} {p : Process}
    : p ∈ (b.modifyProcess pid f).processes ↔
      ∃ q ∈ b.processes, (if q.pid = pid ∧ q.lost = false then f q else q) = p := by
  simp [modifyProcess]

theorem tidy_modifyProcess (h : b.Tidy) {f : Process → Process} (hf : ∀ p, (f p).pid = p.pid)
    : (b.modifyProcess pid f).Tidy where
  scripts := h.scripts
  below p hp := by
    rcases mem_modifyProcess.mp hp with ⟨q, hq, rfl⟩
    split
    . rw [hf]
      exact h.below q hq
    . exact h.below q hq
  distinct p hp q hq heq := by
    rcases mem_modifyProcess.mp hp with ⟨p', hp', rfl⟩
    rcases mem_modifyProcess.mp hq with ⟨q', hq', rfl⟩
    have hpid : ∀ r : Process, (if r.pid = pid ∧ r.lost = false then f r else r).pid = r.pid := by
      intro r
      split
      . exact hf r
      . rfl
    rw [hpid, hpid] at heq
    rw [h.distinct p' hp' q' hq' heq]

theorem isAlive_modifyProcess (h : b.Tidy) {f : Process → Process} (hf : ∀ p, (f p).pid = p.pid)
    (hlive : ∀ p, (f p).lost = false → (f p).ending = none → p.lost = false ∧ p.ending = none) {pid' : Pid}
    (halive : (b.modifyProcess pid f).isAlive pid' = true)
    : b.isAlive pid' = true := by
  rw [isAlive_iff (tidy_modifyProcess h hf)] at halive
  rcases halive with ⟨p, hmem, hpid, hlost, hending⟩
  rcases mem_modifyProcess.mp hmem with ⟨q, hq, rfl⟩
  rw [isAlive_iff h]
  split at hpid
  . next hif =>
    simp only [hif, and_self, if_true] at hlost hending
    have := hlive q hlost hending
    exact ⟨q, hq, by rw [← hf, hpid], this⟩
  . next hif =>
    simp only [hif, if_false] at hlost hending
    exact ⟨q, hq, hpid, hlost, hending⟩

theorem process?_modifyProcess {f : Process → Process} (hf : ∀ p, (f p).pid = p.pid ∧ (f p).lost = p.lost)
    (pid pid' : Pid)
    : (b.modifyProcess pid f).process? pid' = (b.process? pid').map fun p => if p.pid = pid then f p else p := by
  have hg : ∀ p : Process, (if p.pid = pid ∧ !p.lost then f p else p).pid = p.pid ∧
      (if p.pid = pid ∧ !p.lost then f p else p).lost = p.lost := by
    intro p
    split
    . exact hf p
    . exact ⟨rfl, rfl⟩
  simp only [process?, modifyProcess, List.find?_map, Function.comp_def, hg]
  cases hfind : b.processes.find? fun p => p.pid = pid' && !p.lost with
  | none => rfl
  | some p =>
    have hlost : p.lost = false := by
      have := List.find?_some hfind
      simp only [Bool.and_eq_true, Bool.not_eq_true'] at this
      exact this.2
    simp [hlost]

theorem isPaused_modifyProcess {f : Process → Process}
    (hf : ∀ p, (f p).pid = p.pid ∧ (f p).lost = p.lost ∧ (f p).paused = p.paused) (pid pid' : Pid)
    : (b.modifyProcess pid f).isPaused pid' = b.isPaused pid' := by
  rw [isPaused, process?_modifyProcess fun p => ⟨(hf p).1, (hf p).2.1⟩, isPaused]
  cases b.process? pid' with
  | none => rfl
  | some p =>
    simp only [Option.map_some, Option.any_some]
    split
    . exact (hf p).2.2
    . rfl

theorem pid_of_process? {p : Process} (h : b.process? pid = some p) : p.pid = pid := by
  have htest := List.find?_some h
  simp only [Bool.and_eq_true, decide_eq_true_eq] at htest
  exact htest.1

theorem isPaused_set {p : Process} (h : b.process? pid = some p) (paused : Bool) (pid' : Pid)
    : (b.modifyProcess pid fun p => { p with paused }).isPaused pid' =
      if pid = pid' then paused else b.isPaused pid' := by
  have hprocess := process?_modifyProcess (b := b) (f := fun p => { p with paused }) (fun _ => ⟨rfl, rfl⟩) pid pid'
  rw [isPaused, hprocess]
  split
  . next heq =>
    subst heq
    simp [h, pid_of_process? h]
  . next hne =>
    cases hother : b.process? pid' with
    | none => simp [isPaused, hother]
    | some q => simp [isPaused, hother, pid_of_process? hother, Ne.symm hne]

theorem tidy_exit (h : b.Tidy) (pid : Pid) (how : ProcessEnd) : (b.exit pid how).Tidy :=
  tidy_modifyProcess h fun _ => rfl

theorem isAlive_exit (h : b.Tidy) {how : ProcessEnd} {pid' : Pid} (halive : (b.exit pid how).isAlive pid' = true)
    : b.isAlive pid' = true ∧ pid' ≠ pid := by
  have hold := isAlive_modifyProcess (f := fun p => { p with ending := some how }) h (fun _ => rfl)
    (by simp) halive
  refine ⟨hold, ?_⟩
  rintro rfl
  rw [isAlive_iff (tidy_exit h _ how)] at halive
  rcases halive with ⟨p, hmem, hpid, hlost, hending⟩
  rcases mem_modifyProcess.mp hmem with ⟨q, hq, rfl⟩
  split at hending
  . cases hending
  . next hif =>
    simp only [hif, if_false] at hpid hlost
    exact hif ⟨hpid, hlost⟩

theorem isPaused_exit (pid : Pid) (how : ProcessEnd) (pid' : Pid)
    : (b.exit pid how).isPaused pid' = b.isPaused pid' :=
  isPaused_modifyProcess (f := fun p => { p with ending := some how }) (fun _ => ⟨rfl, rfl, rfl⟩) pid pid'

theorem tidy_lose (h : b.Tidy) (pid : Pid) : (b.lose pid).Tidy :=
  tidy_modifyProcess h fun _ => rfl

theorem process?_lose (pid pid' : Pid)
    : (b.lose pid).process? pid' = if pid = pid' then none else b.process? pid' := by
  simp only [process?, lose, modifyProcess, List.find?_map]
  split
  . next heq =>
    subst heq
    rw [Option.map_eq_none_iff, List.find?_eq_none]
    intro p _
    cases hlost : p.lost <;> by_cases hpid : p.pid = pid <;> simp [hlost, hpid]
  . next hne =>
    have htest : (fun p : Process => decide (p.pid = pid') && !p.lost) ∘
        (fun p : Process => if p.pid = pid ∧ !p.lost then { p with lost := true } else p) =
          fun p => decide (p.pid = pid') && !p.lost := by
      funext p
      simp only [Function.comp]
      split
      . next hif =>
        have hother : p.pid ≠ pid' := fun heq => hne (hif.1.symm.trans heq)
        simp [hother]
      . rfl
    rw [htest]
    cases hfind : b.processes.find? fun p => p.pid = pid' && !p.lost with
    | none => rfl
    | some p => simp [pid_of_process? hfind, Ne.symm hne]

theorem isAlive_lose (h : b.Tidy) {pid' : Pid} (halive : (b.lose pid).isAlive pid' = true)
    : b.isAlive pid' = true :=
  isAlive_modifyProcess (f := fun p => { p with lost := true }) h (fun _ => rfl)
    (by simp) halive

end Modify

theorem tidy_happen (h : b.Tidy) (event : Event) : (b.happen event).Tidy := by
  cases event with
  | exit pid how => exact tidy_exit h pid how
  | lose pid => exact tidy_lose h pid

theorem isAlive_happen (h : b.Tidy) {event : Event} (halive : (b.happen event).isAlive pid = true)
    : b.isAlive pid = true := by
  cases event with
  | exit pid how => exact (isAlive_exit h halive).1
  | lose pid => exact isAlive_lose h halive

theorem isPaused_happen {event : Event} (halive : (b.happen event).isAlive pid = true)
    : (b.happen event).isPaused pid = b.isPaused pid := by
  cases event with
  | exit pid' how => exact isPaused_exit pid' how pid
  | lose pid' =>
    simp only [happen, isAlive, process?_lose] at halive
    simp only [happen, isPaused, process?_lose]
    split at halive
    . cases halive
    . next hne => rw [if_neg hne]

theorem nextPid_happen (b : Backend) (event : Event) : (b.happen event).nextPid = b.nextPid := by
  cases event <;> rfl

section Replies

theorem answered_of_alive {b' : Backend} {call : Call} {reply : Reply} (htidy : b'.Tidy)
    (hsame : b'.nextPid = b.nextPid ∧ b'.refusesKill = b.refusesKill)
    (halive : ∀ pid, b'.isAlive pid = true → b.isAlive pid = true)
    (hlaunched : ∀ pid, reply ≠ .launched pid) (hpanicked : ∀ message, reply ≠ .panicked message)
    (hended : ∀ pid, call = .wait pid → b'.isAlive pid = false)
    (hkilled : ∀ pid, call = .terminate pid true → (∀ f, reply ≠ .failed f) ∨ b.refusesKill = false →
      b'.isAlive pid = false)
    (hcall : ∀ pid, call.suspends? pid = none) (hpaused : ∀ pid, b'.isPaused pid = b.isPaused pid)
    : Answered b b' call reply where
  tidy := htidy
  next := Nat.le_of_eq hsame.1.symm
  alive pid h := .inl (halive pid h)
  launched pid h := absurd h (hlaunched pid)
  panicked message h := absurd h (hpanicked message)
  ended := hended
  killed := hkilled
  refuses := hsame.2
  suspended pid _ := by
    rw [hcall, hpaused]
    exact ⟨rfl, fun h => by cases h⟩

theorem answered_signal (h : b.Tidy) (pid : Pid) (signal : Int) (force : Bool)
    : Answered b (b.signal pid signal).1 (.terminate pid force) (b.signal pid signal).2 := by
  unfold Backend.signal
  cases hprocess : b.process? pid with
  | none =>
    refine answered_of_alive h ⟨rfl, rfl⟩ (fun _ h => h) (by simp) (by simp) (by simp) ?_ (fun _ => rfl) (fun _ => rfl)
    intro pid' hcall _
    cases hcall
    simp [isAlive, hprocess]
  | some p =>
    dsimp only
    split
    . next hended =>
      refine answered_of_alive h ⟨rfl, rfl⟩ (fun _ h => h) (by simp) (by simp) (by simp) ?_ (fun _ => rfl) (fun _ => rfl)
      intro pid' hcall _
      cases hcall
      simp [isAlive, hprocess, hended]
    . refine answered_of_alive (tidy_exit h pid _) ⟨rfl, rfl⟩ (fun _ h' => (isAlive_exit h h').1) (by simp) (by simp)
        (by simp) ?_ (fun _ => rfl) (isPaused_exit pid _)
      intro pid' hcall _
      cases hcall
      cases halive : (b.exit pid (.signaled signal)).isAlive pid with
      | false => rfl
      | true => exact absurd rfl (isAlive_exit h halive).2

theorem answered_setPaused (h : b.Tidy) (pid : Pid) (paused : Bool) {call : Call}
    (hcall : call = if paused then .pause pid else .resume pid)
    : Answered b (b.setPaused pid paused).1 call (b.setPaused pid paused).2 := by
  have hquiet : ∀ {b' : Backend} {reply}, b'.Tidy → b'.nextPid = b.nextPid ∧ b'.refusesKill = b.refusesKill →
      (∀ pid, b'.isAlive pid = true → b.isAlive pid = true) → (∀ pid, reply ≠ .launched pid) →
      (∀ message, reply ≠ .panicked message) →
      (∀ pid', b'.isAlive pid' = true → b'.isPaused pid' = (if pid = pid' then paused else b.isPaused pid') ∧
        (pid = pid' → reply = .done)) → Answered b b' call reply := by
    intro b' reply htidy hsame halive hlaunched hpanicked hpaused
    refine ⟨htidy, Nat.le_of_eq hsame.1.symm, fun pid h => .inl (halive pid h), fun pid h => absurd h (hlaunched pid),
      fun message h => absurd h (hpanicked message), ?_, ?_, hsame.2, ?_⟩
    . rintro pid' rfl
      cases paused <;> cases hcall
    . rintro pid' rfl
      cases paused <;> cases hcall
    . intro pid' hpid'
      rcases hpaused pid' hpid' with ⟨hpaused, hreply⟩
      have hsuspends : call.suspends? pid' = if pid = pid' then some paused else none := by
        rw [hcall]
        cases paused <;> rfl
      rw [hsuspends, hpaused]
      split
      . next heq => exact ⟨rfl, fun _ => hreply heq⟩
      . exact ⟨rfl, fun h => by cases h⟩
  have hdead : b.isAlive pid = false → ∀ f pid', b.isAlive pid' = true →
      b.isPaused pid' = (if pid = pid' then paused else b.isPaused pid') ∧ (pid = pid' → Reply.failed f = .done) := by
    intro hdead f pid' halive
    have hne : pid ≠ pid' := by
      rintro rfl
      rw [hdead] at halive
      cases halive
    exact ⟨(if_neg hne).symm, fun heq => absurd heq hne⟩
  unfold setPaused
  cases hprocess : b.process? pid with
  | none => exact hquiet h ⟨rfl, rfl⟩ (fun _ h => h) (by simp) (by simp) (hdead (by simp [isAlive, hprocess]) _)
  | some p =>
    dsimp only
    split
    . next hended =>
      exact hquiet h ⟨rfl, rfl⟩ (fun _ h => h) (by simp) (by simp) (hdead (by simp [isAlive, hprocess, hended]) _)
    . refine hquiet (tidy_modifyProcess h fun _ => rfl) ⟨rfl, rfl⟩ ?_ (by simp) (by simp) ?_
      . intro pid' halive
        exact isAlive_modifyProcess (f := fun p => { p with paused }) h (fun _ => rfl)
          (fun _ hlost hending => ⟨hlost, hending⟩) halive
      . exact fun pid' _ => ⟨isPaused_set hprocess paused pid', fun _ => rfl⟩

theorem isPaused_nextPid (h : b.Tidy) : b.isPaused b.nextPid = false := by
  have hnone : b.process? b.nextPid = none := by
    rw [Option.eq_none_iff_forall_ne_some]
    intro p hp
    have hlt := h.below p ((process?_eq_some h).mp hp).1
    rw [pid_of_process? hp] at hlt
    exact Nat.lt_irrefl _ hlt
  rw [isPaused, hnone]
  rfl

theorem tidy_launch (h : b.Tidy) (order : LaunchOrder)
    : Tidy { b with
        nextPid := b.nextPid + 1, processes := b.processes ++ [{ pid := b.nextPid, order }] } where
  scripts := h.scripts
  below p hp := by
    simp only [List.mem_append, List.mem_singleton] at hp
    cases hp with
    | inl hmem => exact Nat.lt_succ_of_lt (h.below p hmem)
    | inr heq =>
      rw [heq]
      exact Nat.lt_succ_self _
  distinct p hp q hq heq := by
    simp only [List.mem_append, List.mem_singleton] at hp hq
    rcases hp with hp | rfl
    . rcases hq with hq | rfl
      . exact h.distinct p hp q hq heq
      . exact absurd (h.below p hp) (by rw [heq]; exact Nat.lt_irrefl _)
    . rcases hq with hq | rfl
      . exact absurd (h.below q hq) (by rw [← heq]; exact Nat.lt_irrefl _)
      . rfl

theorem isPaused_launched (order : LaunchOrder) (pid : Pid)
    : isPaused { b with
        nextPid := b.nextPid + 1, processes := b.processes ++ [{ pid := b.nextPid, order }] } pid = b.isPaused pid := by
  simp only [isPaused, process?, List.find?_append]
  cases b.processes.find? fun p => p.pid = pid && !p.lost with
  | some p => rfl
  | none =>
    simp only [Option.none_or, List.find?_singleton]
    split <;> rfl

theorem answered_launch (h : b.Tidy) (order : LaunchOrder)
    : Answered b (b.launch order).1 (.launch order) (b.launch order).2 := by
  have hsame : ∀ reply, (∀ pid, reply ≠ .launched pid) → Answered b b (.launch order) reply := by
    intro reply hlaunched
    exact ⟨h, Nat.le_refl _, fun _ h => .inl h, fun pid heq => absurd heq (hlaunched pid),
      fun _ _ => ⟨order, rfl⟩, by simp, by simp, rfl, fun _ _ => ⟨rfl, fun h => by cases h⟩⟩
  unfold launch
  split
  . exact hsame _ (by simp)
  . split
    . exact hsame _ (by simp)
    . have htidy := tidy_launch h order
      refine ⟨htidy, Nat.le_succ _, ?_, ?_, fun _ _ => ⟨order, rfl⟩, by simp, by simp, rfl,
        fun _ _ => ⟨?_, fun h => by cases h⟩⟩
      . intro pid halive
        rw [isAlive_iff htidy] at halive
        rcases halive with ⟨p, hmem, hpid, hlive⟩
        simp only [List.mem_append, List.mem_singleton] at hmem
        rcases hmem with hmem | rfl
        . exact .inl ((isAlive_iff h).mpr ⟨p, hmem, hpid, hlive⟩)
        . exact .inr (by rw [← hpid])
      . intro pid heq
        cases heq
        exact ⟨⟨order, rfl⟩, rfl, Nat.lt_succ_self _⟩
      . exact isPaused_launched _ _

inductive Polled (b : Backend) (call : Call) : Backend × Pending → Prop where
  | replied {b' : Backend} {reply : Reply} (answered : Answered b b' call reply) :
    Polled b call (b', .replied reply)
  | stands {pending : Pending} (stands : Stands call pending)
    (awaits : ∀ pid, pending = .awaiting pid → call = .wait pid ∧ b.isAlive pid = true) :
    Polled b call (b, pending)

theorem answered_of_dead (h : b.Tidy) {pid : Pid} (hdead : b.isAlive pid = false) {reply : Reply}
    (hlaunched : ∀ pid, reply ≠ .launched pid) (hpanicked : ∀ message, reply ≠ .panicked message)
    : Answered b b (.wait pid) reply := by
  refine answered_of_alive h ⟨rfl, rfl⟩ (fun _ h => h) hlaunched hpanicked ?_ (by simp) (fun _ => rfl) fun _ => rfl
  intro pid' heq
  cases heq
  exact hdead

theorem polled_awaited (h : b.Tidy) (pid : Pid) : Polled b (.wait pid) (b, b.awaited pid) := by
  unfold awaited
  cases hfind : b.processes.find? fun p => p.pid = pid with
  | none =>
    refine .replied (answered_of_dead h ?_ (by simp) (by simp))
    rw [List.find?_eq_none] at hfind
    apply eq_false_of_ne_true
    intro halive
    rcases (isAlive_iff h).mp halive with ⟨p, hmem, hpid, -⟩
    exact hfind p hmem (by simpa using hpid)
  | some p =>
    have hmem := List.mem_of_find?_eq_some hfind
    have hpid : p.pid = pid := by simpa using List.find?_some hfind
    have hlive : b.isAlive pid = true → p.lost = false ∧ p.ending = none := by
      intro halive
      rcases (isAlive_iff h).mp halive with ⟨q, hq, hqpid, hlive⟩
      rw [h.distinct p hmem q hq (by rw [hpid, hqpid])]
      exact hlive
    dsimp only
    cases hending : p.ending with
    | some how =>
      refine .replied (answered_of_dead h ?_ (by simp) (by simp))
      apply eq_false_of_ne_true
      intro halive
      rw [(hlive halive).2] at hending
      cases hending
    | none =>
      cases hlost : p.lost with
      | true =>
        simp only [if_true]
        refine .replied (answered_of_dead h ?_ (by simp) (by simp))
        apply eq_false_of_ne_true
        intro halive
        rw [(hlive halive).1] at hlost
        cases hlost
      | false =>
        simp only [Bool.false_eq_true, if_false]
        refine .stands .awaiting ?_
        intro pid' heq
        cases heq
        exact ⟨rfl, (isAlive_iff h).mpr ⟨p, hmem, hpid, hlost, hending⟩⟩

theorem polled_launching (h : b.Tidy) (order : LaunchOrder) (due clock : Nat)
    : Polled b (.launch order) (b.pollServed clock (.launching order due)) := by
  simp only [pollServed]
  split
  . exact .replied (answered_launch h order)
  . exact .stands .launching (by simp)

theorem polled_terminate (h : b.Tidy) (pid : Pid) (force : Bool) (clock : Nat)
    : Polled b (.terminate pid force)
      ((b.serve clock (.call (.terminate pid force))).1.pollServed clock
        (b.serve clock (.call (.terminate pid force))).2) := by
  cases force with
  | true =>
    simp only [serve, if_true]
    split
    . next hrefuses =>
      refine .replied (answered_of_alive h ⟨rfl, rfl⟩ (fun _ h => h) (by simp) (by simp) (by simp) ?_ (fun _ => rfl)
        fun _ => rfl)
      rintro pid' - (hreply | hallowed)
      . exact absurd rfl (hreply _)
      . rw [hrefuses] at hallowed
        cases hallowed
    . exact .replied (answered_signal h pid sigKill true)
  | false =>
    simp only [serve, Bool.false_eq_true, if_false]
    split
    . exact .replied (answered_of_alive h ⟨rfl, rfl⟩ (fun _ h => h) (by simp) (by simp) (by simp) (by simp)
        (fun _ => rfl) fun _ => rfl)
    . exact .replied (answered_signal h pid sigTerm false)

theorem polled_wait (h : b.Tidy) (pid : Pid) (clock : Nat)
    : Polled b (.wait pid)
      ((b.serve clock (.call (.wait pid))).1.pollServed clock (b.serve clock (.call (.wait pid))).2) := by
  simp only [serve]
  cases hprocess : b.process? pid with
  | none =>
    have hdead : b.isAlive pid = false := by simp [isAlive, hprocess]
    exact .replied (answered_of_dead h hdead (by simp) (by simp))
  | some p => exact polled_awaited h pid

end Replies

-- Nothing is set up for the backend, so a call that is held is served as soon as it is due.
theorem polled_poll (h : b.Tidy) {call : Call} {pending : Pending} (hstands : Stands call pending) (clock : Nat)
    : Polled b call (b.poll clock pending) := by
  cases hstands with
  | launching => exact polled_launching h _ _ clock
  | awaiting => exact polled_awaited h _
  | @held due =>
    simp only [poll]
    split
    . cases call with
      | launch order => exact polled_launching h order _ clock
      | terminate pid force => exact polled_terminate h pid force clock
      | wait pid => exact polled_wait h pid clock
      | pause pid => exact .replied (answered_setPaused h pid true rfl)
      | resume pid => exact .replied (answered_setPaused h pid false rfl)
    . exact .stands .held (by simp)

end Backend

end BoxRegistry.Simulation

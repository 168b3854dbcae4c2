import BoxRegistry.Host.Controller
import BoxRegistry.Proofs.Host.Retention

/-!
This module contains the proof that the backend which runs boxes as processes of the host keeps its table of processes
by the steps of a table in use. The host never hands out a number twice, so no reaper comes too late, and a process is
in the table until its end is published and its number is released, however often that is.
-/

namespace BoxRegistry.Host

/--
A system that hands out no number twice. All that it has handed out are below the next one.
-/
class Numbering (κ : Type) [System κ] where
  next : κ → Pid
  start {k k' : κ} {image : String} {args : List String} {env : Environment} {bounds : Bounds} {pid : Pid}
    (started : System.start k image args env bounds = .ok (k', pid)) : next k ≤ pid ∧ pid < next k'
  send (k : κ) (target : Int) (signal : Signal) : next k ≤ next (System.send k target signal)
  moveTo (k : κ) (clock : Nat) : next k ≤ next (System.moveTo k clock)

namespace ProcessController

open Custody (Orderly Traced Takes Settled launches)

inductive Operation where
  | begin (clock : Nat) (errand : Errand)
  | poll (clock : Nat) (pending : Pending)
  | release (pid : Pid)
  | moveTo (clock : Nat)

variable {κ : Type} [System κ]

def operate (c : ProcessController κ) : Operation → ProcessController κ
  | .begin clock errand => (Engine.begin c clock errand).1
  | .poll clock pending => (Engine.poll c clock pending).1
  | .release pid => Engine.release c pid
  | .moveTo clock => Engine.moveTo c clock

def operateAll (c : ProcessController κ) (operations : List Operation) : ProcessController κ :=
  operations.foldl operate c

structure Keeps [Numbering κ] (events : List Custody.Event) (s : Custody) (c : ProcessController κ) : Prop where
  orderly : Orderly events s
  table : s.table = c.table
  below : ∀ pid n, s.table.Registers pid n → pid < Numbering.next c.kernel
  single : ∀ pid n n', s.table.Registers pid n → s.table.Registers pid n' → n = n'

structure Rests [Numbering κ] (events : List Custody.Event) (s : Custody) (c : ProcessController κ) : Prop extends Keeps events s c where
  idle : .published ∉ s.reapers

variable [Numbering κ] {c c' : ProcessController κ} {s s' : Custody} {events : List Custody.Event} {pid : Pid}

theorem rests_new (k : κ) : Rests [] {} { kernel := k } where
  orderly := Custody.orderly_start
  table := rfl
  idle h := by cases h
  below pid n h := by
    rcases h with ⟨channel, hchannel, -⟩
    cases hchannel
  single pid n n' h := by
    rcases h with ⟨channel, hchannel, -⟩
    cases hchannel

theorem Keeps.settled (h : Keeps events s c) (pid : Pid) : s.Settled pid := by
  intro child hchild n hattended
  exact h.single pid n child.channel hattended.1 (h.orderly.sound.owned pid child hchild)

theorem Keeps.takes (h : Keeps events s c) {e : Custody.Event} (htakes : Takes s e s') (htable : s'.table = c'.table)
    (hnext : Numbering.next c.kernel ≤ Numbering.next c'.kernel)
    (hlaunch : ∀ pid, e = .launch pid → Numbering.next c.kernel ≤ pid ∧ pid < Numbering.next c'.kernel)
    : Keeps (events ++ [e]) s' c' where
  orderly := h.orderly.takes htakes fun pid _ => h.settled pid
  table := htable
  below pid n hregisters := by
    rcases htakes.registers_iff.mp hregisters with hbefore | ⟨he, -⟩
    . exact Nat.lt_of_lt_of_le (h.below pid n hbefore) hnext
    . exact (hlaunch pid he).2
  single pid n n' hregisters hregisters' := by
    have hnew (m : Nat) (hbefore : s.table.Registers pid m) : e ≠ .launch pid := fun he =>
      Nat.lt_irrefl pid (Nat.lt_of_lt_of_le (h.below pid m hbefore) (hlaunch pid he).1)
    rcases htakes.registers_iff.mp hregisters with hbefore | ⟨he, hn⟩
    . rcases htakes.registers_iff.mp hregisters' with hbefore' | ⟨he, -⟩
      . exact h.single pid n n' hbefore hbefore'
      . exact absurd he (hnew n hbefore)
    . rcases htakes.registers_iff.mp hregisters' with hbefore' | ⟨-, hn'⟩
      . exact absurd he (hnew n' hbefore')
      . exact hn.trans hn'.symm

structure Leaves [Numbering κ] (c c' : ProcessController κ) : Prop where
  table : c'.table = c.table
  next : Numbering.next c.kernel ≤ Numbering.next c'.kernel

theorem Rests.leaves (h : Rests events s c) (hleaves : Leaves c c') : Rests events s c' where
  orderly := h.orderly
  table := h.table.trans hleaves.table.symm
  idle := h.idle
  below pid n hregisters := Nat.lt_of_lt_of_le (h.below pid n hregisters) hleaves.next
  single := h.single

section Signals

theorem Leaves.refl (c : ProcessController κ) : Leaves c c :=
  ⟨rfl, Nat.le_refl _⟩

theorem Leaves.trans {c'' : ProcessController κ} (h : Leaves c c') (h' : Leaves c' c'') : Leaves c c'' :=
  ⟨h'.table.trans h.table, Nat.le_trans h.next h'.next⟩

theorem leaves_signal (c : ProcessController κ) (pid : Pid) (signal : Signal) : Leaves c (c.signal pid signal).1 :=
  ⟨rfl, Numbering.send c.kernel _ signal⟩

theorem leaves_terminate (c : ProcessController κ) (pid : Pid) (force : Bool) : Leaves c (c.terminate pid force).1 := by
  unfold terminate
  split
  . exact .refl c
  . exact .refl c
  . exact leaves_signal c pid _

theorem leaves_steer (c : ProcessController κ) (pid : Pid) (signal : Signal) : Leaves c (c.steer pid signal).1 := by
  have hsignal := leaves_signal c pid signal
  unfold steer
  split
  . exact .refl c
  . exact .refl c
  . split
    . next heq => rwa [heq] at hsignal
    . next heq => rwa [heq] at hsignal

theorem leaves_shutdown (c : ProcessController κ) : Leaves c c.shutdown := by
  rw [shutdown]
  generalize c.table.live = pids
  induction pids generalizing c with
  | nil => exact .refl c
  | cons pid pids ih => exact (leaves_signal c pid Signal.kill).trans (ih _)

end Signals

section Launching

theorem Rests.launch (h : Rests events s c) (order : LaunchOrder)
    : ((c.launch order).1 = c ∧ ∃ fault, (c.launch order).2 = .failed fault) ∨
        ∃ pid s', (c.launch order).2 = .launched pid ∧ Rests (events ++ [.launch pid]) s' (c.launch order).1 := by
  unfold ProcessController.launch
  split
  . exact .inl ⟨rfl, _, rfl⟩
  . next k pid hspawn =>
    have hnext : Numbering.next c.kernel ≤ pid ∧ pid < Numbering.next k := by
      unfold spawn at hspawn
      split at hspawn
      . cases hspawn
      . exact Numbering.start hspawn
    -- All numbers in the table are below the next one.
    have hnone : s.table.child? pid = none := by
      cases hchild : s.table.child? pid with
      | none => rfl
      | some child =>
        have hlt := h.below _ _ (h.orderly.sound.owned _ child hchild)
        exact absurd (Nat.lt_of_lt_of_le hlt hnext.1) (Nat.lt_irrefl _)
    refine .inr ⟨pid, _, rfl, h.toKeeps.takes (.launch hnone) (congrArg (·.register pid) h.table)
      (Nat.le_of_lt (Nat.lt_of_le_of_lt hnext.1 hnext.2)) ?_, by simp [h.idle]⟩
    rintro pid' ⟨⟩
    exact hnext

end Launching

section Reaping

theorem mem_live {t : ChildTable} (hkeyed : t.Keyed)
    : pid ∈ t.live ↔ ∃ child, t.child? pid = some child ∧ t.published? child.channel = none := by
  rw [ChildTable.live, List.mem_map]
  constructor
  . rintro ⟨⟨pid, child⟩, hentry, rfl⟩
    rw [List.mem_filter, Option.isNone_iff_eq_none, hkeyed.mem_iff] at hentry
    exact ⟨child, hentry⟩
  . rintro ⟨child, hchild, hnone⟩
    refine ⟨(pid, child), ?_, rfl⟩
    rw [List.mem_filter, Option.isNone_iff_eq_none, hkeyed.mem_iff]
    exact ⟨hchild, hnone⟩

theorem nodup_live {t : ChildTable} (hkeyed : t.Keyed) : t.live.Nodup :=
  hkeyed.sublist (List.filter_sublist.map _)

theorem Rests.reap (h : Rests events s c) (how : ProcessEnd) (hlive : pid ∈ c.table.live)
    : ∃ es s', Rests (events ++ es) s' { c with table := ProcessController.reap c.table pid how } ∧
        (∀ pid', .release pid' ∉ es) ∧
        ∀ pid' ∈ c.table.live, pid' ≠ pid → pid' ∈ (ProcessController.reap c.table pid how).live := by
  have hsound := h.orderly.sound
  rw [← h.table] at hlive ⊢
  rcases (mem_live hsound.keyed).mp hlive with ⟨child, hchild, hunpublished⟩
  have hreap : ProcessController.reap s.table pid how = (s.table.publish child.channel (.ok how)).prune pid := by
    rw [ProcessController.reap, hchild]
  have hregisters := hsound.owned pid child hchild
  have hwaiting : s.reapers[child.channel]? = some .waiting := by
    rcases hregisters with ⟨channel, hchannel, -⟩
    rw [hsound.waiting _ channel hchannel]
    simpa [ChildTable.published?, hchannel] using hunpublished
  have hlt : child.channel < s.reapers.length := (List.getElem?_eq_some_iff.mp hwaiting).1
  -- The end is published, and the table is pruned right after that.
  have hpublish : Takes s (.publish child.channel (.ok how)) _ := .publish hwaiting
  have hpublished : Keeps _ _ { c with table := s.table.publish child.channel (.ok how) } :=
    h.toKeeps.takes hpublish rfl (Nat.le_refl _) (by rintro _ ⟨⟩)
  have hprune := Takes.prune (by simp [hlt]) (hpublish.registers hregisters)
  have hpruned : Keeps _ _ { c with table := ProcessController.reap s.table pid how } :=
    hpublished.takes hprune hreap.symm (Nat.le_refl _) (by rintro _ ⟨⟩)
  rw [List.append_assoc] at hpruned
  refine ⟨_, _, ⟨hpruned, ?_⟩, by simp, ?_⟩
  . rw [List.set_set]
    intro hmem
    rcases List.mem_or_eq_of_mem_set hmem with hmem | heq
    . exact h.idle hmem
    . cases heq
  . intro pid' hlive' hne
    rcases (mem_live hsound.keyed).mp hlive' with ⟨child', hchild', hunpublished'⟩
    have hother : child.channel ≠ child'.channel := fun heq =>
      hne ((hsound.owned pid' child' hchild').unique (heq ▸ hregisters))
    rw [hreap]
    refine (mem_live hpruned.orderly.sound.keyed).mpr ⟨child', ?_, ?_⟩
    . simp [ChildTable.child?_prune, hne, hchild']
    . rw [ChildTable.published?, ChildTable.channels_prune, ChildTable.getElem?_channels_publish, if_neg hother]
      exact hunpublished'

theorem Rests.reapAll (h : Rests events s c) (ends : List (Pid × ProcessEnd))
    (hlive : ∀ entry ∈ ends, entry.1 ∈ c.table.live) (hnodup : (ends.map (·.1)).Nodup)
    : ∃ es s', Rests (events ++ es) s'
          { c with table := ends.foldl (fun t (pid, how) => ProcessController.reap t pid how) c.table } ∧
        ∀ pid, .release pid ∉ es := by
  induction ends generalizing events s c with
  | nil => exact ⟨[], s, by simpa using h, by simp⟩
  | cons entry ends ih =>
    rcases entry with ⟨pid, how⟩
    rw [List.map_cons, List.nodup_cons] at hnodup
    rcases h.reap how (hlive _ List.mem_cons_self) with ⟨es, s₁, hfirst, hnone, hothers⟩
    have hrest : ∀ entry ∈ ends, entry.1 ∈ (ProcessController.reap c.table pid how).live := by
      intro entry hentry
      refine hothers entry.1 (hlive entry (List.mem_cons_of_mem _ hentry)) ?_
      rintro rfl
      exact hnodup.1 (List.mem_map.mpr ⟨entry, hentry, rfl⟩)
    rcases ih hfirst hrest hnodup.2 with ⟨es', s', hlast, hnone'⟩
    refine ⟨es ++ es', s', by simpa using hlast, ?_⟩
    simp [hnone, hnone']

omit [Numbering κ] in
theorem unpublished_sublist (c : ProcessController κ) (clock : Nat)
    : ((c.unpublished clock).map (·.1)).Sublist c.table.live := by
  rw [unpublished]
  induction c.table.live with
  | nil => exact .slnil
  | cons pid pids ih =>
    rw [List.filterMap_cons]
    split
    . exact ih.cons pid
    . next entry hentry =>
      have hpid : entry.1 = pid := by
        simp only [Option.bind_eq_bind, Option.bind_eq_some_iff] at hentry
        rcases hentry with ⟨⟨how, ended⟩, -, hentry⟩
        split at hentry
        . cases hentry
          rfl
        . cases hentry
      rw [List.map_cons, hpid]
      exact ih.cons_cons pid

theorem Rests.moveTo (h : Rests events s c) (clock : Nat)
    : ∃ es s', Rests (events ++ es) s' (c.moveTo clock) ∧ ∀ pid, .release pid ∉ es := by
  have hsublist := unpublished_sublist c clock
  have hlive : ∀ entry ∈ c.unpublished clock, entry.1 ∈ c.table.live := fun entry hentry =>
    hsublist.subset (List.mem_map_of_mem hentry)
  have hnodup := (nodup_live (h.table ▸ h.orderly.sound.keyed)).sublist hsublist
  rcases h.reapAll _ hlive hnodup with ⟨es, s', hreaped, hnone⟩
  exact ⟨es, s', hreaped.leaves ⟨rfl, Numbering.moveTo c.kernel clock⟩, hnone⟩

end Reaping

section Runs

theorem Rests.begin (h : Rests events s c) (clock : Nat) (errand : Errand)
    : ∃ es s', Rests (events ++ es) s' (c.begin clock errand).1 ∧ ∀ pid, .release pid ∉ es := by
  have hidle {c' : ProcessController κ} (hleaves : Leaves c c')
      : ∃ es s', Rests (events ++ es) s' c' ∧ ∀ pid, .release pid ∉ es :=
    ⟨[], s, by simpa using h.leaves hleaves, by simp⟩
  cases errand with
  | shutdown => exact hidle (leaves_shutdown c)
  | call call =>
    cases call with
    | launch order =>
      rcases h.launch order with ⟨hsame, -⟩ | ⟨pid, s', -, hlaunched⟩
      . have hrefl : Leaves c (c.launch order).1 := by
          rw [hsame]
          exact .refl c
        exact hidle hrefl
      . exact ⟨_, s', hlaunched, by simp⟩
    | terminate pid force => exact hidle (leaves_terminate c pid force)
    | wait pid => exact hidle (.refl c)
    | pause pid => exact hidle (leaves_steer c pid Signal.halt)
    | resume pid => exact hidle (leaves_steer c pid Signal.proceed)

theorem Rests.operate (h : Rests events s c) (o : Operation)
    : ∃ es s', Rests (events ++ es) s' (c.operate o) ∧ ∀ pid, .release pid ∈ es ↔ o = .release pid := by
  cases o with
  | begin clock errand =>
    rcases h.begin clock errand with ⟨es, s', hbegun, hnone⟩
    exact ⟨es, s', hbegun, by simp [hnone]⟩
  | poll clock pending => exact ⟨[], s, by rwa [List.append_nil], by simp⟩
  | release pid =>
    have hkeeps : Keeps _ _ (c.operate (.release pid)) :=
      h.toKeeps.takes .release (congrArg (·.release pid) h.table) (Nat.le_refl _) (by rintro _ ⟨⟩)
    exact ⟨_, _, ⟨hkeeps, h.idle⟩, by simp [eq_comm]⟩
  | moveTo clock =>
    rcases h.moveTo clock with ⟨es, s', hmoved, hnone⟩
    exact ⟨es, s', hmoved, by simp [hnone]⟩

theorem Rests.operateAll (h : Rests events s c) (operations : List Operation)
    : ∃ es s', Rests (events ++ es) s' (c.operateAll operations) ∧
        ∀ pid, .release pid ∈ es ↔ .release pid ∈ operations := by
  induction operations generalizing events s c with
  | nil => exact ⟨[], s, by rwa [List.append_nil], by simp⟩
  | cons o operations ih =>
    rcases h.operate o with ⟨es, s₁, hfirst, hreleases⟩
    rcases ih hfirst with ⟨es', s', hlast, hreleases'⟩
    refine ⟨es ++ es', s', by rwa [← List.append_assoc], fun pid => ?_⟩
    rw [List.mem_append, hreleases, hreleases', List.mem_cons, eq_comm]

end Runs

theorem Rests.pruned (h : Rests events s c) {n : Nat} {es : List Custody.Event} (htraced : Traced n pid es s)
    (hpublished : (s.table.published? n).isSome)
    : .prune n ∈ es := by
  have hsound := h.orderly.sound
  rcases htraced.channel with ⟨channel, hchannel, -⟩
  have hlt : n < s.reapers.length := hsound.length ▸ htraced.lt
  have hstage := List.getElem?_eq_getElem hlt
  rw [← htraced.finished, hstage]
  cases hreaper : s.reapers[n] with
  | waiting =>
    have hnone := (hsound.waiting n channel hchannel).mp (hstage.trans (congrArg some hreaper))
    simp [ChildTable.published?, hchannel, hnone] at hpublished
  | published => exact absurd (hreaper ▸ List.getElem_mem hlt) h.idle
  | finished => rfl

theorem Rests.receiver {before after : List Custody.Event} (h : Rests (before ++ .launch pid :: after) s c)
    : c.table.Registers pid (launches before) ∧
      (¬((c.table.published? (launches before)).isSome ∧ .release pid ∈ after) →
        c.table.receiver pid = .ok (launches before)) ∧
      ((c.table.published? (launches before)).isSome → .release pid ∈ after →
        c.table.receiver pid = .error (ChildTable.unmanaged pid)) := by
  have hsound := h.orderly.sound
  have htraced := h.orderly.traced before pid after rfl
  rw [← h.table]
  refine ⟨htraced.registers, ?_⟩
  rcases h.orderly.kept before pid after rfl with ⟨released, hchild, -, hunpruned⟩ |
    ⟨hgone, ⟨result, hpublished⟩, hrelease⟩
  . refine ⟨fun _ => by rw [ChildTable.receiver, hchild], fun hsome hrelease => ?_⟩
    exact absurd (h.pruned htraced hsome) (hunpruned hrelease)
  . have hsome := htraced.published?_eq_some.mpr hpublished
    -- An entry of the same number would be that of another process, but there is no other.
    have hnone : s.table.child? pid = none := by
      cases hchild : s.table.child? pid with
      | none => rfl
      | some child =>
        have hown := h.single pid _ _ (hsound.owned pid child hchild) htraced.registers
        exact absurd (hsound.keyed.mem_held_iff.mpr ⟨pid, child, hchild, hown⟩) hgone
    exact ⟨fun hundone => absurd ⟨by rw [hsome]; rfl, hrelease⟩ hundone, fun _ _ => by rw [ChildTable.receiver, hnone]⟩

theorem launched_is_managed_until_done (k : κ) (before after : List Operation) (clock : Nat) (order : LaunchOrder)
    {pid : Pid}
    (hlaunched : (Engine.begin (operateAll { kernel := k } before) clock (.call (.launch order))).2 =
      .replied (.launched pid))
    : let c := operateAll { kernel := k } (before ++ .begin clock (.call (.launch order)) :: after)
      ∃ n, c.table.Registers pid n ∧
        (¬((c.table.published? n).isSome ∧ .release pid ∈ after) → c.table.receiver pid = .ok n) ∧
        ((c.table.published? n).isSome → .release pid ∈ after →
          c.table.receiver pid = .error (ChildTable.unmanaged pid)) := by
  intro c
  have hc : c = ((operateAll { kernel := k } before).launch order).1.operateAll after := List.foldl_append
  change Pending.replied ((operateAll { kernel := k } before).launch order).2 = _ at hlaunched
  rcases (rests_new k).operateAll before with ⟨past, s₀, hbefore, -⟩
  rcases hbefore.launch order with ⟨-, fault, hfailed⟩ | ⟨pid', s₁, hreply, hstarted⟩
  . rw [hfailed] at hlaunched
    cases hlaunched
  . rw [hreply] at hlaunched
    cases hlaunched
    rcases hstarted.operateAll after with ⟨es, s, hafter, hreleases⟩
    rw [← hc, List.append_assoc, List.singleton_append] at hafter
    have hreceiver := hafter.receiver
    rw [hreleases] at hreceiver
    exact ⟨_, hreceiver⟩

end ProcessController

end BoxRegistry.Host

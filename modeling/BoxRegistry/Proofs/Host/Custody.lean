import BoxRegistry.Proofs.Host.ChildTable

/-!
This module contains a table of processes in use. Processes are launched, reaped, released and waited for in any order;
each of these is one step, and the reaper of a process takes two: it publishes how the process ended, and prunes the
table some time after that. What is published is the same for everybody who waits for it, however late.
-/

namespace BoxRegistry.Host

namespace ChildTable

/--
The channels of the processes in the table. The processes are told apart by them, since the number of one that has left
the table can be handed out again.
-/
def held (t : ChildTable) : List Nat :=
  t.children.map (·.2.channel)

theorem Keyed.mem_held_iff {t : ChildTable} (h : t.Keyed) {n : Nat}
    : n ∈ t.held ↔ ∃ pid child, t.child? pid = some child ∧ child.channel = n := by
  rw [held, List.mem_map]
  constructor
  . rintro ⟨⟨pid, child⟩, hentry, hn⟩
    exact ⟨pid, child, h.mem_iff.mp hentry, hn⟩
  . rintro ⟨pid, child, hchild, hn⟩
    exact ⟨(pid, child), h.mem_iff.mpr hchild, hn⟩

def Registers (t : ChildTable) (pid : Pid) (n : Nat) : Prop :=
  ∃ channel, t.channels[n]? = some channel ∧ channel.pid = pid

theorem Registers.unique {t : ChildTable} {pid pid' : Pid} {n : Nat} (h : t.Registers pid n)
    (h' : t.Registers pid' n)
    : pid = pid' := by
  rcases h with ⟨channel, hchannel, hpid⟩
  rcases h' with ⟨channel', hchannel', hpid'⟩
  cases hchannel.symm.trans hchannel'
  exact hpid.symm.trans hpid'

end ChildTable

inductive Reaper where
  | waiting
  | published
  | finished
deriving DecidableEq, Repr

structure Custody where
  table : ChildTable := {}
  reapers : List Reaper := []
  waits : List Pending := []

namespace Custody

inductive Event where
  | launch (pid : Pid)
  | publish (n : Nat) (result : Published)
  | prune (n : Nat)
  | release (pid : Pid)
  | wait (pid : Pid)
  | hear (w : Nat)

/--
Take a step. The operating system hands out no number that is still in the table, and a reaper does one thing after the
other.
-/
def step? (c : Custody) : Event → Option Custody
  | .launch pid =>
    if c.table.child? pid = none then
      some { c with table := c.table.register pid, reapers := c.reapers ++ [.waiting] }
    else none
  | .publish n result =>
    if c.reapers[n]? = some .waiting then
      some { c with table := c.table.publish n result, reapers := c.reapers.set n .published }
    else none
  | .prune n =>
    if c.reapers[n]? = some .published then
      c.table.channels[n]?.map fun channel =>
        { c with table := c.table.prune channel.pid, reapers := c.reapers.set n .finished }
    else none
  | .release pid => some { c with table := c.table.release pid }
  | .wait pid => some { c with waits := c.waits ++ [c.table.wait pid] }
  | .hear w => if w < c.waits.length then some { c with waits := c.waits.modify w c.table.hear } else none

def run? (c : Custody) : List Event → Option Custody
  | [] => some c
  | e :: es => (c.step? e).bind fun c => c.run? es

def launches (es : List Event) : Nat :=
  es.countP fun
    | .launch _ => true
    | _ => false

def releases (es : List Event) : List Pid :=
  es.filterMap fun
    | .release pid => some pid
    | _ => none

theorem mem_releases {es : List Event} {pid : Pid} : pid ∈ releases es ↔ .release pid ∈ es := by
  rw [releases, List.mem_filterMap]
  constructor
  . rintro ⟨e, he, hpid⟩
    cases e <;> cases hpid
    exact he
  . exact fun h => ⟨_, h, rfl⟩

variable {c c' : Custody} {e : Event} {es : List Event} {pid : Pid} {n m w : Nat} {child : Child} {result : Published}

inductive Takes (c : Custody) : Event → Custody → Prop where
  | launch {pid : Pid} (fresh : c.table.child? pid = none) :
    Takes c (.launch pid) { c with table := c.table.register pid, reapers := c.reapers ++ [.waiting] }
  | publish {n : Nat} {result : Published} (waiting : c.reapers[n]? = some .waiting) :
    Takes c (.publish n result) { c with table := c.table.publish n result, reapers := c.reapers.set n .published }
  | prune {n : Nat} {pid : Pid} (published : c.reapers[n]? = some .published) (registers : c.table.Registers pid n) :
    Takes c (.prune n) { c with table := c.table.prune pid, reapers := c.reapers.set n .finished }
  | release {pid : Pid} : Takes c (.release pid) { c with table := c.table.release pid }
  | wait {pid : Pid} : Takes c (.wait pid) { c with waits := c.waits ++ [c.table.wait pid] }
  | hear {w : Nat} : Takes c (.hear w) { c with waits := c.waits.modify w c.table.hear }

theorem takes_of_step? (h : c.step? e = some c') : Takes c e c' := by
  cases e with
  | launch pid =>
    simp only [step?, Option.ite_none_right_eq_some, Option.some.injEq] at h
    rcases h with ⟨hfresh, rfl⟩
    exact .launch hfresh
  | publish n result =>
    simp only [step?, Option.ite_none_right_eq_some, Option.some.injEq] at h
    rcases h with ⟨hwaiting, rfl⟩
    exact .publish hwaiting
  | prune n =>
    simp only [step?, Option.ite_none_right_eq_some, Option.map_eq_some_iff] at h
    rcases h with ⟨hpublished, channel, hchannel, rfl⟩
    exact .prune hpublished ⟨channel, hchannel, rfl⟩
  | release pid =>
    cases h
    exact .release
  | wait pid =>
    cases h
    exact .wait
  | hear w =>
    simp only [step?, Option.ite_none_right_eq_some, Option.some.injEq] at h
    rcases h with ⟨-, rfl⟩
    exact .hear

theorem run?_induction {motive : List Event → Custody → Prop} (past : List Event) (h : c.run? es = some c')
    (hstart : motive past c)
    (hstep : ∀ past c e c', motive past c → Takes c e c' → motive (past ++ [e]) c')
    : motive (past ++ es) c' := by
  induction es generalizing c past with
  | nil =>
    cases h
    rwa [List.append_nil]
  | cons e es ih =>
    rcases Option.bind_eq_some_iff.mp h with ⟨c₁, hfirst, hrest⟩
    rw [List.append_cons]
    exact ih (past ++ [e]) hrest (hstep past c e c₁ hstart (takes_of_step? hfirst))

section Sound

/--
There is a reaper for each channel, which waits exactly for as long as nothing is published there, and an entry leads to
a channel of its own process.
-/
structure Sound (c : Custody) : Prop where
  keyed : c.table.Keyed
  length : c.reapers.length = c.table.channels.length
  waiting : ∀ (n : Nat) (channel : Channel), c.table.channels[n]? = some channel →
    (c.reapers[n]? = some .waiting ↔ channel.result = none)
  owned : ∀ pid child, c.table.child? pid = some child → c.table.Registers pid child.channel

theorem sound_start : Sound {} where
  keyed := List.nodup_nil
  length := rfl
  waiting n channel h := by cases h
  owned pid child h := by cases h

theorem Takes.registers_iff (h : Takes c e c')
    : c'.table.Registers pid n ↔ c.table.Registers pid n ∨ e = .launch pid ∧ n = c.table.channels.length := by
  cases h with
  | @launch pid' fresh =>
    have hlast : (c.table.channels ++ [⟨pid', none⟩])[n]? =
        if n = c.table.channels.length then some ⟨pid', none⟩ else c.table.channels[n]? := by
      rw [List.getElem?_append]
      grind
    simp only [ChildTable.Registers, ChildTable.channels_register, hlast]
    split
    . next hn => simp [hn]
    . next hn => simp [hn]
  | publish waiting =>
    simp only [ChildTable.Registers, ChildTable.getElem?_channels_publish]
    split <;> simp
  | prune published registers => simp [ChildTable.Registers]
  | release => simp [ChildTable.Registers]
  | wait => simp
  | hear => simp

theorem Takes.registers (h : Takes c e c') (hregisters : c.table.Registers pid n) : c'.table.Registers pid n :=
  h.registers_iff.mpr (.inl hregisters)

theorem Takes.child?_before (h : Takes c e c') (hchild : c'.table.child? pid = some child)
    : (∃ before, c.table.child? pid = some before ∧ before.channel = child.channel) ∨
        e = .launch pid ∧ child = { channel := c.table.channels.length } := by
  cases h with
  | launch fresh =>
    rw [ChildTable.child?_register] at hchild
    split at hchild
    . next hpid =>
      subst hpid
      cases hchild
      exact .inr ⟨rfl, rfl⟩
    . exact .inl ⟨child, hchild, rfl⟩
  | publish waiting => exact .inl ⟨child, hchild, rfl⟩
  | prune published registers =>
    rw [ChildTable.child?_prune] at hchild
    split at hchild
    . cases hchild
    . exact .inl ⟨child, hchild, rfl⟩
  | release =>
    rw [ChildTable.child?_release] at hchild
    split at hchild
    . next hpid =>
      subst hpid
      rcases Option.bind_eq_some_iff.mp hchild with ⟨before, hbefore, hreleased⟩
      split at hreleased
      . cases hreleased
      . cases hreleased
        exact .inl ⟨before, hbefore, rfl⟩
    . exact .inl ⟨child, hchild, rfl⟩
  | wait => exact .inl ⟨child, hchild, rfl⟩
  | hear => exact .inl ⟨child, hchild, rfl⟩

theorem Takes.keyed (h : Takes c e c') (hkeyed : c.table.Keyed) : c'.table.Keyed := by
  cases h with
  | launch fresh => exact hkeyed.register _
  | prune published registers => exact hkeyed.prune _
  | release => exact hkeyed.release _
  | publish | wait | hear => exact hkeyed

theorem Takes.length (h : Takes c e c') (hlength : c.reapers.length = c.table.channels.length)
    : c'.reapers.length = c'.table.channels.length := by
  cases h <;> simp [ChildTable.publish, hlength]

theorem Takes.waiting (h : Takes c e c') (hsound : c.Sound) {channel : Channel}
    (hchannel : c'.table.channels[n]? = some channel)
    : c'.reapers[n]? = some .waiting ↔ channel.result = none := by
  cases h with
  | launch fresh =>
    have hlength := hsound.length
    rw [ChildTable.channels_register, List.getElem?_append] at hchannel
    rw [List.getElem?_append]
    split at hchannel
    . next hold => rw [if_pos (by omega), hsound.waiting n channel hchannel]
    . next hnew =>
      have hlast : n - c.table.channels.length = 0 := by
        have := (List.getElem?_eq_some_iff.mp hchannel).1
        simp at this
        omega
      rw [hlast] at hchannel
      cases hchannel
      rw [if_neg (by omega), hlength, hlast]
      simp
  | publish waiting =>
    rw [ChildTable.getElem?_channels_publish] at hchannel
    split at hchannel
    . next heq =>
      subst heq
      rcases Option.map_eq_some_iff.mp hchannel with ⟨before, -, rfl⟩
      simp [List.getElem?_set]
    . next hne =>
      rw [List.getElem?_set_ne hne]
      exact hsound.waiting n channel hchannel
  | @prune m pid published registers =>
    rw [ChildTable.channels_prune] at hchannel
    have hwaiting := hsound.waiting n channel hchannel
    by_cases heq : m = n
    . subst heq
      rw [published] at hwaiting
      simpa [List.getElem?_set] using hwaiting
    . rw [List.getElem?_set_ne heq]
      exact hwaiting
  | release => exact hsound.waiting n channel (by simpa using hchannel)
  | wait => exact hsound.waiting n channel hchannel
  | hear => exact hsound.waiting n channel hchannel

theorem Takes.owned (h : Takes c e c') (hsound : c.Sound) (hchild : c'.table.child? pid = some child)
    : c'.table.Registers pid child.channel := by
  rcases h.child?_before hchild with ⟨before, hbefore, heq⟩ | ⟨rfl, rfl⟩
  . rw [← heq]
    exact h.registers (hsound.owned pid before hbefore)
  . cases h
    exact ⟨⟨pid, none⟩, by simp, rfl⟩

theorem Sound.takes (hsound : c.Sound) (h : Takes c e c') : c'.Sound where
  keyed := h.keyed hsound.keyed
  length := h.length hsound.length
  waiting _ _ := h.waiting hsound
  owned _ _ := h.owned hsound

end Sound

section Traced

structure Traced (n : Nat) (pid : Pid) (es : List Event) (c : Custody) : Prop where
  channel : ∃ channel, c.table.channels[n]? = some channel ∧ channel.pid = pid ∧
    ∀ result, channel.result = some result ↔ .publish n result ∈ es
  finished : c.reapers[n]? = some .finished ↔ .prune n ∈ es

theorem Traced.registers (htraced : Traced n pid es c) : c.table.Registers pid n := by
  rcases htraced.channel with ⟨channel, hchannel, hpid, -⟩
  exact ⟨channel, hchannel, hpid⟩

theorem Traced.lt (htraced : Traced n pid es c) : n < c.table.channels.length := by
  rcases htraced.channel with ⟨channel, hchannel, -⟩
  exact (List.getElem?_eq_some_iff.mp hchannel).1

theorem Traced.published?_eq_some (htraced : Traced n pid es c)
    : c.table.published? n = some result ↔ .publish n result ∈ es := by
  rcases htraced.channel with ⟨channel, hchannel, -, hresult⟩
  rw [ChildTable.published?, hchannel]
  exact hresult result

theorem Traced.published (htraced : Traced n pid es c) (hsound : c.Sound) (h : c.reapers[n]? ≠ some .waiting)
    : ∃ result, .publish n result ∈ es := by
  rcases htraced.channel with ⟨channel, hchannel, -, hresult⟩
  have hsome := mt (hsound.waiting n channel hchannel).mpr h
  rcases Option.ne_none_iff_exists'.mp hsome with ⟨result, hpublished⟩
  exact ⟨result, (hresult result).mp hpublished⟩

theorem traced_launch (hsound : c.Sound) (h : Takes c (.launch pid) c')
    : Traced c.table.channels.length pid [] c' := by
  have hlength := hsound.length
  cases h with
  | launch fresh =>
    constructor
    . exact ⟨⟨pid, none⟩, by simp, rfl, by simp⟩
    . rw [← hlength]
      simp

theorem Traced.takes (htraced : Traced n pid es c) (hsound : c.Sound) (h : Takes c e c')
    : Traced n pid (es ++ [e]) c' := by
  rcases htraced.channel with ⟨channel, hchannel, hpid, hresult⟩
  have hlt : n < c.reapers.length := hsound.length ▸ htraced.lt
  have hfinished := htraced.finished
  cases h with
  | launch fresh =>
    constructor
    . refine ⟨channel, ?_, hpid, by simpa using hresult⟩
      rw [ChildTable.channels_register, List.getElem?_append_left htraced.lt]
      exact hchannel
    . rw [List.getElem?_append_left hlt]
      simpa using hfinished
  | @publish m result waiting =>
    by_cases heq : m = n
    . subst heq
      have hnone := (hsound.waiting m channel hchannel).mp waiting
      constructor
      . refine ⟨{ channel with result := some result }, ?_, hpid, ?_⟩
        . rw [ChildTable.getElem?_channels_publish, if_pos rfl, hchannel]
          rfl
        . simp [← hresult, hnone, eq_comm]
      . rw [waiting] at hfinished
        simpa [List.getElem?_set] using hfinished
    . constructor
      . refine ⟨channel, by rw [ChildTable.getElem?_channels_publish, if_neg heq, hchannel], hpid, ?_⟩
        simpa [Ne.symm heq] using hresult
      . rw [List.getElem?_set_ne heq]
        simpa using hfinished
  | @prune m pid' published registers =>
    constructor
    . exact ⟨channel, by simpa using hchannel, hpid, by simpa using hresult⟩
    . by_cases heq : m = n
      . subst heq
        simp [hlt]
      . rw [List.getElem?_set_ne heq]
        simpa [Ne.symm heq] using hfinished
  | release =>
    exact ⟨⟨channel, by simpa using hchannel, hpid, by simpa using hresult⟩, by simpa using hfinished⟩
  | wait => exact ⟨⟨channel, hchannel, hpid, by simpa using hresult⟩, by simpa using hfinished⟩
  | hear => exact ⟨⟨channel, hchannel, hpid, by simpa using hresult⟩, by simpa using hfinished⟩

theorem Traced.run? {past : List Event} (htraced : Traced n pid past c) (hsound : c.Sound)
    (h : c.run? es = some c')
    : Traced n pid (past ++ es) c' := by
  have hboth := run?_induction (motive := fun es c => c.Sound ∧ Traced n pid es c) past h ⟨hsound, htraced⟩
    fun _ _ _ _ hboth htakes => ⟨hboth.1.takes htakes, hboth.2.takes hboth.1 htakes⟩
  exact hboth.2

end Traced

section Gone

theorem Takes.notMem_held (h : Takes c e c') (hsound : c.Sound) (hn : n < c.table.channels.length)
    (hgone : n ∉ c.table.held)
    : n ∉ c'.table.held := by
  rw [(h.keyed hsound.keyed).mem_held_iff]
  rintro ⟨pid, child, hchild, rfl⟩
  rcases h.child?_before hchild with ⟨before, hbefore, heq⟩ | ⟨-, rfl⟩
  . exact hgone (hsound.keyed.mem_held_iff.mpr ⟨pid, before, hbefore, heq⟩)
  . -- A process that is launched under the same number has a channel of its own.
    exact Nat.lt_irrefl _ hn

theorem notMem_held_of_run? (hsound : c.Sound) (htraced : Traced n pid past c) (hgone : n ∉ c.table.held)
    (h : c.run? es = some c')
    : n ∉ c'.table.held := by
  have hall := run?_induction (motive := fun es c => c.Sound ∧ Traced n pid es c ∧ n ∉ c.table.held) past h
    ⟨hsound, htraced, hgone⟩ ?_
  . exact hall.2.2
  . rintro past c e c' ⟨hsound, htraced, hgone⟩ htakes
    exact ⟨hsound.takes htakes, htraced.takes hsound htakes, htakes.notMem_held hsound htraced.lt hgone⟩

end Gone

section Waits

def Awaits (c : Custody) (w n : Nat) : Prop :=
  c.waits[w]? = some (.awaiting n) ∨
    ∃ channel reply, c.table.channels[n]? = some channel ∧ channel.reply? = some reply ∧
      c.waits[w]? = some (.replied reply)

theorem awaits_wait (h : Takes c (.wait pid) c') (hchild : c.table.child? pid = some child)
    : c'.Awaits c.waits.length child.channel := by
  cases h with
  | wait =>
    refine .inl ?_
    rw [List.getElem?_concat_length, ChildTable.wait, ChildTable.receiver, hchild]

theorem Takes.channel_of_result (h : Takes c e c') (hsound : c.Sound) {channel : Channel}
    (hchannel : c.table.channels[n]? = some channel) (hresult : channel.result = some result)
    : c'.table.channels[n]? = some channel := by
  cases h with
  | launch fresh =>
    rw [ChildTable.channels_register, List.getElem?_append_left (List.getElem?_eq_some_iff.mp hchannel).1]
    exact hchannel
  | @publish m _ waiting =>
    -- The reaper of this channel is not waiting any more, so it publishes nothing again.
    have hne : m ≠ n := by
      rintro rfl
      rw [(hsound.waiting m channel hchannel).mp waiting] at hresult
      cases hresult
    rw [ChildTable.getElem?_channels_publish, if_neg hne]
    exact hchannel
  | prune | release => simpa using hchannel
  | wait | hear => exact hchannel

theorem Takes.waits (h : Takes c e c') {pending : Pending} (hpending : c.waits[w]? = some pending)
    : c'.waits[w]? = some pending ∨ c'.waits[w]? = some (c.table.hear pending) := by
  cases h with
  | launch | publish | prune | release => exact .inl hpending
  | wait =>
    rw [List.getElem?_append_left (List.getElem?_eq_some_iff.mp hpending).1]
    exact .inl hpending
  | hear =>
    rw [List.getElem?_modify, hpending]
    split
    . exact .inr rfl
    . exact .inl rfl

theorem Awaits.takes (hawaits : c.Awaits w n) (hsound : c.Sound) (h : Takes c e c') : c'.Awaits w n := by
  have hstays : ∀ {channel : Channel} {reply : Reply}, c.table.channels[n]? = some channel →
      channel.reply? = some reply → c'.table.channels[n]? = some channel := by
    intro channel reply hchannel hreply
    rcases Option.map_eq_some_iff.mp hreply with ⟨result, hresult, -⟩
    exact h.channel_of_result hsound hchannel hresult
  rcases hawaits with hwaiting | ⟨channel, reply, hchannel, hreply, hreplied⟩
  . rcases h.waits hwaiting with hsame | hheard
    . exact .inl hsame
    . rw [ChildTable.hear] at hheard
      split at hheard
      . next reply hbind =>
        rcases Option.bind_eq_some_iff.mp hbind with ⟨channel, hchannel, hreply⟩
        exact .inr ⟨channel, reply, hstays hchannel hreply, hreply, hheard⟩
      . exact .inl hheard
  . rcases h.waits hreplied with hsame | hheard
    . exact .inr ⟨channel, reply, hstays hchannel hreply, hreply, hsame⟩
    . exact .inr ⟨channel, reply, hstays hchannel hreply, hreply, hheard⟩

theorem Awaits.run? (hawaits : c.Awaits w n) (hsound : c.Sound) (h : c.run? es = some c') : c'.Awaits w n := by
  have hboth := run?_induction (motive := fun _ c => c.Sound ∧ c.Awaits w n) [] h ⟨hsound, hawaits⟩
    fun _ _ _ _ hboth htakes => ⟨hboth.1.takes htakes, hboth.2.takes hboth.1 htakes⟩
  exact hboth.2

structure Learns (c : Custody) (w : Nat) (pid : Pid) (n : Nat) (es : List Event) : Prop where
  truthful : ∀ reply, c.waits[w]? = some (.replied reply) → ∃ result, .publish n result ∈ es ∧ reply = answer pid result
  heard : ∀ result, .publish n result ∈ es →
    ∃ c', c.step? (.hear w) = some c' ∧ c'.waits[w]? = some (.replied (answer pid result))

theorem Awaits.learns (hawaits : c.Awaits w n) (htraced : Traced n pid es c) : c.Learns w pid n es := by
  rcases htraced.channel with ⟨channel, hchannel, rfl, hpublished⟩
  constructor
  . intro reply hreply
    rcases hawaits with hwaiting | ⟨channel', reply', hchannel', hreply', hreplied⟩
    . cases hwaiting.symm.trans hreply
    . cases hreplied.symm.trans hreply
      cases hchannel.symm.trans hchannel'
      rcases Option.map_eq_some_iff.mp hreply' with ⟨result, hresult, rfl⟩
      exact ⟨result, (hpublished result).mp hresult, rfl⟩
  . intro result hresult
    have hreply : channel.reply? = some (answer channel.pid result) :=
      Option.map_eq_some_iff.mpr ⟨result, (hpublished result).mpr hresult, rfl⟩
    have ⟨pending, hpending, hhear⟩ : ∃ pending, c.waits[w]? = some pending ∧
        c.table.hear pending = .replied (answer channel.pid result) := by
      rcases hawaits with hwaiting | ⟨channel', reply', hchannel', hreply', hreplied⟩
      . refine ⟨_, hwaiting, ?_⟩
        rw [ChildTable.hear, hchannel, Option.bind_some, hreply]
      . cases hchannel.symm.trans hchannel'
        cases hreply.symm.trans hreply'
        exact ⟨_, hreplied, rfl⟩
    have hbegun := (List.getElem?_eq_some_iff.mp hpending).1
    refine ⟨{ c with waits := c.waits.modify w c.table.hear }, if_pos hbegun, ?_⟩
    simp [hpending, hhear]

end Waits

end Custody

end BoxRegistry.Host

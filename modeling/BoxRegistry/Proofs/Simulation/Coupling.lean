import BoxRegistry.Proofs.Registry.ExitWatch
import BoxRegistry.Proofs.Registry.Process
import BoxRegistry.Proofs.Simulation.Flights

/-!
This module contains the invariant that ties a registry to the backend in memory that it is run on and to
the calls that are in flight between them. It is kept by every event of the registry, whatever the backend
replies.
-/

namespace BoxRegistry.Simulation

open Registry (Tidy Evolves evolves)

/--
A registry, a backend and the calls in flight belong together: a process that is alive is that of a box, no
two boxes have one process, a task that believes a process to be over is right, and the calls in flight
are those that tasks wait for.
-/
structure Coupled (r : Registry) (b : Backend) (flights : List Flight) : Prop where
  tidy : b.Tidy
  known : ∀ slot c pid, r.cell? slot = some c → c.box.record.pid = some pid → pid < b.nextPid
  owned : ∀ pid, b.isAlive pid = true → ∃ slot c, r.cell? slot = some c ∧ c.box.Runs pid
  unique : ∀ slot slot' c c' pid, r.cell? slot = some c → r.cell? slot' = some c' →
    c.box.record.pid = some pid → c'.box.record.pid = some pid → slot = slot'
  past : ∀ slot c t d pid, r.cell? slot = some c → c.duty t = some d → d.over? = some pid →
    pid < b.nextPid ∧ b.isAlive pid = false
  serves : ∀ f ∈ flights, ∃ task, r.task? f.task = some task ∧ f.Serves r.limits task.duty
  waits : ∀ t task, r.task? t = some task → task.duty.waits = true → ∃ f ∈ flights, f.task = t
  single : (flights.map Flight.task).Nodup

/--
What a backend does while a registry takes an event: it launches a process only in reply to a launch, and
what a reply says of the end of a process is true.
-/
structure Backs (r : Registry) (e : Registry.Event) (b b' : Backend) : Prop where
  tidy : b'.Tidy
  next : b.nextPid ≤ b'.nextPid
  alive : ∀ pid, b'.isAlive pid = true →
    b.isAlive pid = true ∨ ∃ slot c, r.cell? slot = some c ∧ c.Launches pid e
  launched : ∀ slot c pid, r.cell? slot = some c → c.Launches pid e → pid = b.nextPid ∧ pid < b'.nextPid
  learns : ∀ slot c t pid, r.cell? slot = some c → c.Learns t pid e → b'.isAlive pid = false
  parted : ∀ slot c now task op pid how, r.cell? slot = some c → e = .reply now task (.ended how) →
    c.duty task = some (.work op (.parting pid)) → b'.isAlive pid = false
  killed : ∀ slot c now task op pid reply, r.cell? slot = some c → e = .reply now task reply →
    c.duty task = some (.work op (.killing pid)) → b.refusesKill = false → b'.isAlive pid = false
  refuses : b'.refusesKill = b.refusesKill
  suspended : ∀ pid, b'.isAlive pid = true → b'.isPaused pid = (e.suspends? r pid).getD (b.isPaused pid)
  obeyed : ∀ now t reply pid, e = .reply now t reply → (e.suspends? r pid).isSome = true →
    b'.isAlive pid = true → reply = .done

structure Carries (r : Registry) (e : Registry.Event) (flights flights' : List Flight) : Prop where
  flights : ∃ begun,
    flights' = ((flights.filter fun f => e.task? ≠ some f.task) ++ begun).filter
        (fun f => ((r.step e).1.task? f.task).isSome) ∧
      begun.map Flight.task = (r.step e).2.filterMap Effect.caller? ∧ ∀ f ∈ begun, f.Begun (r.step e).2

variable {r : Registry} {b b' : Backend} {flights flights' : List Flight} {e : Registry.Event}

theorem Backs.dead (hbacks : Backs r e b b') {pid : Pid} (hlt : pid < b.nextPid)
    (hdead : b.isAlive pid = false)
    : b'.isAlive pid = false := by
  apply eq_false_of_ne_true
  intro halive
  rcases hbacks.alive pid halive with hold | ⟨slot, c, hc, hlaunches⟩
  . rw [hdead] at hold
    cases hold
  . rw [(hbacks.launched slot c pid hc hlaunches).1] at hlt
    exact Nat.lt_irrefl _ hlt

namespace Coupled

section Boxes

theorem dead_of_ends (h : Coupled r b flights) (hbacks : Backs r e b b') {slot : Slot} {c : Cell}
    (hc : r.cell? slot = some c) {pid : Pid} (hends : c.Ends pid e)
    : b'.isAlive pid = false := by
  cases hends with
  | @operation now task op stage reply duty ends =>
    rcases ends with rfl | ⟨rfl, how, rfl⟩
    . have hover := h.past slot c task _ pid hc duty rfl
      exact hbacks.dead hover.1 hover.2
    . exact hbacks.parted slot c now task op pid how hc rfl duty
  | @noticed now task result duty =>
    have hover := h.past slot c task _ pid hc duty rfl
    exact hbacks.dead hover.1 hover.2
  | @watched now task reply duty whole => exact hbacks.learns slot c task pid hc (.watched duty whole)

theorem lt_of_learns (h : Coupled r b flights) {slot : Slot} {c : Cell} (hc : r.cell? slot = some c)
    (hsound : c.Sound) {t : TaskId} {pid : Pid} (hlearns : c.Learns t pid e)
    : pid < b.nextPid := by
  cases hlearns with
  | watched duty whole =>
    rcases hsound.watch t _ (hsound.vigil t _ duty rfl) duty with ⟨pid', hpid', hrecord⟩
    cases hpid'
    exact h.known slot c pid hc hrecord
  | killed duty whole done => exact h.known slot c pid hc (hsound.fits t _ _ duty).2.1.pid

theorem known_step (h : Coupled r b flights) (htidy : r.Tidy)
    (hsound : ∀ slot c, r.cell? slot = some c → c.Sound) (hbacks : Backs r e b b')
    : ∀ slot c pid, (r.step e).1.cell? slot = some c → c.box.record.pid = some pid →
      (∃ c₀, r.cell? slot = some c₀ ∧ (c₀.box.record.pid = some pid ∨ c₀.Launches pid e)) ∧
        pid < b'.nextPid := by
  intro slot c' pid hc' hpid
  rcases (evolves htidy e).before hc' with ⟨spec, rfl⟩ | ⟨c, hc, rfl⟩
  . cases hpid
  . have hchanges := (hsound slot c hc).changes_step r.limits r.nextTask slot e
    have hpid := hchanges.pid pid hpid
    refine ⟨⟨c, hc, hpid⟩, ?_⟩
    cases hpid with
    | inl hold => exact Nat.lt_of_lt_of_le (h.known slot c pid hc hold) hbacks.next
    | inr hlaunches => exact (hbacks.launched slot c pid hc hlaunches).2

theorem owned_step (h : Coupled r b flights) (htidy : r.Tidy)
    (hsound : ∀ slot c, r.cell? slot = some c → c.Sound) (hbacks : Backs r e b b')
    : ∀ pid, b'.isAlive pid = true → ∃ slot c, (r.step e).1.cell? slot = some c ∧ c.box.Runs pid := by
  intro pid halive
  -- The process was alive before, and the box that had it still does, or it is launched for a box just now.
  rcases hbacks.alive pid halive with hold | ⟨slot, c, hc, hlaunches⟩
  . rcases h.owned pid hold with ⟨slot, c, hc, hruns⟩
    refine ⟨slot, _, (evolves htidy e).cell slot c hc, ?_⟩
    cases ((hsound slot c hc).changes_step r.limits r.nextTask slot e).kept pid hruns with
    | inl hkept => exact hkept
    | inr hends =>
      rw [h.dead_of_ends hbacks hc hends] at halive
      cases halive
  . refine ⟨slot, _, (evolves htidy e).cell slot c hc, ?_⟩
    exact ((hsound slot c hc).changes_step r.limits r.nextTask slot e).launched pid hlaunches

theorem unique_step (h : Coupled r b flights) (htidy : r.Tidy)
    (hsound : ∀ slot c, r.cell? slot = some c → c.Sound) (hbacks : Backs r e b b')
    : ∀ slot slot' c c' pid, (r.step e).1.cell? slot = some c → (r.step e).1.cell? slot' = some c' →
      c.box.record.pid = some pid → c'.box.record.pid = some pid → slot = slot' := by
  intro slot slot' c c' pid hc hc' hpid hpid'
  rcases (h.known_step htidy hsound hbacks slot c pid hc hpid).1 with ⟨c₀, hc₀, hold⟩
  rcases (h.known_step htidy hsound hbacks slot' c' pid hc' hpid').1 with ⟨c₀', hc₀', hold'⟩
  have hnew : ∀ slot c slot' c', r.cell? slot = some c → r.cell? slot' = some c' →
      c.box.record.pid = some pid → ¬c'.Launches pid e := by
    intro slot c slot' c' hc hc' hpid hlaunches
    have := h.known slot c pid hc hpid
    rw [(hbacks.launched slot' c' pid hc' hlaunches).1] at this
    exact Nat.lt_irrefl _ this
  rcases hold with hold | hlaunches
  . rcases hold' with hold' | hlaunches'
    . exact h.unique slot slot' c₀ c₀' pid hc₀ hc₀' hold hold'
    . exact absurd hlaunches' (hnew slot c₀ slot' c₀' hc₀ hc₀' hold)
  . rcases hold' with hold' | hlaunches'
    . exact absurd hlaunches (hnew slot' c₀' slot c₀ hc₀' hc₀ hold')
    . -- One task launches both, and it works on one box.
      rcases hlaunches with ⟨now, task, op, rfl, hduty⟩
      rcases hlaunches' with ⟨now', task', op', heq, hduty'⟩
      cases heq
      have htask := Registry.task?_of_duty hc₀ hduty
      rw [Registry.task?_of_duty hc₀' hduty'] at htask
      cases htask
      rfl

theorem over_step (h : Coupled r b flights) (htidy : r.Tidy)
    (hsound : ∀ slot c, r.cell? slot = some c → c.Sound) (hbacks : Backs r e b b')
    : ∀ slot c t d pid, (r.step e).1.cell? slot = some c → c.duty t = some d → d.over? = some pid →
      pid < b'.nextPid ∧ b'.isAlive pid = false := by
  intro slot c' t d pid hc' hd hover
  rcases (evolves htidy e).before hc' with ⟨spec, rfl⟩ | ⟨c, hc, rfl⟩
  . cases hd
  . rcases c.over_step r.limits r.nextTask slot e hd hover with ⟨d', hd', hover'⟩ | hlearns
    . have hold := h.past slot c t d' pid hc hd' hover'
      exact ⟨Nat.lt_of_lt_of_le hold.1 hbacks.next, hbacks.dead hold.1 hold.2⟩
    . have hlt := h.lt_of_learns hc (hsound slot c hc) hlearns
      exact ⟨Nat.lt_of_lt_of_le hlt hbacks.next, hbacks.learns slot c t pid hc hlearns⟩

end Boxes

section Flights

theorem caller_of_carries (htidy : r.Tidy) (he : e.Timely r)
    : ∃ spec, (r.step e).2.filterMap Effect.caller? =
      (e.task?.bind ((r.step e).1.made spec)).toList.filterMap Effect.caller? := by
  rcases Registry.calls_step htidy he with ⟨spec, hcalls⟩
  exact ⟨spec, by rw [Effect.filterMap_caller?, hcalls]⟩

theorem made_eq_some {r : Registry} {spec : Spec} {t : TaskId} {effect : Effect}
    : r.made spec t = some effect ↔
      ∃ task call bound, r.task? t = some task ∧ task.duty.call? r.limits spec = some (call, bound) ∧
        effect = .call t call bound := by
  simp only [Registry.made, Duty.made, Option.bind_eq_some_iff, Option.map_eq_some_iff, Prod.exists]
  constructor
  . rintro ⟨task, htask, call, bound, hcall, rfl⟩
    exact ⟨task, call, bound, htask, hcall, rfl⟩
  . rintro ⟨task, call, bound, htask, hcall, rfl⟩
    exact ⟨task, htask, call, bound, hcall, rfl⟩

theorem call?_of_waits {d : Duty} (h : d.waits = true) (limits : Limits) (spec : Spec)
    : ∃ call bound, d.call? limits spec = some (call, bound) := by
  cases d with
  | work op stage => exact ⟨_, _, rfl⟩
  | watch pid => exact ⟨_, _, rfl⟩
  | enter op => cases h
  | post pid => cases h
  | notice pid result => cases h

theorem serves_step (h : Coupled r b flights) (htidy : r.Tidy) (he : e.Timely r)
    (hcarries : Carries r e flights flights')
    : ∀ f ∈ flights', ∃ task, (r.step e).1.task? f.task = some task ∧
      f.Serves (r.step e).1.limits task.duty := by
  rcases hcarries.flights with ⟨begun, rfl, -, hbegun⟩
  intro f hf
  rw [List.mem_filter, List.mem_append, List.mem_filter, Option.isSome_iff_exists] at hf
  rcases hf with ⟨hf, task, htask⟩
  refine ⟨task, htask, ?_⟩
  rw [(evolves htidy e).limits]
  -- A flight is one whose task had no part in the event, or it carries a call of the event.
  rcases hf with ⟨hold, hne⟩ | hnew
  . have hne : e.task? ≠ some f.task := by simpa using hne
    rcases h.serves f hold with ⟨task', htask', hserves⟩
    rcases Registry.task?_step htidy hne htask with hsame | ⟨hle, -⟩
    . rw [htask'] at hsame
      rw [← Option.some.inj hsame]
      exact hserves
    . exact absurd (htidy.fresh f.task task' htask') (Nat.not_lt.mpr hle)
  . rcases hbegun f hnew with ⟨call, bound, hcall, hstands⟩
    rcases Registry.calls_step htidy he with ⟨spec, hcalls⟩
    have hmem : Effect.call f.task call bound ∈ (r.step e).2.filter Effect.isCall :=
      List.mem_filter.mpr ⟨hcall, rfl⟩
    rw [hcalls, Option.mem_toList, Option.bind_eq_some_iff] at hmem
    rcases hmem with ⟨t, -, hmade⟩
    rcases made_eq_some.mp hmade with ⟨task', call', bound', htask', hcall', heq⟩
    cases heq
    rw [htask'] at htask
    cases htask
    rw [(evolves htidy e).limits] at hcall'
    exact ⟨spec, call, bound, hcall', hstands⟩

theorem waits_step (h : Coupled r b flights) (htidy : r.Tidy) (he : e.Timely r)
    (hcarries : Carries r e flights flights')
    : ∀ t task, (r.step e).1.task? t = some task → task.duty.waits = true → ∃ f ∈ flights', f.task = t := by
  rcases hcarries.flights with ⟨begun, rfl, hcallers, -⟩
  intro t task htask hwaits
  have hkept : ∀ f : Flight, f.task = t → ((r.step e).1.task? f.task).isSome = true := by
    rintro f rfl
    rw [htask]
    rfl
  by_cases ht : e.task? = some t
  . rcases caller_of_carries htidy he with ⟨spec, hcaller⟩
    rcases call?_of_waits hwaits (r.step e).1.limits spec with ⟨call, bound, hcall⟩
    rw [ht, Option.bind_some, made_eq_some.mpr ⟨task, call, bound, htask, hcall, rfl⟩] at hcaller
    have hmem : t ∈ begun.map Flight.task := by
      rw [hcallers, hcaller]
      exact List.mem_singleton_self t
    rcases List.mem_map.mp hmem with ⟨f, hf, hft⟩
    exact ⟨f, List.mem_filter.mpr ⟨List.mem_append_right _ hf, hkept f hft⟩, hft⟩
  . rcases Registry.task?_step htidy ht htask with hold | ⟨-, hfirst⟩
    . rcases h.waits t task hold hwaits with ⟨f, hf, rfl⟩
      refine ⟨f, List.mem_filter.mpr ⟨List.mem_append_left _ ?_, hkept f rfl⟩, rfl⟩
      exact List.mem_filter.mpr ⟨hf, by simpa using ht⟩
    . rw [Duty.waits_of_isFirst hfirst] at hwaits
      cases hwaits

theorem single_step (h : Coupled r b flights) (htidy : r.Tidy) (he : e.Timely r)
    (hcarries : Carries r e flights flights')
    : (flights'.map Flight.task).Nodup := by
  rcases hcarries.flights with ⟨begun, rfl, hcallers, -⟩
  have hsub : ∀ (p : Flight → Bool) (fs : List Flight), ((fs.filter p).map Flight.task).Sublist (fs.map Flight.task) :=
    fun p fs => List.filter_sublist.map Flight.task
  apply (hsub _ _).nodup
  rw [List.map_append, hcallers, List.nodup_append]
  rcases caller_of_carries htidy he with ⟨spec, hcaller⟩
  rw [hcaller]
  refine ⟨(hsub _ _).nodup h.single, ?_, ?_⟩
  . cases e.task?.bind ((r.step e).1.made spec) with
    | none => simp
    | some effect => cases effect <;> simp [Effect.caller?, List.filterMap_cons]
  . rintro t ht t' ht' rfl
    rcases List.mem_map.mp ht with ⟨f, hf, rfl⟩
    have hne : e.task? ≠ some f.task := by simpa using (List.mem_filter.mp hf).2
    rw [List.mem_filterMap] at ht'
    rcases ht' with ⟨effect, heffect, hcaller⟩
    rw [Option.mem_toList, Option.bind_eq_some_iff] at heffect
    rcases heffect with ⟨t, ht, hmade⟩
    rcases made_eq_some.mp hmade with ⟨_, _, _, -, -, rfl⟩
    cases hcaller
    exact hne ht

end Flights

theorem step (h : Coupled r b flights) (htidy : r.Tidy) (hsound : ∀ slot c, r.cell? slot = some c → c.Sound)
    (he : e.Timely r) (hbacks : Backs r e b b') (hcarries : Carries r e flights flights')
    : Coupled (r.step e).1 b' flights' where
  tidy := hbacks.tidy
  known slot c pid hc hpid := (h.known_step htidy hsound hbacks slot c pid hc hpid).2
  owned := h.owned_step htidy hsound hbacks
  unique := h.unique_step htidy hsound hbacks
  past := h.over_step htidy hsound hbacks
  serves := h.serves_step htidy he hcarries
  waits := h.waits_step htidy he hcarries
  single := h.single_step htidy he hcarries

end Coupled

end BoxRegistry.Simulation

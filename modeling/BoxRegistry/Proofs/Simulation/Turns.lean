import BoxRegistry.Proofs.Simulation.Coupling

namespace BoxRegistry.Simulation

open Registry (OnlyLaunchesBreakOff)

section Backs

variable {r : Registry} {b b' : Backend} {t : TaskId} {task : Task}

theorem backs_of_same (h : b.Tidy) (hsame : b.Same b') {e : Registry.Event}
    (he : ∀ now task reply, e ≠ .reply now task reply)
    : Backs r e b b' where
  tidy := hsame.tidy h
  next := Nat.le_of_eq hsame.nextPid.symm
  alive pid halive := by
    rw [hsame.isAlive] at halive
    exact .inl halive
  launched slot c pid hc hlaunches := by
    rcases hlaunches with ⟨now, task, op, rfl, -⟩
    exact absurd rfl (he now task _)
  learns slot c t pid hc hlearns := by
    cases hlearns with
    | watched duty whole => exact absurd rfl (he _ _ _)
    | killed duty whole done => exact absurd rfl (he _ _ _)
  parted slot c now task op pid how hc heq := absurd heq (he now task _)
  killed slot c now task op pid reply hc heq := absurd heq (he now task reply)
  refuses := hsame.refusesKill
  suspended pid _ := by
    rw [hsame.isPaused]
    cases e with
    | reply now task reply => exact absurd rfl (he now task reply)
    | _ => rfl
  obeyed now t reply pid heq := absurd heq (he now t reply)

theorem Backs.same {b'' : Backend} {e : Registry.Event} (h : Backs r e b b') (hsame : b'.Same b'')
    : Backs r e b b'' := by
  have halive : ∀ pid, b'.isAlive pid = false → b''.isAlive pid = false := by
    intro pid hpid
    rw [hsame.isAlive, hpid]
  constructor
  . exact hsame.tidy h.tidy
  . rw [hsame.nextPid]
    exact h.next
  . intro pid hpid
    rw [hsame.isAlive] at hpid
    exact h.alive pid hpid
  . rw [hsame.nextPid]
    exact h.launched
  . exact fun slot c t pid hc hlearns => halive pid (h.learns slot c t pid hc hlearns)
  . exact fun slot c now t op pid how hc heq hd => halive pid (h.parted slot c now t op pid how hc heq hd)
  . exact fun slot c now t op pid reply hc heq hd hallowed =>
      halive pid (h.killed slot c now t op pid reply hc heq hd hallowed)
  . rw [hsame.refusesKill, h.refuses]
  . intro pid hpid
    rw [hsame.isAlive] at hpid
    rw [hsame.isPaused]
    exact h.suspended pid hpid
  . intro now t reply pid heq hsuspends hpid
    rw [hsame.isAlive] at hpid
    exact h.obeyed now t reply pid heq hsuspends hpid

theorem call?_of_duty {limits : Limits} {spec : Spec} {slot : Slot} {c : Cell} (hc : r.cell? slot = some c)
    (htask : r.task? t = some task) {d : Duty} (hduty : c.duty t = some d) {call : Call} {bound : Bound}
    (hcall : task.duty.call? limits spec = some (call, bound))
    : d.call? limits spec = some (call, bound) := by
  rw [Registry.task?_of_duty hc hduty] at htask
  cases htask
  exact hcall

theorem backs_of_answered (hr : r.Tidy) (htask : r.task? t = some task) {limits : Limits} {spec : Spec}
    {call : Call} {bound : Bound} (hcall : task.duty.call? limits spec = some (call, bound)) {reply : Reply}
    (h : b.Answered b' call reply) (now : Time.Moment)
    : Backs r (.reply now t reply) b b' where
  tidy := h.tidy
  next := h.next
  alive pid halive := by
    rcases h.alive pid halive with hold | rfl
    . exact .inl hold
    . rcases (h.launched pid rfl).1 with ⟨order, rfl⟩
      rcases task with ⟨slot, d⟩
      rcases Registry.exists_cell? (List.getElem?_eq_getElem (hr.housed t _ htask)) with ⟨c, hc, -⟩
      have hduty : c.duty t = some d := by
        rw [← (Registry.cell?_eq_some.mp hc).2, Registry.duty?_eq_some, htask]
      refine .inr ⟨slot, c, hc, now, t, ?_⟩
      cases d with
      | work op stage =>
        cases stage <;> cases hcall
        exact ⟨op, rfl, hduty⟩
      | watch pid => cases hcall
      | enter op => cases hcall
      | post pid => cases hcall
      | notice pid result => cases hcall
  launched slot c pid hc hlaunches := by
    rcases hlaunches with ⟨now, t, op, heq, hduty⟩
    cases heq
    exact (h.launched pid rfl).2
  learns slot c t pid hc hlearns := by
    cases hlearns with
    | watched duty whole =>
      cases call?_of_duty hc htask duty hcall
      exact h.ended pid rfl
    | killed duty whole done =>
      cases call?_of_duty hc htask duty hcall
      exact h.killed pid rfl (.inl done)
  parted slot c now t op pid how hc heq hduty := by
    cases heq
    cases call?_of_duty hc htask hduty hcall
    exact h.ended pid rfl
  killed slot c now t op pid reply hc heq hduty hallowed := by
    cases heq
    cases call?_of_duty hc htask hduty hcall
    exact h.killed pid rfl (.inr hallowed)
  refuses := h.refuses
  suspended pid halive := by
    simp only [Registry.Event.suspends?, htask, Option.bind_some, Duty.suspends?_of_call? hcall]
    exact (h.suspended pid halive).1
  obeyed now t' reply' pid heq hsuspends halive := by
    cases heq
    simp only [Registry.Event.suspends?, htask, Option.bind_some, Duty.suspends?_of_call? hcall] at hsuspends
    exact (h.suspended pid halive).2 hsuspends

theorem backs_of_late (h : b.Tidy) (hsame : b.Same b') (htask : r.task? t = some task) {limits : Limits}
    {spec : Spec} {call : Call} {bound : Bound} (hcall : task.duty.call? limits spec = some (call, bound))
    (hbound : bound ≠ .unlimited) (now : Time.Moment)
    : Backs r (.reply now t .late) b b' where
  tidy := hsame.tidy h
  next := Nat.le_of_eq hsame.nextPid.symm
  alive pid halive := by
    rw [hsame.isAlive] at halive
    exact .inl halive
  launched slot c pid hc hlaunches := by
    rcases hlaunches with ⟨now, task, op, heq, -⟩
    cases heq
  learns slot c t pid hc hlearns := by
    cases hlearns with
    | watched duty whole =>
      cases call?_of_duty hc htask duty hcall
      exact absurd rfl hbound
    | killed duty whole done =>
      cases call?_of_duty hc htask duty hcall
      exact absurd rfl hbound
  parted slot c now t op pid how hc heq := by cases heq
  killed slot c now t op pid reply hc heq hduty := by
    cases heq
    cases call?_of_duty hc htask hduty hcall
    exact absurd rfl hbound
  refuses := hsame.refusesKill
  suspended pid _ := by
    simp [Registry.Event.suspends?, htask, Duty.suspends?_of_bound hcall hbound, hsame.isPaused]
  obeyed now' t' reply pid heq hsuspends := by
    simp [Registry.Event.suspends?, htask, Duty.suspends?_of_bound hcall hbound] at hsuspends

end Backs

namespace Coupled

variable {r : Registry} {b b' : Backend} {flights flights' : List Flight}

theorem weaken (h : Coupled r b flights) (htidy : b'.Tidy) (hnext : b'.nextPid = b.nextPid)
    (halive : ∀ pid, b'.isAlive pid = true → b.isAlive pid = true)
    : Coupled r b' flights where
  tidy := htidy
  known slot c pid hc hpid := by
    rw [hnext]
    exact h.known slot c pid hc hpid
  owned pid hpid := h.owned pid (halive pid hpid)
  unique := h.unique
  past slot c t d pid hc hd hover := by
    have hold := h.past slot c t d pid hc hd hover
    refine ⟨by rw [hnext]; exact hold.1, ?_⟩
    apply eq_false_of_ne_true
    intro hpid
    have hdead := hold.2
    rw [halive pid hpid] at hdead
    cases hdead
  serves := h.serves
  waits := h.waits
  single := h.single

theorem rewait (h : Coupled r b flights) {f : Flight} (hf : f ∈ flights) (f' : Flight)
    (htask : f'.task = f.task)
    (hserves : ∀ task, r.task? f.task = some task → f'.Serves r.limits task.duty)
    : Coupled r b ((flights.filter fun g => g.task ≠ f.task) ++ [f']) where
  tidy := h.tidy
  known := h.known
  owned := h.owned
  unique := h.unique
  past := h.past
  serves g hg := by
    rw [List.mem_append, List.mem_singleton] at hg
    rcases hg with hold | rfl
    . exact h.serves g (List.mem_filter.mp hold).1
    . rcases h.serves f hf with ⟨task, ht, -⟩
      exact ⟨task, by rw [htask, ht], hserves task ht⟩
  waits t task ht hwaits := by
    rcases h.waits t task ht hwaits with ⟨g, hg, rfl⟩
    by_cases heq : g.task = f.task
    . exact ⟨f', List.mem_append_right _ (List.mem_singleton_self _), by rw [htask, heq]⟩
    . exact ⟨g, List.mem_append_left _ (List.mem_filter.mpr ⟨hg, by simpa using heq⟩), rfl⟩
  single := by
    rw [List.map_append, List.nodup_append]
    refine ⟨(List.filter_sublist.map Flight.task).nodup h.single, by simp, ?_⟩
    intro t ht t' ht' heq
    rcases List.mem_map.mp ht with ⟨g, hg, rfl⟩
    rw [List.map_singleton, List.mem_singleton, htask] at ht'
    have hne : g.task ≠ f.task := by simpa using (List.mem_filter.mp hg).2
    exact hne (by rw [heq, ht'])

end Coupled

namespace World

variable {w w' : World Backend Event}

structure Sane (limits : Limits) (w : World Backend Event) : Prop where
  reachable : Registry.Reachable limits OnlyLaunchesBreakOff w.service.registry
  coupled : Coupled w.service.registry w.backend w.flights

structure Acts (w w' : World Backend Event) (e : Registry.Event) : Prop where
  timely : e.Timely w.service.registry
  allowed : OnlyLaunchesBreakOff w.service.registry e
  service : w'.service = (w.service.update (w.service.registry.step e)).1
  results : w'.results = ((w.service.registry.step e).2.filterMap Effect.result?).reverse ++ w.results
  backs : Backs w.service.registry e w.backend w'.backend
  carries : Carries w.service.registry e w.flights w'.flights

structure Waits (w w' : World Backend Event) : Prop where
  service : w'.service = w.service
  backend : w'.backend = w.backend
  results : w'.results = w.results
  coupled : Coupled w'.service.registry w'.backend w'.flights

theorem Sane.acts {limits : Limits} (h : w.Sane limits) {e : Registry.Event} (hacts : Acts w w' e)
    : w'.Sane limits := by
  have hregistry : w'.service.registry = (w.service.registry.step e).1 := by
    rw [hacts.service]
    rfl
  constructor
  . rw [hregistry]
    exact h.reachable.step hacts.allowed
  . rw [hregistry]
    apply h.coupled.step (Registry.tidy_of_reachable h.reachable) _ hacts.timely hacts.backs hacts.carries
    exact fun slot c hc => Registry.sound_of_reachable h.reachable hc

theorem acts_update {e : Registry.Event} {t : TaskId} (ht : e.task? = some t) (htimely : e.Timely w.service.registry)
    (hallowed : OnlyLaunchesBreakOff w.service.registry e) {b : Backend}
    (hbacks : Backs w.service.registry e w.backend b) (previous : Option Timer)
    : Acts w (update { w with backend := b, flights := w.flights.filter fun f => f.task ≠ t }
        (w.service.update (w.service.registry.step e)) previous) e := by
  have hupdated := updated_update (w := { w with backend := b, flights := w.flights.filter fun f => f.task ≠ t })
    hbacks.tidy.scripts (w.service.update (w.service.registry.step e)) previous
  refine ⟨htimely, hallowed, hupdated.service, hupdated.results, hbacks.same hupdated.backend, ?_⟩
  rcases hupdated.flights with ⟨begun, hflights, hcallers, hbegun⟩
  refine ⟨begun, ?_, hcallers, hbegun⟩
  rw [hflights, ht]
  simp only [ne_eq, Option.some.injEq, eq_comm]
  rfl

theorem acts_of_idle {limits : Limits} (h : w.Sane limits) {t : TaskId} (hidle : ∀ f ∈ w.flights, f.task ≠ t)
    : Acts w (w.update (w.service.run w.now t)) (.turn w.now t) := by
  have hflights : w.flights.filter (fun f => f.task ≠ t) = w.flights := by
    rw [List.filter_eq_self]
    intro f hf
    simpa using hidle f hf
  have htimely : Registry.Event.Timely w.service.registry (.turn w.now t) := by
    intro task htask
    apply eq_false_of_ne_true
    intro hwaits
    rcases h.coupled.waits t task htask hwaits with ⟨f, hf, hft⟩
    exact hidle f hf hft
  have hbacks : Backs w.service.registry (.turn w.now t) w.backend w.backend :=
    backs_of_same h.coupled.tidy (.refl _) (by simp)
  have := acts_update rfl htimely trivial hbacks none
  rw [hflights] at this
  exact this

section Reply

variable {limits limits' : Limits} {f : Flight} {task : Task} {spec : Spec} {call : Call} {bound : Bound}

theorem timely_of_call (htask : w.service.registry.task? f.task = some task)
    (hcall : task.duty.call? limits' spec = some (call, bound)) (reply : Reply)
    : Registry.Event.Timely w.service.registry (.reply w.now f.task reply) := by
  intro task' htask'
  rw [htask] at htask'
  cases htask'
  exact Duty.waits_of_call? hcall

theorem acts_of_answered (h : w.Sane limits) (htask : w.service.registry.task? f.task = some task)
    (hcall : task.duty.call? limits' spec = some (call, bound)) {b : Backend} {reply : Reply}
    (hanswered : w.backend.Answered b call reply)
    : Acts w (update { w with backend := b, flights := w.flights.filter fun g => g.task ≠ f.task }
        (w.service.answer w.now f.task reply) f.deadline) (.reply w.now f.task reply) := by
  have hallowed : OnlyLaunchesBreakOff w.service.registry (.reply w.now f.task reply) := by
    cases reply with
    | panicked message =>
      rcases hanswered.panicked message rfl with ⟨order, rfl⟩
      rcases task with ⟨slot, d⟩
      rcases Duty.eq_launching_of_call? hcall with ⟨op, rfl⟩
      exact ⟨slot, op, htask⟩
    | _ => trivial
  have hbacks := backs_of_answered (Registry.tidy_of_reachable h.reachable) htask hcall hanswered w.now
  exact acts_update rfl (timely_of_call htask hcall reply) hallowed hbacks f.deadline

-- Only a call that has to be answered in time has a deadline.
theorem acts_of_late (h : w.Sane limits) (htask : w.service.registry.task? f.task = some task)
    (hcall : task.duty.call? limits' spec = some (call, bound)) (hdeadline : bound = .unlimited → f.deadline = none)
    (hdue : f.deadline.isSome)
    : Acts w (update { w with flights := w.flights.filter fun g => g.task ≠ f.task }
        (w.service.answer w.now f.task .late) f.deadline) (.reply w.now f.task .late) := by
  have hbound : bound ≠ .unlimited := by
    intro hunlimited
    rw [hdeadline hunlimited] at hdue
    cases hdue
  have hbacks := backs_of_late h.coupled.tidy (.refl _) htask hcall hbound w.now
  exact acts_update rfl (timely_of_call htask hcall .late) trivial hbacks f.deadline

end Reply

theorem runTask_cases {limits : Limits} (h : w.Sane limits) (t : TaskId)
    : (∃ e, e.task? = some t ∧ Acts w (w.runTask t) e) ∨ Waits w (w.runTask t) := by
  unfold runTask
  cases hfind : w.flights.find? fun f => f.task = t with
  | none =>
    refine .inl ⟨.turn w.now t, rfl, acts_of_idle h ?_⟩
    intro f hf
    have := List.find?_eq_none.mp hfind f hf
    simpa using this
  | some f =>
    have hf := List.mem_of_find?_eq_some hfind
    obtain rfl : f.task = t := by simpa using List.find?_some hfind
    rcases h.coupled.serves f hf with ⟨task, htask, spec, call, bound, hcall, hstands, hdeadline⟩
    have hpolled := Backend.polled_poll h.coupled.tidy hstands w.clock
    dsimp only
    rw [show Engine.poll w.backend w.clock f.pending = w.backend.poll w.clock f.pending from rfl]
    generalize w.backend.poll w.clock f.pending = out at hpolled
    cases hpolled with
    | @replied b reply hanswered =>
      exact .inl ⟨.reply w.now f.task reply, rfl, acts_of_answered h htask hcall hanswered⟩
    | @stands pending hstands' _ =>
      -- The call still stands: the task gives it up if it is late, or else goes on waiting.
      have hwait : ∀ serial, Coupled w.service.registry w.backend
          ((w.flights.filter fun g => g.task ≠ f.task) ++ [{ f with pending, serial }]) := by
        intro serial
        apply h.coupled.rewait hf { f with pending, serial } rfl
        intro task' htask'
        rw [htask] at htask'
        rw [← Option.some.inj htask']
        exact ⟨spec, call, bound, hcall, hstands', hdeadline⟩
      cases pending with
      | replied reply => cases hstands'
      | _ =>
        dsimp only
        split
        . next hdue =>
          have hbounded : f.deadline.isSome := by
            rcases (Option.any_eq_true ..).mp hdue with ⟨d, hd, -⟩
            rw [hd]
            rfl
          exact .inl ⟨.reply w.now f.task .late, rfl, acts_of_late h htask hcall hdeadline hbounded⟩
        . exact .inr ⟨rfl, rfl, rfl, hwait _⟩

end World

end BoxRegistry.Simulation

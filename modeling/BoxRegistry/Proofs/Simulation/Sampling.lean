import BoxRegistry.Proofs.Registry.Samples
import BoxRegistry.Proofs.Registry.ExitWatch
import BoxRegistry.Proofs.Simulation.Listing
import BoxRegistry.Simulation.Backend

namespace BoxRegistry.Simulation

open Registry (Reachable lastUsage)

namespace Sampler

def attempt (s : Sampler) (limit : Nat) (pid : Pid) : Attempt :=
  if s.panics then .breaksOff
  else if s.hangs pid then .late
  else if s.unavailable then .unavailable
  else if limit = 0 then .late
  else .value s.usage

theorem reading_sample (s : Sampler) (limit : Nat) (pid : Pid)
    : (s.sample limit pid).2.2 = (s.attempt limit pid).reading := by
  unfold sample attempt
  cases s.panics <;> cases s.hangs pid <;> cases s.unavailable <;> by_cases hlimit : limit = 0 <;>
    simp [hlimit, Attempt.reading]

theorem attempt_sample (s : Sampler) (limit : Nat) (pid : Pid) : (s.sample limit pid).1.attempt = s.attempt := by
  unfold sample
  split
  . rfl
  . dsimp only
    split
    . rfl
    . split <;> rfl

end Sampler

def showing (copy : Slot × Record) (reading : Option Usage) : Registry.Event :=
  .describe copy.1 copy.2 reading

def finished (es : List Exposure) : List Registry.Event :=
  es.flatMap fun e => if e.result.isSome then [showing e.copy e.reading] else []

theorem finished_cons (e : Exposure) (es : List Exposure) : finished (e :: es) = finished [e] ++ finished es := by
  simp [finished]

theorem mem_finished {es : List Exposure} {x : Registry.Event}
    : x ∈ finished es ↔ ∃ e ∈ es, e.result.isSome = true ∧ x = showing e.copy e.reading := by
  simp only [finished, List.mem_flatMap]
  constructor
  . rintro ⟨e, he, hx⟩
    split at hx
    . next hsome => exact ⟨e, he, hsome, List.mem_singleton.mp hx⟩
    . cases hx
  . rintro ⟨e, he, hsome, rfl⟩
    exact ⟨e, he, by simp [hsome]⟩

theorem finished_of_all {es : List Exposure} (h : ∀ e ∈ es, e.result.isSome = true)
    : finished es = es.map fun e => showing e.copy e.reading := by
  induction es with
  | nil => rfl
  | cons e es ih =>
    rw [finished_cons, ih fun e he => h e (List.mem_cons_of_mem _ he)]
    simp [finished, h e List.mem_cons_self]

theorem unsampled_after_showing {es : List Registry.Event} (h : ∀ x ∈ es, ∃ copy reading, x = showing copy reading)
    (r : Registry)
    : (r.after es).unsampled = r.unsampled := by
  apply Registry.unsampled_after
  intro x hx
  rcases h x hx with ⟨copy, reading, rfl⟩
  exact ⟨_, _, _, rfl⟩

theorem after_of_unread {es : List Registry.Event} (h : ∀ x ∈ es, ∃ copy, x = showing copy none) (r : Registry)
    : r.after es = r := by
  induction es with
  | nil => rfl
  | cons x es ih =>
    rcases h x List.mem_cons_self with ⟨copy, rfl⟩
    have hself : (r.step (showing copy none)).1 = r := r.describe_eq_self copy.1 copy.2
    rw [Registry.after_cons, hself, ih fun x hx => h x (List.mem_cons_of_mem _ hx)]

theorem perm_later {events others own : List Registry.Event} (h : events.Perm (others ++ own))
    (more : List Registry.Event)
    : (events ++ more).Perm (others ++ more ++ own) := by
  have hown : (others ++ own ++ more).Perm (others ++ more ++ own) := by
    simp only [List.append_assoc]
    exact List.perm_append_comm.append_left others
  exact (h.append_right more).trans hown

def Shown (r : Registry) (events : List Registry.Event) (copy : Slot × Record) (reading : Option Usage)
    (s : Snapshot) : Prop :=
  ∃ first second, events = first ++ showing copy reading :: second ∧
    ((r.after first).describe copy.1 copy.2 reading).1 = some s

theorem Shown.append {r : Registry} {events : List Registry.Event} {copy : Slot × Record} {reading : Option Usage}
    {s : Snapshot} (h : Shown r events copy reading s) (more : List Registry.Event)
    : Shown r (events ++ more) copy reading s := by
  rcases h with ⟨first, second, rfl, hs⟩
  exact ⟨first, second ++ more, by simp, hs⟩

structure Exposure.Stands (r : Registry) (fresh : Slot × Record → Option Usage) (deadline : Nat)
    (events : List Registry.Event) (e : Exposure) : Prop where
  reading : e.reading = fresh e.copy
  shown : ∀ s, e.result = some s → Shown r events e.copy e.reading s
  due : e.due ≤ deadline

theorem Exposure.Stands.append {r : Registry} {fresh : Slot × Record → Option Usage} {deadline : Nat}
    {events : List Registry.Event} {e : Exposure} (h : e.Stands r fresh deadline events) (more : List Registry.Event)
    : e.Stands r fresh deadline (events ++ more) where
  reading := h.reading
  shown s hs := (h.shown s hs).append more
  due := h.due

namespace World

variable {β ε : Type} {limits : Limits} {r : Registry} {fresh : Slot × Record → Option Usage} {w : World β ε}
variable {deadline : Nat} {copies : List (Slot × Record)} {events : List Registry.Event}

def reads (w : World β ε) (copy : Slot × Record) : Option Usage :=
  (Box.sampledPid? copy.2).bind fun pid => (w.sampler.attempt w.service.registry.limits.sample.ticks pid).reading

theorem expose_reads (copy : Slot × Record) (hreads : ∀ copy, w.reads copy = fresh copy)
    (hdeadline : w.clock + w.service.registry.limits.sample.ticks ≤ deadline)
    : let out := w.expose copy.1 copy.2
      (∃ sampler, out.1 = { w with sampler }) ∧ (∀ copy, out.1.reads copy = fresh copy) ∧ out.2.copy = copy ∧
        out.2.reading = fresh copy ∧ out.2.due ≤ deadline ∧
        ∀ s, out.2.result = some s →
          out.2.reading = none ∧ (w.service.registry.describe copy.1 copy.2 none).1 = some s := by
  have hcopy := hreads copy
  unfold expose
  unfold World.reads at hcopy
  split
  . next hpid =>
    rw [hpid] at hcopy
    dsimp only
    rw [w.service.registry.describe_eq_self copy.1 copy.2]
    exact ⟨⟨w.sampler, rfl⟩, hreads, rfl, hcopy, Nat.le_trans (Nat.le_add_right _ _) hdeadline, fun s hs => ⟨rfl, hs⟩⟩
  . next pid hpid =>
    rw [hpid] at hcopy
    refine ⟨⟨_, rfl⟩, ?_, rfl, ?_, ?_, fun s hs => nomatch hs⟩
    . intro copy
      rw [← hreads copy]
      simp only [World.reads, Sampler.attempt_sample]
    . exact (Sampler.reading_sample ..).trans hcopy
    . exact Nat.le_trans (Nat.add_le_add_left (span_sample_le ..) _) hdeadline

theorem exposeAll_reads (copies : List (Slot × Record)) (hreads : ∀ copy, w.reads copy = fresh copy)
    (hdeadline : w.clock + w.service.registry.limits.sample.ticks ≤ deadline)
    : let out := w.exposeAll copies
      (∃ sampler, out.1 = { w with sampler }) ∧ out.2.map Exposure.copy = copies ∧
        ∀ e ∈ out.2, e.reading = fresh e.copy ∧ e.due ≤ deadline ∧
          ∀ s, e.result = some s →
            e.reading = none ∧ (w.service.registry.describe e.copy.1 e.copy.2 none).1 = some s := by
  induction copies generalizing w with
  | nil => exact ⟨⟨w.sampler, rfl⟩, rfl, by simp [exposeAll]⟩
  | cons copy copies ih =>
    have hhead := expose_reads copy hreads hdeadline
    rcases hout : w.expose copy.1 copy.2 with ⟨w₁, e₁⟩
    rw [hout] at hhead
    rcases hhead with ⟨⟨sampler, rfl⟩, hreads', hcopy, hreading, hdue, hshown⟩
    rcases ih hreads' hdeadline with ⟨hworld, hcopies, hrest⟩
    simp only [exposeAll, hout]
    refine ⟨hworld, congrArg₂ List.cons hcopy hcopies, ?_⟩
    intro e he
    rcases List.mem_cons.mp he with rfl | he
    . rw [hcopy]
      exact ⟨hreading, hdue, hshown⟩
    . exact hrest e he

section Develop

variable (hr : Reachable limits (fun _ _ => True) r)
include hr

theorem develop_stands (hw : w.service.registry = r.after events) {e : Exposure} (hcopy : e.copy ∈ r.listing)
    (he : e.Stands r fresh deadline events)
    : let out := w.develop e
      ∃ more, out.1 = { w with service := { w.service with registry := r.after (events ++ more) } } ∧
        more ++ finished [e] = finished [out.2] ∧ (∀ x ∈ more, ∃ copy reading, x = showing copy reading) ∧
        out.2.copy = e.copy ∧ out.2.Stands r fresh deadline (events ++ more) ∧
        (deadline ≤ w.clock → out.2.result.isSome = true) := by
  unfold develop
  split
  . next hready =>
    have hnone : e.result = none := by simpa using hready.1
    rcases Registry.exists_describe hr hcopy events e.reading with ⟨s, hs⟩
    have hresult : (w.service.registry.describe e.slot e.record e.reading).1 = some s := by
      rw [hw]
      exact hs
    refine ⟨[showing e.copy e.reading], ?_, ?_, ?_, rfl, ⟨he.reading, ?_, he.due⟩, ?_⟩
    . rw [Registry.after_append, ← hw]
      rfl
    . simp [finished, hnone, hresult, Exposure.copy]
    . intro x hx
      exact ⟨_, _, List.mem_singleton.mp hx⟩
    . intro s' hs'
      exact ⟨events, [], rfl, hs.trans (hresult.symm.trans hs')⟩
    . intro _
      simp [hresult]
  . next hnot =>
    refine ⟨[], by rw [List.append_nil, ← hw], rfl, fun x hx => absurd hx List.not_mem_nil, rfl, he.append [], ?_⟩
    intro hdeadline
    have hdue := Nat.le_trans he.due hdeadline
    simpa [hdue, Option.isSome_iff_ne_none] using hnot

theorem developAll_stands {es : List Exposure} (hw : w.service.registry = r.after events)
    (hcopies : ∀ e ∈ es, e.copy ∈ r.listing) (hstands : ∀ e ∈ es, e.Stands r fresh deadline events)
    : let out := w.developAll es
      ∃ more, out.1 = { w with service := { w.service with registry := r.after (events ++ more) } } ∧
        (more ++ finished es).Perm (finished out.2) ∧ (∀ x ∈ more, ∃ copy reading, x = showing copy reading) ∧
        out.2.map Exposure.copy = es.map Exposure.copy ∧ (∀ e ∈ out.2, e.Stands r fresh deadline (events ++ more)) ∧
        (deadline ≤ w.clock → ∀ e ∈ out.2, e.result.isSome = true) := by
  induction es generalizing w events with
  | nil => exact ⟨[], by simp [developAll, ← hw], .refl _, by simp, rfl, by simp [developAll], by simp [developAll]⟩
  | cons e es ih =>
    rcases develop_stands hr hw (hcopies e List.mem_cons_self) (hstands e List.mem_cons_self) with
      ⟨more, hworld, hfinished, hmore, hcopy, hstand, hdone⟩
    have hregistry : (w.develop e).1.service.registry = r.after (events ++ more) := by rw [hworld]
    rcases ih hregistry (fun e he => hcopies e (List.mem_cons_of_mem _ he))
      (fun e he => (hstands e (List.mem_cons_of_mem _ he)).append more) with
      ⟨more', hworld', hfinished', hmore', hcopies', hstands', hdone'⟩
    refine ⟨more ++ more', ?_, ?_, ?_, congrArg₂ List.cons hcopy hcopies', ?_, ?_⟩
    . refine hworld'.trans ?_
      rw [hworld, List.append_assoc]
    . have hswap : (more ++ more' ++ (finished [e] ++ finished es)).Perm
          ((more ++ finished [e]) ++ (more' ++ finished es)) := by
        simp only [List.append_assoc]
        exact (List.perm_append_comm_assoc ..).append_left more
      rw [finished_cons]
      apply hswap.trans
      rw [hfinished]
      refine (hfinished'.append_left _).trans ?_
      rw [← finished_cons]
      rfl
    . intro x hx
      exact (List.mem_append.mp hx).elim (hmore x) (hmore' x)
    . intro e' he'
      rw [← List.append_assoc]
      rcases List.mem_cons.mp he' with rfl | he'
      . exact hstand.append more'
      . exact hstands' e' he'
    . intro hdeadline e' he'
      rcases List.mem_cons.mp he' with rfl | he'
      . exact hdone hdeadline
      . exact hdone' (by rw [hworld]; exact hdeadline) e' he'

end Develop

end World

structure Showing (r : Registry) (fresh : Slot × Record → Option Usage) (deadline : Nat) (copies : List (Slot × Record))
    (others : List Registry.Event) (now : Registry) (es : List Exposure) : Prop where
  copies : es.map Exposure.copy = copies
  history : ∃ events, now = r.after events ∧ events.Perm (others ++ finished es) ∧
    ∀ e ∈ es, e.Stands r fresh deadline events

namespace Showing

variable {β ε : Type} {limits : Limits} {r now : Registry} {fresh : Slot × Record → Option Usage} {deadline : Nat}
variable {copies : List (Slot × Record)} {others : List Registry.Event} {es : List Exposure} {w : World β ε}

theorem later (h : Showing r fresh deadline copies others now es) (more : List Registry.Event)
    : Showing r fresh deadline copies (others ++ more) (now.after more) es := by
  rcases h with ⟨hcopies, events, rfl, hevents, hstands⟩
  exact ⟨hcopies, events ++ more, by rw [Registry.after_append], perm_later hevents more,
    fun e he => (hstands e he).append more⟩

theorem develop (h : Showing r fresh deadline copies others w.service.registry es)
    (hr : Reachable limits (fun _ _ => True) r) (hcopies : ∀ copy ∈ copies, copy ∈ r.listing)
    : let out := w.developAll es
      (∃ registry, out.1 = { w with service := { w.service with registry } } ∧
        registry.unsampled = w.service.registry.unsampled) ∧
        Showing r fresh deadline copies others out.1.service.registry out.2 ∧
        (deadline ≤ w.clock → ∀ e ∈ out.2, e.result.isSome = true) := by
  rcases h.history with ⟨events, hw, hevents, hstands⟩
  have hlisted : ∀ e ∈ es, e.copy ∈ r.listing := by
    intro e he
    apply hcopies
    rw [← h.copies]
    exact List.mem_map_of_mem he
  rcases World.developAll_stands hr hw hlisted hstands with ⟨more, hworld, hfinished, hmore, hcopies', hstands', hdone⟩
  refine ⟨⟨_, hworld, ?_⟩, ⟨hcopies'.trans h.copies, events ++ more, by rw [hworld], ?_, hstands'⟩, hdone⟩
  . rw [Registry.after_append, unsampled_after_showing hmore, hw]
  . apply (perm_later hevents more).trans
    rw [List.append_assoc]
    exact hfinished.append_left others

theorem all_shown (h : Showing r fresh deadline copies others now es) (hall : ∀ e ∈ es, e.result.isSome = true)
    : ∃ events, now = r.after events ∧ events.Perm (others ++ copies.map fun copy => showing copy (fresh copy)) ∧
        List.Forall₂ (fun copy s => Shown r events copy (fresh copy) s) copies (es.filterMap Exposure.result) := by
  rcases h.history with ⟨events, hnow, hevents, hstands⟩
  refine ⟨events, hnow, ?_, ?_⟩
  . refine hevents.trans (.of_eq ?_)
    rw [finished_of_all hall, ← h.copies, List.map_map]
    apply congrArg (others ++ ·)
    apply List.map_congr_left
    intro e he
    rw [(hstands e he).reading]
    rfl
  . have hall' : (es.map fun e => (e.copy, e.result)).all (fun copy => copy.2.isSome) = true := by
      simpa using hall
    have hforall := Hall.forall_shown (P := fun copy s => Shown r events copy (fresh copy) s) hall' (by
      simp only [List.mem_map, forall_exists_index, and_imp]
      rintro - e he rfl s hs
      rw [← (hstands e he).reading]
      exact (hstands e he).shown s hs)
    rw [List.map_map, List.filterMap_map] at hforall
    rw [← h.copies]
    exact hforall

end Showing

namespace Wish

def pending : Wish → List Exposure → Waiting
  | .get _, [e] => .snapshot e
  | _, es => .snapshots es

theorem pending_ne (wish : Wish) (es : List Exposure) (outcome : Outcome) (clock : Nat)
    : wish.pending es ≠ .finished outcome clock := by
  unfold pending
  split <;> exact Waiting.noConfusion

def given : Wish → List Snapshot → Outcome
  | .get _, [s] => .snapshot s
  | _, snapshots => .snapshots snapshots

def report (wish : Wish) (es : List Exposure) (clock : Nat) : Waiting :=
  if es.all fun e => e.result.isSome then .finished (wish.given (es.filterMap Exposure.result)) clock
  else wish.pending es

theorem report_get (key : Key) (e : Exposure) (clock : Nat)
    : report (.get key) [e] clock =
        match e.result with
        | some s => .finished (.snapshot s) clock
        | none => .snapshot e := by
  unfold report
  cases hresult : e.result <;> simp [hresult, given, pending]

end Wish

inductive Told (r : Registry) (fresh : Slot × Record → Option Usage) (deadline : Nat) (wish : Wish)
    (copies : List (Slot × Record)) (others : List Registry.Event) (now : Registry) : Waiting → Prop where
  | waits {es : List Exposure} (showing : Showing r fresh deadline copies others now es) :
    Told r fresh deadline wish copies others now (wish.pending es)
  | told {snapshots : List Snapshot} {events : List Registry.Event} {clock : Nat} (history : now = r.after events)
    (own : events.Perm (others ++ copies.map fun copy => showing copy (fresh copy)))
    (shown : List.Forall₂ (fun copy s => Shown r events copy (fresh copy) s) copies snapshots) :
    Told r fresh deadline wish copies others now (.finished (wish.given snapshots) clock)

namespace Told

variable {r now : Registry} {fresh : Slot × Record → Option Usage} {deadline : Nat} {wish : Wish}
variable {copies : List (Slot × Record)} {others : List Registry.Event} {waiting : Waiting} {outcome : Outcome}
variable {clock : Nat}

theorem of_finished (h : Told r fresh deadline wish copies others now (.finished outcome clock))
    : ∃ snapshots events, outcome = wish.given snapshots ∧ now = r.after events ∧
        events.Perm (others ++ copies.map fun copy => showing copy (fresh copy)) ∧
        List.Forall₂ (fun copy s => Shown r events copy (fresh copy) s) copies snapshots := by
  generalize heq : Waiting.finished outcome clock = waiting at h
  cases h with
  | waits showing => exact absurd heq.symm (wish.pending_ne _ outcome clock)
  | told history own shown =>
    cases heq
    exact ⟨_, _, rfl, history, own, shown⟩

theorem later (h : Told r fresh deadline wish copies others now waiting) (more : List Registry.Event)
    : Told r fresh deadline wish copies (others ++ more) (now.after more) waiting := by
  cases h with
  | waits showing => exact .waits (showing.later more)
  | told history own shown =>
    exact .told (by rw [history, Registry.after_append]) (perm_later own more)
      (shown.imp fun _ _ hshown => hshown.append more)

theorem report {es : List Exposure} (h : Showing r fresh deadline copies others now es) (clock : Nat)
    : Told r fresh deadline wish copies others now (wish.report es clock) := by
  unfold Wish.report
  split
  . next hall =>
    rcases h.all_shown (by simpa using hall) with ⟨events, hnow, hevents, hshown⟩
    exact .told hnow hevents hshown
  . exact .waits h

end Told

namespace World

variable {β ε : Type} [Engine β ε] {limits : Limits} {r : Registry} {fresh : Slot × Record → Option Usage}
variable {w : World β ε} {deadline : Nat} {copies : List (Slot × Record)} {wish : Wish}

inductive Copies (w : World β ε) : Wish → List (Slot × Record) → Prop where
  | get {key : Key} {copy : Slot × Record} (h : w.service.get (key.resolve w.service.registry) = .ok copy) :
    Copies w (.get key) [copy]
  | list {copies : List (Slot × Record)} (h : w.service.list = .ok copies) : Copies w .list copies

section Copies

omit [Engine β ε] in
theorem Copies.listed (h : w.Copies wish copies) (hr : Reachable limits (fun _ _ => True) w.service.registry)
    : (∀ copy ∈ copies, copy ∈ w.service.registry.listing) ∧ (copies.map Prod.fst).Nodup ∧
        ∀ key, wish = .get key → copies.length = 1 := by
  cases h with
  | @get key copy h =>
    refine ⟨?_, List.nodup_singleton _, fun _ _ => rfl⟩
    rcases bind_eq_ok_iff.mp h with ⟨-, -, h⟩
    rcases bind_eq_ok_iff.mp h with ⟨slot, hslot, h⟩
    rcases (Registry.lookup_eq_ok_iff (Registry.indexed_of_reachable hr)).mp hslot with ⟨-, ⟨b, hb, hlisted, -⟩, -⟩
    rw [hb] at h
    cases h
    simpa using Registry.mem_listing.mpr ⟨b, hb, hlisted, rfl⟩
  | list h =>
    rcases bind_eq_ok_iff.mp h with ⟨-, -, h⟩
    cases h
    refine ⟨fun _ h => h, (Registry.slots_of_listing _).imp Nat.ne_of_lt, ?_⟩
    rintro key heq
    cases heq

omit [Engine β ε] in
theorem copies_get (hr : Reachable limits (fun _ _ => True) w.service.registry) (hopen : w.service.closed = false)
    (key : Key) {slot : Slot}
    (hlookup : w.service.registry.lookup (key.resolve w.service.registry) = .ok slot)
    : ∃ record, (slot, record) ∈ w.service.registry.listing ∧ w.Copies (.get key) [(slot, record)] := by
  rcases (Registry.lookup_eq_ok_iff (Registry.indexed_of_reachable hr)).mp hlookup with ⟨-, ⟨b, hb, hlisted, -⟩, -⟩
  refine ⟨b.record, Registry.mem_listing.mpr ⟨b, hb, hlisted, rfl⟩, .get ?_⟩
  simp [Service.get, Service.gate, hopen, hlookup, hb, bind, Except.bind, pure, Except.pure]

omit [Engine β ε] in
theorem copies_list (hopen : w.service.closed = false) : w.Copies .list w.service.registry.listing :=
  .list (by simp [Service.list, Service.gate, hopen, bind, Except.bind, pure, Except.pure])

theorem beginWish_of_copies (h : w.Copies wish copies) (id : CallerId)
    : w.beginWish id wish =
        ((w.exposeAll copies).1, wish.report (w.exposeAll copies).2 (w.exposeAll copies).1.clock) := by
  cases h with
  | @get key copy h =>
    simp only [beginWish, h, exposeAll, Wish.report_get]
    cases (w.expose copy.1 copy.2).2.result <;> rfl
  | list h =>
    simp only [beginWish, h, Wish.report]
    split <;> rfl

theorem advance_pending {es : List Exposure} (hsingle : ∀ key, wish = .get key → es.length = 1) (id : CallerId)
    : w.advance id (wish.pending es) =
        ((w.developAll es).1, wish.report (w.developAll es).2 (w.developAll es).1.clock) := by
  cases wish with
  | get key =>
    rcases List.length_eq_one_iff.mp (hsingle key rfl) with ⟨e, rfl⟩
    simp only [Wish.pending, advance, developAll, Wish.report_get]
    cases (w.develop e).2.result <;> rfl
  | _ =>
    simp only [Wish.pending, advance, Wish.report, Wish.given]
    split <;> rfl

end Copies

theorem told_beginWish (h : w.Copies wish copies) (id : CallerId)
    : (∃ sampler, (w.beginWish id wish).1 = { w with sampler }) ∧
        Told w.service.registry w.reads (w.clock + w.service.registry.limits.sample.ticks) wish copies []
          w.service.registry (w.beginWish id wish).2 := by
  rcases exposeAll_reads copies (fun _ => rfl) (Nat.le_refl _) with ⟨hworld, hcopies, hreads⟩
  -- Only those copies are shown at once of which nothing is read.
  have hunread : ∀ x ∈ finished (w.exposeAll copies).2, ∃ copy, x = showing copy none := by
    intro x hx
    rcases mem_finished.mp hx with ⟨e, he, hsome, rfl⟩
    rcases Option.isSome_iff_exists.mp hsome with ⟨s, hs⟩
    exact ⟨e.copy, by rw [((hreads e he).2.2 s hs).1]⟩
  rw [beginWish_of_copies h]
  refine ⟨hworld, Told.report ⟨hcopies, _, (after_of_unread hunread _).symm, .refl _, ?_⟩ _⟩
  intro e he
  rcases hreads e he with ⟨hreading, hdue, hresult⟩
  refine ⟨hreading, ?_, hdue⟩
  intro s hs
  rcases List.append_of_mem (mem_finished.mpr ⟨e, he, by rw [hs]; rfl, rfl⟩) with ⟨first, second, hsplit⟩
  refine ⟨first, second, hsplit, ?_⟩
  rw [after_of_unread fun x hx => hunread x (by rw [hsplit]; exact List.mem_append_left _ hx), (hresult s hs).1]
  exact (hresult s hs).2

theorem told_advance {others : List Registry.Event} {waiting : Waiting}
    (h : Told r fresh deadline wish copies others w.service.registry waiting)
    (hr : Reachable limits (fun _ _ => True) r) (hcopies : ∀ copy ∈ copies, copy ∈ r.listing)
    (hsingle : ∀ key, wish = .get key → copies.length = 1) (id : CallerId)
    : (∃ registry, (w.advance id waiting).1 = { w with service := { w.service with registry } } ∧
        registry.unsampled = w.service.registry.unsampled) ∧
        Told r fresh deadline wish copies others (w.advance id waiting).1.service.registry (w.advance id waiting).2 ∧
        (deadline ≤ w.clock → ∃ outcome clock, (w.advance id waiting).2 = .finished outcome clock) := by
  cases h with
  | told history own shown =>
    exact ⟨⟨w.service.registry, rfl, rfl⟩, .told history own shown, fun _ => ⟨_, _, rfl⟩⟩
  | @waits es showing =>
    have hlength : es.length = copies.length := by rw [← showing.copies, List.length_map]
    rcases showing.develop hr hcopies with ⟨hworld, hshowing, hdone⟩
    rw [advance_pending fun key hwish => hlength.trans (hsingle key hwish)]
    refine ⟨hworld, .report hshowing _, ?_⟩
    intro hdeadline
    have hall : ((w.developAll es).2.all fun e => e.result.isSome) = true := List.all_eq_true.mpr (hdone hdeadline)
    exact ⟨_, _, if_pos hall⟩

inductive Beside (id : CallerId) (w : World β ε) (waiting : Waiting)
    : List Registry.Event → World β ε → Waiting → Prop where
  | at : Beside id w waiting [] w waiting
  | later {w₁ w₂ : World β ε} {waiting₁ : Waiting} {others : List Registry.Event} (more : List Registry.Event)
    (before : Beside id w waiting others w₁ waiting₁) (quiet : ∀ e ∈ more, ∀ slot, Cell.taken slot e = none)
    (follows : w₂.service.registry = w₁.service.registry.after more) :
    Beside id w waiting (others ++ more) (w₂.advance id waiting₁).1 (w₂.advance id waiting₁).2

theorem Beside.quiet {id : CallerId} {w' : World β ε} {waiting waiting' : Waiting} {others : List Registry.Event}
    (h : Beside id w waiting others w' waiting')
    : ∀ e ∈ others, ∀ slot, Cell.taken slot e = none := by
  induction h with
  | «at» => exact fun e he => absurd he List.not_mem_nil
  | later more _ quiet _ ih =>
    intro e he
    exact (List.mem_append.mp he).elim (ih e) (quiet e)

theorem told_beside {id : CallerId} {w' : World β ε} {waiting waiting' : Waiting} {others : List Registry.Event}
    (h : Beside id w waiting others w' waiting')
    (htold : Told r fresh deadline wish copies [] w.service.registry waiting)
    (hr : Reachable limits (fun _ _ => True) r) (hcopies : ∀ copy ∈ copies, copy ∈ r.listing)
    (hsingle : ∀ key, wish = .get key → copies.length = 1)
    : Told r fresh deadline wish copies others w'.service.registry waiting' := by
  induction h with
  | «at» => exact htold
  | later more _ _ follows ih =>
    have hlater := ih.later more
    rw [← follows] at hlater
    exact (told_advance hlater hr hcopies hsingle id).2.1

omit [Engine β ε] in
theorem quiet_of_perm {others first second : List Registry.Event} {copy : Slot × Record}
    (hevents : (first ++ showing copy (fresh copy) :: second).Perm
      (others ++ copies.map fun copy => showing copy (fresh copy)))
    (hmem : copy ∈ copies) (hslots : (copies.map Prod.fst).Nodup)
    (hquiet : ∀ e ∈ others, ∀ slot, Cell.taken slot e = none)
    : ∀ e ∈ first, Cell.taken copy.1 e = none := by
  rcases List.append_of_mem hmem with ⟨before, after, rfl⟩
  rw [List.map_append, List.map_cons, List.nodup_middle, List.nodup_cons] at hslots
  -- Each box is copied once, so all that is left when the copy itself is taken out is about other boxes.
  have hrest : (first ++ second).Perm (others ++ ((before ++ after).map fun copy => showing copy (fresh copy))) := by
    have hown := (List.perm_middle.symm.trans hevents).trans
      ((List.perm_middle.map fun copy => showing copy (fresh copy)).append_left others)
    exact (hown.trans List.perm_middle).cons_inv
  intro e he
  rcases List.mem_append.mp (hrest.mem_iff.mp (List.mem_append_left second he)) with he | he
  . exact hquiet e he copy.1
  . rcases List.mem_map.mp he with ⟨c, hc, rfl⟩
    have hne : c.1 ≠ copy.1 := by
      intro heq
      apply hslots.1
      rw [← List.map_append, ← heq]
      exact List.mem_map_of_mem hc
    simp [showing, Cell.taken, hne]

omit [Engine β ε] in
theorem not_endsMeanwhile {copy : Slot × Record} (hcopy : copy ∈ r.listing) {first : List Registry.Event}
    (hfirst : ∀ x ∈ first, ∃ copy reading, x = showing copy reading)
    : ¬r.EndsMeanwhile copy first := by
  rintro ⟨hrunning, hended⟩
  rcases Registry.Ended.of_unsampled hended (unsampled_after_showing hfirst r) with ⟨b, hb, hterminal⟩
  rcases Registry.mem_listing.mp hcopy with ⟨b', hb', -, hrecord⟩
  obtain rfl := Option.some.inj (hb.symm.trans hb')
  rw [hrecord, hrunning] at hterminal
  cases hterminal

omit [Engine β ε] in
theorem portrays_of_shown {start : Registry} (h : Reachable limits (fun _ _ => True) start)
    {past others events : List Registry.Event} {copy : Slot × Record} {s : Snapshot}
    (hnone : start.boxes[copy.1]? = none) (hcopy : copy ∈ (start.after past).listing) (hmem : copy ∈ copies)
    (hslots : (copies.map Prod.fst).Nodup) (hquiet : ∀ e ∈ others, ∀ slot, Cell.taken slot e = none)
    (hevents : events.Perm (others ++ copies.map fun copy => showing copy (fresh copy)))
    (hshown : Shown (start.after past) events copy (fresh copy) s)
    : ∃ first second, events = first ++ showing copy (fresh copy) :: second ∧
        (¬(start.after past).EndsMeanwhile copy first →
          (start.after past).Portrays copy ((fresh copy).getD (lastUsage copy.1 start past)) s) ∧
        ((start.after past).EndsMeanwhile copy first →
          others ≠ [] ∧ (start.after past).Portrays copy ((fresh copy).getD .zero) s) := by
  rcases hshown with ⟨first, second, rfl, hs⟩
  rcases (Registry.recalls_of_describe h hnone hcopy hs).quiet (quiet_of_perm hevents hmem hslots hquiet) with
    ⟨hkept, hforgotten⟩
  refine ⟨first, second, rfl, hkept, fun hends => ⟨?_, hforgotten hends⟩⟩
  rintro rfl
  apply not_endsMeanwhile hcopy ?_ hends
  intro x hx
  rcases List.mem_map.mp (hevents.mem_iff.mp (List.mem_append_left _ hx)) with ⟨c, -, rfl⟩
  exact ⟨_, _, rfl⟩

/--
Samples never fail, and each box has its own. Whenever a copy of a record is shown, whatever else has happened since
it was made and whatever comes of the attempt to sample the process, there is a snapshot of it, which has a usage
exactly if the box was running: what was read in time, or else what the last sample of the box in time says, or zero.
Nothing changes but the sample of the box, and only if there is one. A caller that gets a registered box, or lists
all, is given such snapshots when the time for the samples is over. If nobody else samples the boxes meanwhile then
the samples are those from before the call, but they are forgotten once the end of the process goes on record.
-/
theorem sampling_never_fails (limits : Limits)
    : (∀ (past during : List Registry.Event) (attempt : Attempt),
        let start : Registry := { limits }
        let later := (start.after past).after during
        ∀ copy ∈ (start.after past).listing,
          let out := later.describe copy.1 copy.2 attempt.reading
          (∃ s, out.1 = some s ∧ start.Recalls past copy during attempt.reading s) ∧
          out.2.unsampled = later.unsampled ∧ (∀ slot ≠ copy.1, out.2.boxes[slot]? = later.boxes[slot]?) ∧
          (attempt.reading = none → out.2 = later)) ∧
      ∀ (β ε : Type) [Engine β ε] (w : World β ε) (past : List Registry.Event) (id : CallerId),
        let start : Registry := { limits }
        let r := start.after past
        w.service.registry = r → w.service.closed = false →
        (∀ key slot, r.lookup (key.resolve r) = .ok slot →
          ∃ record, (slot, record) ∈ r.listing ∧ w.Copies (.get key) [(slot, record)]) ∧
        w.Copies .list r.listing ∧
        ∀ wish copies, w.Copies wish copies →
          (∃ sampler, (w.beginWish id wish).1 = { w with sampler }) ∧
          ∀ others w' waiting, Beside id (w.beginWish id wish).1 (w.beginWish id wish).2 others w' waiting →
            (∃ registry, (w'.advance id waiting).1 = { w' with service := { w'.service with registry } } ∧
              registry.unsampled = w'.service.registry.unsampled) ∧
            (w.clock + limits.sample.ticks ≤ w'.clock →
              ∃ outcome clock, (w'.advance id waiting).2 = .finished outcome clock) ∧
            ∀ outcome clock, waiting = .finished outcome clock →
              ∃ snapshots events, outcome = wish.given snapshots ∧
                w'.service.registry = start.after (past ++ events) ∧
                events.Perm (others ++ copies.map fun copy => showing copy (w.reads copy)) ∧
                List.Forall₂ (fun copy s =>
                  ∃ first second, events = first ++ showing copy (w.reads copy) :: second ∧
                    (¬r.EndsMeanwhile copy first →
                      r.Portrays copy ((w.reads copy).getD (lastUsage copy.1 start past)) s) ∧
                    (r.EndsMeanwhile copy first → others ≠ [] ∧ r.Portrays copy ((w.reads copy).getD .zero) s))
                  copies snapshots := by
  have hstart : Reachable limits (fun _ _ => True) { limits } := .start
  constructor
  . intro past during attempt start later copy hcopy out
    refine ⟨?_, later.unsampled_describe .., fun slot hslot => later.boxes_describe_ne hslot .., ?_⟩
    . have hr : Reachable limits (fun _ _ => True) (start.after past) := hstart.after fun _ _ _ => trivial
      rcases Registry.exists_describe hr hcopy during attempt.reading with ⟨s, hs⟩
      exact ⟨s, hs, Registry.recalls_of_describe hstart rfl hcopy hs⟩
    . intro hnone
      show (later.describe copy.1 copy.2 attempt.reading).2 = later
      rw [hnone, later.describe_eq_self]
  . intro β ε _ w past id start r hregistry hopen
    have hr : Reachable limits (fun _ _ => True) r := hstart.after fun _ _ _ => trivial
    have hlimits : r.limits = limits := Registry.limits_after (Registry.tidy_start limits) past
    refine ⟨?_, hregistry ▸ copies_list hopen, ?_⟩
    . intro key slot hlookup
      rw [← hregistry] at hlookup hr ⊢
      exact copies_get hr hopen key hlookup
    . intro wish copies hasked
      rcases hasked.listed (hregistry ▸ hr) with ⟨hlisted, hslots, hsingle⟩
      rcases told_beginWish hasked id with ⟨⟨sampler, hworld⟩, hbegin⟩
      rw [hregistry] at hlisted hbegin
      rw [hlimits] at hbegin
      refine ⟨⟨sampler, hworld⟩, ?_⟩
      intro others w' waiting hbeside
      have htold := told_beside hbeside (by rwa [hworld, hregistry]) hr hlisted hsingle
      rcases told_advance htold hr hlisted hsingle id with ⟨hchanges, -, hdone⟩
      refine ⟨hchanges, hdone, ?_⟩
      rintro outcome clock rfl
      rcases htold.of_finished with ⟨snapshots, events, hgiven, hnow, hevents, hshown⟩
      refine ⟨snapshots, events, hgiven, by rw [hnow, Registry.after_append], hevents, ?_⟩
      refine ((List.forall₂_and_left copies snapshots).mpr ⟨fun _ h => h, hshown⟩).imp ?_
      rintro copy s ⟨hmem, hs⟩
      exact portrays_of_shown hstart rfl (hlisted copy hmem) hmem hslots hbeside.quiet hevents hs

def launchAndSample : List Registry.Event :=
  Registry.launchAndWatch ++ [showing (0, { Record.new ⟨0, 0⟩ with status := .running, pid := some 7 })
    (some ⟨⟨0x41480000⟩, 64⟩)]

def sampleAndSuspend : List Registry.Event :=
  launchAndSample ++ [.begin 0 .pause, .turn ⟨1, 0⟩ 2, .reply ⟨1, 0⟩ 2 .done, .begin 0 .resume, .turn ⟨2, 0⟩ 3,
    .reply ⟨2, 0⟩ 3 .done, .create { image := "alpine" } ⟨3, 0⟩ 2 0, .begin 1 .start, .turn ⟨3, 0⟩ 4,
    .reply ⟨3, 0⟩ 4 (.launched 8)]

def hanging (past : List Registry.Event) : World Backend Event :=
  { service := { registry := ({} : Registry).after past }
    backend := {}
    sampler := { Sampler.new with hanging := .all } }

def call (past : List Registry.Event) : World Backend Event × Waiting :=
  (hanging past).beginWish 0 .list

def overtime (past : List Registry.Event) : World Backend Event :=
  { (call past).1 with clock := 500 }

theorem sampling_never_fails_twoBoxes
    : ∃ w' snapshots,
        Beside 0 (call sampleAndSuspend).1 (call sampleAndSuspend).2 [] w' (.finished (.snapshots snapshots) 500) ∧
        snapshots.map Snapshot.usage = [some ⟨⟨0x41480000⟩, 64⟩, some .zero] ∧
        List.Forall₂ (fun copy s => (({} : Registry).after sampleAndSuspend).Portrays copy
          (((hanging sampleAndSuspend).reads copy).getD (lastUsage copy.1 {} sampleAndSuspend)) s)
          (({} : Registry).after sampleAndSuspend).listing snapshots := by
  have hbeside : Beside 0 (call sampleAndSuspend).1 (call sampleAndSuspend).2 [] _
      ((overtime sampleAndSuspend).advance 0 (call sampleAndSuspend).2).2 := .later [] .at (by simp) rfl
  have hdone : ∃ snapshots, ((overtime sampleAndSuspend).advance 0 (call sampleAndSuspend).2).2 =
      .finished (.snapshots snapshots) 500 ∧
      snapshots.map Snapshot.usage = [some ⟨⟨0x41480000⟩, 64⟩, some .zero] := by
    refine ⟨_, rfl, ?_⟩
    rfl
  rcases hdone with ⟨snapshots, hdone, husage⟩
  rw [hdone] at hbeside
  refine ⟨_, snapshots, hbeside, husage, ?_⟩
  rcases (sampling_never_fails {}).2 Backend Event (hanging sampleAndSuspend) sampleAndSuspend 0 rfl rfl with
    ⟨-, hlist, hcalls⟩
  rcases ((hcalls .list _ hlist).2 [] _ _ hbeside).2.2 _ _ rfl with ⟨shown, events, hgiven, -, -, hshown⟩
  obtain rfl : snapshots = shown := Outcome.snapshots.inj hgiven
  refine hshown.imp ?_
  rintro copy s ⟨first, second, -, hkept, hends⟩
  exact hkept fun h => (hends h).1 rfl

def unavailable (past : List Registry.Event) : World Backend Event :=
  { service := { registry := ({} : Registry).after past }
    backend := {}
    sampler := { Sampler.new with unavailable := true } }

def stopAndEnd : List Registry.Event :=
  [.begin 0 (.stop ⟨1000000000⟩), .turn ⟨9, 0⟩ 2, .reply ⟨9, 0⟩ 2 .done, .reply ⟨9, 0⟩ 2 (.ended (.signaled 15))]

/--
A caller gets the box and nobody else does, but the box is stopped before it is known that there is no sample. What was
known of its usage is not shown.
-/
theorem not_kept_stopMeanwhile
    : let w := unavailable launchAndSample
      let called := w.beginWish 0 (.get (.ofBox 0 .full))
      ∃ w' copy s, w.Copies (.get (.ofBox 0 .full)) [copy] ∧
        Beside 0 called.1 called.2 stopAndEnd w' (.finished (.snapshot s) 0) ∧
        s.status = .running ∧ s.usage = some .zero ∧ lastUsage copy.1 {} launchAndSample = ⟨⟨0x41480000⟩, 64⟩ ∧
        s.usage ≠ some ((w.reads copy).getD (lastUsage copy.1 {} launchAndSample)) := by
  intro w called
  let stopped : World Backend Event :=
    { called.1 with service := { called.1.service with registry := called.1.service.registry.after stopAndEnd } }
  have hbeside : Beside 0 called.1 called.2 stopAndEnd _ (stopped.advance 0 called.2).2 :=
    .later stopAndEnd .at (by simp [stopAndEnd, Cell.taken]) rfl
  have hdone : ∃ s, (stopped.advance 0 called.2).2 = .finished (.snapshot s) 0 ∧ s.status = .running ∧
      s.usage = some .zero := by
    refine ⟨_, rfl, ?_, ?_⟩
    . rfl
    . rfl
  rcases hdone with ⟨s, hdone, hrunning, husage⟩
  rw [hdone] at hbeside
  refine ⟨_, _, s, .get rfl, hbeside, hrunning, husage, rfl, ?_⟩
  rw [husage]
  decide

end World

end BoxRegistry.Simulation

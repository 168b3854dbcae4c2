import BoxRegistry.Proofs.Lifecycle.Marks
import BoxRegistry.Proofs.Registry.History
import BoxRegistry.Proofs.Registry.Listing

namespace BoxRegistry

open Time (Moment)

inductive Box.Samples (b b' : Box) (taken : Option Usage) : Prop where
  | keeps (live : b.record.status.isActive = true → b'.record.status.isActive = true)
    (same : b'.sample = (taken <|> b.sample))
  | forgets (active : b.record.status.isActive = true) (ended : b'.record.status.isTerminal = true)
    (none : b'.sample = none)

namespace Box.Samples

variable {b b' b'' : Box} {taken : Option Usage}

theorem of_same (hrecord : b'.record = b.record) (hsample : b'.sample = b.sample) : b.Samples b' none :=
  .keeps (by rw [hrecord]; exact id) hsample

theorem refl (b : Box) : b.Samples b none :=
  of_same rfl rfl

theorem claim (b : Box) (task : TaskId) : b.Samples (b.claim task).2 none := by
  have hcases := b.claims task
  generalize b.claim task = out at hcases ⊢
  cases hcases <;> exact of_same rfl rfl

theorem of_claim (task : TaskId) (h : (b.claim task).2.Samples b' taken) : b.Samples b' taken := by
  have hclaim : (b.claim task).2.record = b.record ∧ (b.claim task).2.sample = b.sample := by
    have hcases := b.claims task
    generalize b.claim task = out at hcases ⊢
    cases hcases <;> exact ⟨rfl, rfl⟩
  cases h with
  | keeps live same => exact .keeps (by rwa [hclaim.1] at live) (by rwa [hclaim.2] at same)
  | forgets active ended none => exact .forgets (by rwa [hclaim.1] at active) ended none

theorem congr (h : b.Samples b' taken) (hrecord : b''.record = b'.record) (hsample : b''.sample = b'.sample)
    : b.Samples b'' taken := by
  cases h with
  | keeps live same => exact .keeps (by rwa [hrecord]) (by rwa [hsample])
  | forgets active ended none => exact .forgets active (by rwa [hrecord]) (by rwa [hsample])

end Box.Samples

theorem Operation.Moves.samples {op : Operation} {b : Box} {origin : Option Stage} {m : Move} (h : op.Moves b origin m)
    : b.Samples m.box none := by
  have hcreated : ∀ {r : Record}, r.status = .created → ¬r.status.isActive = true := by
    intro r hcreated hactive
    rw [hcreated] at hactive
    cases hactive
  cases h with
  | launch start created listed running process => exact .keeps (fun hactive => absurd hactive (hcreated created)) rfl
  | failLaunch start created listed failed process =>
    exact .keeps (fun hactive => absurd hactive (hcreated created)) rfl
  | turnOver runs active process turns => exact .keeps (fun _ => active) rfl
  | stop stops runs unwatched stopped process ends => exact .forgets runs.active (by rw [stopped]; rfl) rfl
  | stopAndRemove removes runs unwatched stopped process ends =>
    exact .forgets runs.active (Status.isTerminal_iff.mpr (.inl stopped)) rfl
  | _ => exact .of_same rfl rfl

theorem Box.Notices.samples {b : Box} {now : Moment} {task : TaskId} {pid : Pid} {result : Except Fault ProcessEnd}
    {out : Box × List Deed} (h : b.Notices now task pid result out)
    : b.Samples out.1 none := by
  cases h with
  | ignore other => exact .refl b
  | record watched runs marked ended process => exact .forgets runs.active ended rfl

namespace Cell

variable {c : Cell} {slot : Slot} {task fresh : TaskId}

theorem sample_performAll (c : Cell) (fresh : TaskId) (deeds : List Deed)
    : (c.performAll fresh deeds).1.box.sample = c.box.sample := by
  rcases c.box.exists_rewatch fresh deeds with ⟨watch, heq⟩
  rw [box_performAll, heq]

theorem sample_apply (c : Cell) (limits : Limits) (fresh task : TaskId) (op : Operation) (m : Move)
    : (c.apply limits fresh task op m).1.box.sample = m.box.sample := by
  have hdeeds := sample_performAll { c with box := m.box } fresh m.deeds
  unfold apply
  dsimp only
  cases m.next <;> exact hdeeds

theorem sample_notice (c : Cell) (fresh : TaskId) (now : Moment) (task : TaskId) (pid : Pid)
    (result : Except Fault ProcessEnd)
    : (c.notice fresh now task pid result).1.box.sample = (c.box.noticeEnd now task pid result).1.sample :=
  sample_performAll { c with box := (c.box.noticeEnd now task pid result).1 } fresh _

def taken (slot : Slot) : Registry.Event → Option Usage
  | .describe s record reading => if s = slot ∧ (Box.sampledPid? record).isSome = true then reading else none
  | .create .. | .begin .. | .turn .. | .reply .. => none

theorem taken_of_rests {e : Registry.Event} (h : c.Rests slot e) : taken slot e = none := by
  cases h with
  | describe other => simp [taken, other]
  | _ => rfl

theorem taken_of_task {e : Registry.Event} (h : e.task? = some task) (slot : Slot) : taken slot e = none := by
  cases e <;> first | rfl | cases h

theorem samples_apply (limits : Limits) (fresh task : TaskId) {op : Operation} {origin : Option Stage} {m : Move}
    (hm : op.Moves c.box origin m)
    : c.box.Samples (c.apply limits fresh task op m).1.box none :=
  hm.samples.congr (c.box_apply limits fresh task op m).2.1 (c.sample_apply limits fresh task op m)

theorem Sound.samples (h : c.Sound) (limits : Limits) (fresh : TaskId) (slot : Slot) (e : Registry.Event)
    : c.box.Samples (c.step limits fresh slot e).1.box (taken slot e) := by
  have hsteps := c.steps limits fresh slot e
  generalize c.step limits fresh slot e = out at hsteps
  cases hsteps with
  | rests rests =>
    rw [taken_of_rests rests]
    exact .refl c.box
  | begins op => exact .refl c.box
  | posts duty => exact .refl c.box
  | @queues e now task d arrives unclaimed =>
    rw [taken_of_task arrives.task?_eq]
    exact .claim c.box task
  | @enters now task op duty claimed =>
    apply Box.Samples.of_claim task
    exact samples_apply (c := { c with box := (c.box.claim task).2 }) limits fresh task (op.moves_enter _)
  | @proceeds now task reply op stage duty =>
    exact samples_apply limits fresh task (op.moves_proceed (h.fits task op stage duty) limits now reply)
  | @reports e now task pid result arrives claimed =>
    rw [taken_of_task arrives.task?_eq]
    apply Box.Samples.of_claim task
    have hnotices := Box.notices (h.claim_arrives arrives claimed).1.coherent now task pid result
    exact hnotices.samples.congr (box_notice _ fresh now task pid result).2.1
      (sample_notice _ fresh now task pid result)
  | quits duty => exact .refl c.box
  | samples sampled => exact .keeps id (by simp [taken, sampled])

end Cell

namespace Registry

variable {limits : Limits} {allowed : Registry → Event → Prop} {r : Registry} {slot : Slot} {b b' : Box}

def sampled (slot : Slot) (r : Registry) : List Event → List Usage
  | [] => []
  | e :: es => (if r.boxes[slot]?.isSome then Cell.taken slot e else none).toList ++ sampled slot (r.step e).1 es

def lastUsage (slot : Slot) (r : Registry) (es : List Event) : Usage :=
  (sampled slot r es).getLast?.getD .zero

theorem sampled_append (r : Registry) (es es' : List Event)
    : sampled slot r (es ++ es') = sampled slot r es ++ sampled slot (r.after es) es' := by
  induction es generalizing r with
  | nil => rfl
  | cons e es ih => rw [List.cons_append, sampled, sampled, ih, List.append_assoc, after_cons]

theorem lastUsage_append_of_quiet {es' : List Event} (h : ∀ e ∈ es', Cell.taken slot e = none) (r : Registry)
    (es : List Event)
    : lastUsage slot r (es ++ es') = lastUsage slot r es := by
  have hnone : ∀ r : Registry, sampled slot r es' = [] := by
    induction es' with
    | nil => exact fun _ => rfl
    | cons e es' ih =>
      intro r
      rw [sampled, h e List.mem_cons_self, ih fun e he => h e (List.mem_cons_of_mem _ he)]
      simp
  rw [lastUsage, sampled_append, hnone, List.append_nil, lastUsage]

theorem samples_step (h : Reachable limits allowed r) (hb : r.boxes[slot]? = some b) (e : Event)
    : ∃ b', (r.step e).1.boxes[slot]? = some b' ∧ b.Samples b' (Cell.taken slot e) ∧
        (b.record.status.isTerminal = true → b'.record.status.isTerminal = true) := by
  rcases exists_cell? hb with ⟨c, hc, rfl⟩
  rcases becomes_step h hc e with ⟨c', hc', -, now, hbecomes⟩
  have hcell := (evolves (tidy_of_reachable h) e).cell slot c hc
  obtain rfl := Option.some.inj (hcell.symm.trans hc')
  refine ⟨_, (cell?_eq_some.mp hc').1, (sound_of_reachable h hc).samples r.limits r.nextTask slot e, ?_⟩
  intro hterminal
  rcases hbecomes.status with heq | ⟨t, hnext⟩
  . rwa [heq]
  . rw [Record.isTerminal_of_apply (Status.apply_eq_ok_iff.mpr hnext)] at hterminal
    cases hterminal

theorem getLast?_append_orElse (taken old : Option Usage) (later : List Usage)
    : (later.getLast? <|> (taken <|> old)) = ((taken.toList ++ later).getLast? <|> old) := by
  rw [List.getLast?_append]
  cases taken <;> cases later.getLast? <;> rfl

theorem terminal_after (h : Reachable limits (fun _ _ => True) r) (hb : r.boxes[slot]? = some b)
    (hterminal : b.record.status.isTerminal = true) {es : List Event} (hb' : (r.after es).boxes[slot]? = some b')
    : b'.record.status.isTerminal = true := by
  induction es generalizing r b with
  | nil =>
    obtain rfl := Option.some.inj (hb.symm.trans hb')
    exact hterminal
  | cons e es ih =>
    rcases samples_step h hb e with ⟨b₁, hb₁, -, hstays⟩
    exact ih (h.step trivial) hb₁ (hstays hterminal) hb'

theorem sample_after (h : Reachable limits (fun _ _ => True) r) (hb : r.boxes[slot]? = some b) {es : List Event}
    (hb' : (r.after es).boxes[slot]? = some b')
    (hkept : b'.record.status.isTerminal = false ∨ b.record.status.isTerminal = true)
    : b'.sample = ((sampled slot r es).getLast? <|> b.sample) := by
  induction es generalizing r b with
  | nil =>
    obtain rfl := Option.some.inj (hb.symm.trans hb')
    cases b.sample <;> rfl
  | cons e es ih =>
    rcases samples_step h hb e with ⟨b₁, hb₁, hsamples, hstays⟩
    cases hsamples with
    | keeps live same =>
      rw [ih (h.step trivial) hb₁ hb' (hkept.imp_right hstays), same, sampled, hb, getLast?_append_orElse]
      rfl
    | forgets active ended none =>
      -- No process of the box ends from here to the end of the run: it has ended before, or never does.
      have hlive := Status.isTerminal_of_isActive active
      rw [terminal_after (h.step trivial) hb₁ ended hb', hlive] at hkept
      rcases hkept with hkept | hkept <;> cases hkept

theorem sample_of_live (h : Reachable limits (fun _ _ => True) r) (hnone : r.boxes[slot]? = none) {es : List Event}
    (hb' : (r.after es).boxes[slot]? = some b') (hlive : b'.record.status.isTerminal = false)
    : b'.sample = (sampled slot r es).getLast? := by
  induction es generalizing r with
  | nil =>
    rw [after_nil, hnone] at hb'
    cases hb'
  | cons e es ih =>
    have hnow : sampled slot r (e :: es) = sampled slot (r.step e).1 es := by simp [sampled, hnone]
    rw [hnow]
    cases hb₁ : (r.step e).1.boxes[slot]? with
    | none => exact ih (h.step trivial) hb₁ hb'
    | some b₁ =>
      rcases exists_cell? hb₁ with ⟨c, hc, rfl⟩
      rcases (evolves (tidy_of_reachable h) e).added slot c (cell?_eq_none.mpr hnone) hc with ⟨spec, rfl⟩
      rw [sample_after (h.step trivial) hb₁ hb' (.inl hlive)]
      cases (sampled slot (r.step e).1 es).getLast? <;> rfl

theorem sample_of_ended (h : Reachable limits (fun _ _ => True) r) (hb : r.boxes[slot]? = some b)
    (hactive : b.record.status.isActive = true) {es : List Event} (hb' : (r.after es).boxes[slot]? = some b')
    (hended : b'.record.status.isTerminal = true)
    : ∃ early e late b₁ b₂, es = early ++ e :: late ∧ (r.after early).boxes[slot]? = some b₁ ∧
        b₁.record.status.isActive = true ∧ (r.after (early ++ [e])).boxes[slot]? = some b₂ ∧
        b₂.record.status.isTerminal = true ∧ b'.sample = (sampled slot (r.after (early ++ [e])) late).getLast? := by
  induction es generalizing r b with
  | nil =>
    obtain rfl := Option.some.inj (hb.symm.trans hb')
    rw [Status.isTerminal_of_isActive hactive] at hended
    cases hended
  | cons e es ih =>
    rcases samples_step h hb e with ⟨b₁, hb₁, hsamples, -⟩
    cases hsamples with
    | keeps live same =>
      rcases ih (h.step trivial) hb₁ (live hactive) hb' with ⟨early, e', late, b₂, b₃, rfl, hrest⟩
      exact ⟨e :: early, e', late, b₂, b₃, rfl, hrest⟩
    | forgets active ended none =>
      refine ⟨[], e, es, b, b₁, rfl, hb, hactive, hb₁, ended, ?_⟩
      have hlast := sample_after (h.step trivial) hb₁ hb' (.inr ended)
      rw [none] at hlast
      rw [hlast, List.nil_append, after_cons, after_nil]
      cases (sampled slot (r.step e).1 es).getLast? <;> rfl

end Registry

inductive Attempt where
  | value (usage : Usage)
  | unavailable
  | fails (fault : Fault)
  | breaksOff
  | late
deriving Inhabited

def Attempt.reading : Attempt → Option Usage
  | value usage => some usage
  | unavailable | fails _ | breaksOff | late => none

namespace Registry

variable {limits : Limits} {r : Registry} {slot : Slot} {b : Box}

def Portrays (r : Registry) (copy : Slot × Record) (usage : Usage) (s : Snapshot) : Prop :=
  ∃ b, r.boxes[copy.1]? = some b ∧ s = .of b.spec copy.2 (if copy.2.status = .running then some usage else none)

def Ended (r : Registry) (slot : Slot) : Prop :=
  ∃ b, r.boxes[slot]? = some b ∧ b.record.status.isTerminal = true

def unsampled (r : Registry) : Registry :=
  { r with boxes := r.boxes.map fun b => { b with sample := none } }

theorem unsampled_describe (r : Registry) (slot : Slot) (record : Record) (reading : Option Usage)
    : (r.describe slot record reading).2.unsampled = r.unsampled := by
  unfold describe
  split
  . rfl
  . split
    . rfl
    . simp only [unsampled, modifyBox, Registry.mk.injEq, true_and, and_true]
      apply List.ext_getElem?
      intro s
      simp only [List.getElem?_map, List.getElem?_modify]
      cases r.boxes[s]? with
      | none => rfl
      | some b => by_cases hs : slot = s <;> simp [hs]

theorem unsampled_after {es : List Event} (h : ∀ e ∈ es, ∃ slot record reading, e = .describe slot record reading)
    (r : Registry)
    : (r.after es).unsampled = r.unsampled := by
  induction es generalizing r with
  | nil => rfl
  | cons e es ih =>
    rcases h e List.mem_cons_self with ⟨slot, record, reading, rfl⟩
    rw [after_cons, ih fun e he => h e (List.mem_cons_of_mem _ he)]
    exact r.unsampled_describe slot record reading

theorem Ended.of_unsampled {r' : Registry} (hended : r'.Ended slot) (h : r'.unsampled = r.unsampled)
    : r.Ended slot := by
  rcases hended with ⟨b', hb', hterminal⟩
  have hbox : r'.unsampled.boxes[slot]? = some { b' with sample := none } := by simp [unsampled, hb']
  rw [h, unsampled, List.getElem?_map, Option.map_eq_some_iff] at hbox
  rcases hbox with ⟨b, hb, heq⟩
  refine ⟨b, hb, ?_⟩
  have hrecord : b.record = b'.record := by injection heq
  rwa [hrecord]

theorem boxes_describe_ne (r : Registry) {s : Slot} (hs : s ≠ slot) (record : Record) (reading : Option Usage)
    : (r.describe slot record reading).2.boxes[s]? = r.boxes[s]? := by
  unfold describe
  split
  . rfl
  . split
    . rfl
    . simp [modifyBox, hs.symm]

theorem describe_eq_self (r : Registry) (slot : Slot) (record : Record) : (r.describe slot record none).2 = r := by
  unfold describe
  split
  . rfl
  . split
    . rfl
    . have hself : (fun b : Box => { b with sample := none <|> b.sample }) = id := rfl
      rw [modifyBox, hself, List.modify_id]

theorem describe_eq (hb : r.boxes[slot]? = some b) {record : Record} (hrecord : record.Coherent)
    (reading : Option Usage)
    : (r.describe slot record reading).1 =
        some (.of b.spec record (if record.status = .running then some (b.usageAfter reading) else none)) := by
  unfold describe Box.sampledPid?
  rw [hb]
  by_cases hrunning : record.status = .running
  . have hprocess : record.pid.isSome = true := by
      rw [hrecord.process, hrunning]
      rfl
    rcases Option.isSome_iff_exists.mp hprocess with ⟨pid, hpid⟩
    simp [hrunning, hpid]
  . simp [hrunning]

theorem coherent_of_mem_listing (h : Reachable limits (fun _ _ => True) r) {copy : Slot × Record}
    (hcopy : copy ∈ r.listing)
    : copy.2.Coherent := by
  rcases mem_listing.mp hcopy with ⟨b, hb, -, hrecord⟩
  rcases exists_cell? hb with ⟨c, hc, rfl⟩
  rw [← hrecord]
  exact coherent_of_reachable h hc

theorem exists_describe (h : Reachable limits (fun _ _ => True) r) {copy : Slot × Record} (hcopy : copy ∈ r.listing)
    (es : List Event) (reading : Option Usage)
    : ∃ s, ((r.after es).describe copy.1 copy.2 reading).1 = some s := by
  rcases lt_of_mem_listing hcopy with ⟨b, hb⟩
  rcases spec_after h hb es with ⟨b', hb', -⟩
  exact ⟨_, describe_eq hb' (coherent_of_mem_listing h hcopy) reading⟩

def EndsMeanwhile (r : Registry) (copy : Slot × Record) (during : List Event) : Prop :=
  copy.2.status = .running ∧ (r.after during).Ended copy.1

/--
A snapshot shows a copy of a record that was made after some events, when some more have happened. It has what is read
in time, or what the last sample of the box says, or zero. Once the end of the process goes on record, the samples
before are forgotten.
-/
structure Recalls (start : Registry) (past : List Event) (copy : Slot × Record) (during : List Event)
    (reading : Option Usage) (s : Snapshot) : Prop where
  kept : ¬(start.after past).EndsMeanwhile copy during →
    (start.after past).Portrays copy (reading.getD (lastUsage copy.1 start (past ++ during))) s
  forgotten : (start.after past).EndsMeanwhile copy during →
    ∃ early e late, during = early ++ e :: late ∧ ¬(start.after (past ++ early)).Ended copy.1 ∧
      (start.after (past ++ early ++ [e])).Ended copy.1 ∧
      (start.after past).Portrays copy (reading.getD (lastUsage copy.1 (start.after (past ++ early ++ [e])) late)) s

theorem recalls_of_describe {start : Registry} (h : Reachable limits (fun _ _ => True) start) {past during : List Event}
    {copy : Slot × Record} (hnone : start.boxes[copy.1]? = none) (hcopy : copy ∈ (start.after past).listing)
    {reading : Option Usage} {s : Snapshot}
    (hs : (((start.after past).after during).describe copy.1 copy.2 reading).1 = some s)
    : start.Recalls past copy during reading s := by
  have hpast : Reachable limits (fun _ _ => True) (start.after past) := h.after fun _ _ _ => trivial
  rcases mem_listing.mp hcopy with ⟨b₀, hb₀, -, hrecord⟩
  rcases spec_after hpast hb₀ during with ⟨b, hb, hspec⟩
  rw [describe_eq hb (coherent_of_mem_listing hpast hcopy), hspec] at hs
  obtain rfl := Option.some.inj hs
  have hportrays : ∀ usage, (copy.2.status = .running → b.usageAfter reading = usage) →
      (start.after past).Portrays copy usage
        (.of b₀.spec copy.2 (if copy.2.status = .running then some (b.usageAfter reading) else none)) := by
    intro usage husage
    refine ⟨b₀, hb₀, ?_⟩
    split
    . next hrunning => rw [husage hrunning]
    . rfl
  constructor
  . intro hlive
    apply hportrays
    intro hrunning
    have hterminal : b.record.status.isTerminal = false := by
      rw [← Bool.not_eq_true]
      exact fun hterminal => hlive ⟨hrunning, b, hb, hterminal⟩
    rw [← after_append] at hb
    rw [Box.usageAfter, sample_of_live h hnone hb hterminal, lastUsage]
  . rintro ⟨hrunning, b', hb', hended⟩
    obtain rfl := Option.some.inj (hb'.symm.trans hb)
    rcases sample_of_ended hpast hb₀ (by rw [hrecord, hrunning]; rfl) hb hended with
      ⟨early, e, late, b₁, b₂, rfl, hb₁, hactive, hb₂, hended₂, hlast⟩
    refine ⟨early, e, late, rfl, ?_, ?_, ?_⟩
    . rintro ⟨b₃, hb₃, hended₃⟩
      rw [after_append] at hb₃
      obtain rfl := Option.some.inj (hb₁.symm.trans hb₃)
      rw [Status.isTerminal_of_isActive hactive] at hended₃
      cases hended₃
    . rw [List.append_assoc, after_append]
      exact ⟨b₂, hb₂, hended₂⟩
    . apply hportrays
      intro _
      rw [Box.usageAfter, hlast, lastUsage]
      simp only [after_append]

theorem Recalls.quiet {start : Registry} {past during : List Event} {copy : Slot × Record} {reading : Option Usage}
    {s : Snapshot} (h : start.Recalls past copy during reading s)
    (hquiet : ∀ e ∈ during, Cell.taken copy.1 e = none)
    : (¬(start.after past).EndsMeanwhile copy during →
        (start.after past).Portrays copy (reading.getD (lastUsage copy.1 start past)) s) ∧
      ((start.after past).EndsMeanwhile copy during → (start.after past).Portrays copy (reading.getD .zero) s) := by
  constructor
  . intro hlive
    rw [← lastUsage_append_of_quiet hquiet]
    exact h.kept hlive
  . intro hends
    rcases h.forgotten hends with ⟨early, e, late, rfl, -, -, hportrays⟩
    have hlate : ∀ e ∈ late, Cell.taken copy.1 e = none := fun e he => hquiet e (by simp [he])
    rw [← List.nil_append late, lastUsage_append_of_quiet hlate] at hportrays
    exact hportrays

end Registry

end BoxRegistry

import BoxRegistry.Proofs.Registry.Gauge
import BoxRegistry.Proofs.Registry.History

/-!
This module contains the proof that the counters of a registry are conserved. What is counted is kept in a
ledger, and what the ledger says of a box is what the record of the box tells: the box was created, it was
started, it ended with the status it has, and it was removed, each of them once or not at all.
-/

namespace BoxRegistry

open Time (Moment)

def Deed.milestone? : Deed → Option Milestone
  | count milestone => some milestone
  | watch _ | disarm | release _ | unlist => none

theorem Deed.foldl_tally (deeds : List Deed) (k : Counters)
    : deeds.foldl tally k = (deeds.filterMap milestone?).foldl Counters.record k := by
  induction deeds generalizing k with
  | nil => rfl
  | cons deed deeds ih => cases deed <;> exact ih _

def Milestone.endsAs (status : Status) : Milestone → Bool
  | ended s _ => s = status
  | created | started | removed => false

namespace Box

def milestones (b : Box) : List Milestone :=
  .created :: ((if b.record.startedAt.isSome then [.started] else []) ++
    (if b.record.status.isTerminal then [.ended b.record.status b.record.startedAt.isSome] else []) ++
    (if b.removed then [.removed] else []))

def failedLater (b : Box) : Bool :=
  b.record.status = .failed && b.record.startedAt.isSome

def failedToStart (b : Box) : Bool :=
  b.record.ending.any Ending.isStartFailed

def hasStatus (status : Status) (b : Box) : Bool :=
  b.record.status = status

theorem milestones_congr {b b' : Box} (hrecord : b'.record = b.record) (hremoved : b'.removed = b.removed)
    : b'.milestones = b.milestones := by
  simp only [milestones, hrecord, hremoved]

theorem countP_milestones (b : Box) (kind : Milestone → Bool)
    : b.milestones.countP kind = (if kind .created then 1 else 0) +
      (if b.record.startedAt.isSome && kind .started then 1 else 0) +
      (if b.record.status.isTerminal && kind (.ended b.record.status b.record.startedAt.isSome) then 1 else 0) +
      (if b.removed && kind .removed then 1 else 0) := by
  unfold milestones
  generalize b.record.startedAt.isSome = started
  generalize b.record.status.isTerminal = terminal
  generalize b.removed = removed
  simp only [List.countP_cons, List.countP_append]
  cases started <;> cases terminal <;> cases removed <;>
    simp [List.countP_cons] <;> omega

theorem milestones_new (spec : Spec) : (new spec).milestones = [.created] := rfl

theorem milestones_of_created {b : Box} (hcoherent : b.record.Coherent) (hcreated : b.record.status = .created)
    (hlisted : b.removed = false)
    : b.milestones = [.created] := by
  have hstarted := hcoherent.started.mpr (.inl hcreated)
  have hlive : Status.created.isTerminal = false := rfl
  simp [milestones, hstarted, hcreated, hlisted, hlive]

theorem milestones_of_active {b : Box} (hcoherent : b.record.Coherent) (hactive : b.record.status.isActive = true)
    (hlisted : b.removed = false)
    : b.milestones = [.created, .started] := by
  have hstarted := Option.isSome_iff_ne_none.mpr (hcoherent.startedAt_of_isActive hactive)
  simp [milestones, hstarted, Status.isTerminal_of_isActive hactive, hlisted]

theorem milestones_of_ended {b b' : Box} (hcoherent : b.record.Coherent)
    (hactive : b.record.status.isActive = true) (hlisted : b.removed = false) {now : Moment}
    (hbecomes : b.record.Becomes now b'.record) (hterminal : b'.record.status.isTerminal = true)
    : b'.milestones = b.milestones ++ .ended b'.record.status true :: if b'.removed then [.removed] else [] := by
  have hstarted := Option.isSome_iff_ne_none.mpr (hcoherent.startedAt_of_isActive hactive)
  rw [milestones_of_active hcoherent hactive hlisted]
  simp [milestones, hbecomes.startedAt_of_isTerminal hterminal, hstarted, hterminal]

def Notes (b b' : Box) (deeds : List Deed) : Prop :=
  b'.milestones = b.milestones ++ deeds.filterMap Deed.milestone? ∧
    ∀ past status rest, deeds.filterMap Deed.milestone? = past ++ .ended status true :: rest →
      past = [] ∧ b.record.status.isActive = true

theorem notes_of_eq {b b' : Box} {deeds : List Deed} (news : List Milestone)
    (hdeeds : deeds.filterMap Deed.milestone? = news) (h : b'.milestones = b.milestones ++ news)
    (hends : ∀ past status rest, news = past ++ .ended status true :: rest →
      past = [] ∧ b.record.status.isActive = true)
    : b.Notes b' deeds := by
  subst hdeeds
  exact ⟨h, hends⟩

theorem notes_of_same {b b' : Box} (hrecord : b'.record = b.record) (hremoved : b'.removed = b.removed)
    {deeds : List Deed} (hdeeds : deeds.filterMap Deed.milestone? = [])
    : b.Notes b' deeds := by
  apply notes_of_eq [] hdeeds
  . rw [List.append_nil, milestones_congr hrecord hremoved]
  . simp

theorem countP_flatMap_set {boxes : List Box} {i : Slot} {b b' : Box} {news : List Milestone} {p : Milestone → Bool}
    (hb : boxes[i]? = some b) (h : b'.milestones = b.milestones ++ news)
    : ((boxes.set i b').flatMap milestones).countP p = (boxes.flatMap milestones).countP p + news.countP p := by
  induction boxes generalizing i with
  | nil => simp at hb
  | cons first boxes ih =>
    cases i with
    | zero =>
      obtain rfl : first = b := by simpa using hb
      simp only [List.set_cons_zero, List.flatMap_cons, List.countP_append, h]
      omega
    | succ i =>
      simp only [List.set_cons_succ, List.flatMap_cons, List.countP_append]
      rw [ih (by simpa using hb)]
      omega

theorem Notes.congr {b₀ b b' b₁ : Box} {deeds : List Deed} (h : b.Notes b' deeds) (hrecord : b.record = b₀.record)
    (hremoved : b.removed = b₀.removed) (hrecord' : b₁.record = b'.record) (hremoved' : b₁.removed = b'.removed)
    : b₀.Notes b₁ deeds := by
  unfold Notes at h ⊢
  rwa [milestones_congr hrecord' hremoved', ← milestones_congr hrecord hremoved, ← hrecord]

end Box

theorem Operation.Moves.notes {op : Operation} {b : Box} {origin : Option Stage} {m : Move}
    (h : op.Moves b origin m) (hcoherent : b.record.Coherent) {now : Moment}
    (hbecomes : b.record.Becomes now m.box.record)
    : b.Notes m.box m.deeds := by
  have hcoherent' := hbecomes.coherent hcoherent
  cases h with
  | refuse f turns => exact Box.notes_of_same rfl rfl rfl
  | crash message calm => exact Box.notes_of_same rfl rfl rfl
  | set free fits => exact Box.notes_of_same rfl rfl rfl
  | beginStop stage stops fits => exact Box.notes_of_same rfl rfl rfl
  | press stops fits => exact Box.notes_of_same rfl rfl rfl
  | rearm f stops runs unwatched => exact Box.notes_of_same rfl rfl rfl
  | @launch record pid start created listed running process =>
    have hactive : record.status.isActive = true := by rw [running]; rfl
    apply Box.notes_of_eq [.started] rfl
    . rw [Box.milestones_of_created hcoherent created listed,
        Box.milestones_of_active (b := { b with record }) hcoherent' hactive listed]
      rfl
    . simp [List.cons_eq_append_iff]
  | @failLaunch record message start created listed failed process =>
    have hterminal : record.status.isTerminal = true := by rw [failed]; rfl
    have hstarted : record.startedAt = none := by
      rw [hbecomes.startedAt_of_isTerminal hterminal]
      exact hcoherent.started.mpr (.inl created)
    apply Box.notes_of_eq [.ended .failed false] rfl
    . rw [Box.milestones_of_created hcoherent created listed]
      simp [Box.milestones, hstarted, listed, failed]
      rfl
    . simp [List.cons_eq_append_iff]
  | @turnOver record pid origin runs active process turns =>
    apply Box.notes_of_eq [] rfl
    . rw [Box.milestones_of_active hcoherent runs.active runs.listed,
        Box.milestones_of_active (b := { b with record }) hcoherent' active runs.listed]
      rfl
    . simp
  | @stop record pid grace origin stops runs unwatched stopped process ends =>
    apply Box.notes_of_eq [.ended .stopped true] rfl
    . rw [Box.milestones_of_ended hcoherent runs.active runs.listed hbecomes (by simp only [stopped]; rfl)]
      simp [stopped, runs.listed]
    . simp +contextual [List.cons_eq_append_iff, runs.active]
  | @stopAndRemove record pid origin removes runs unwatched stopped process ends =>
    apply Box.notes_of_eq [.ended .stopped true, .removed] rfl
    . rw [Box.milestones_of_ended hcoherent runs.active runs.listed hbecomes (by simp only [Box.unlist, stopped]; rfl)]
      simp [Box.unlist, stopped]
    . simp +contextual [List.cons_eq_append_iff, runs.active]
  | @remove force removes inactive listed =>
    apply Box.notes_of_eq [.removed] rfl
    . simp [Box.milestones, Box.unlist, listed]
      rfl
    . simp [List.cons_eq_append_iff]

theorem Box.Notices.notes {b : Box} {now : Moment} {task : TaskId} {pid : Pid}
    {result : Except Fault ProcessEnd} {out : Box × List Deed} (h : b.Notices now task pid result out)
    (hcoherent : b.record.Coherent)
    : b.Notes out.1 out.2 := by
  cases h with
  | ignore other => exact Box.notes_of_same rfl rfl rfl
  | @record record watched runs marked ended process =>
    apply Box.notes_of_eq [.ended record.status true] rfl
    . rw [Box.milestones_of_ended hcoherent runs.active runs.listed (.closes marked) ended]
      simp [runs.listed]
    . simp +contextual [List.cons_eq_append_iff, runs.active]

theorem Cell.Happens.notes {c : Cell} {limits : Limits} {fresh : TaskId} {e : Registry.Event}
    {out : Cell × List Effect} {deeds : List Deed} (h : c.Happens limits fresh e out deeds) (hsound : c.Sound)
    (hcoherent : c.box.record.Coherent)
    : c.box.Notes out.1.box deeds := by
  cases h with
  | aside untouched works wakes other => exact Box.notes_of_same untouched.record untouched.removed rfl
  | posts duty => exact Box.notes_of_same rfl rfl rfl
  | @enters now task op c₁ duty claimed eq orderly holder =>
    have huntouched := c.box.untouched_claim task
    have hbox := c₁.box_apply limits fresh task op (op.enter c₁.box)
    have hbecomes : c₁.box.record.Becomes now (op.enter c₁.box).box.record := by
      rw [Operation.record_enter]
      exact .same
    subst eq
    have hnotes := (op.moves_enter _).notes (by rw [huntouched.record]; exact hcoherent) hbecomes
    exact hnotes.congr huntouched.record huntouched.removed hbox.2.1 hbox.2.2
  | @proceeds now task reply op stage duty =>
    have hbox := c.box_apply limits fresh task op (op.proceed limits now c.box stage reply)
    have hmoves := op.moves_proceed (hsound.fits task op stage duty) limits now reply
    exact (hmoves.notes hcoherent (op.becomes_proceed c.box now limits stage reply)).congr rfl rfl hbox.2.1 hbox.2.2
  | @reports e now task d pid result c₁ duty contends claimed eq orderly holder learns =>
    have huntouched := c.box.untouched_claim task
    have hbox := c₁.box_notice fresh now task pid result
    subst eq
    have hnotes := (Box.notices orderly.coherent now task pid result).notes (by rw [huntouched.record]; exact hcoherent)
    exact hnotes.congr huntouched.record huntouched.removed hbox.2.1 hbox.2.2

structure Counters.Within (k k' : Counters) : Prop where
  created : k.created ≤ k'.created
  started : k.started ≤ k'.started
  stopped : k.stopped ≤ k'.stopped
  exited : k.exited ≤ k'.exited
  failed : k.failed ≤ k'.failed
  removed : k.removed ≤ k'.removed

namespace Registry

def milestones (r : Registry) (e : Event) : List (Slot × Milestone) :=
  match e with
  | .create request now clock chance =>
    match r.create request now clock chance with
    | .ok _ => [(r.boxes.length, .created)]
    | .error _ => []
  | e =>
    match e.slot? r with
    | some slot =>
      match r.cell? slot with
      | some c => ((c.deeds r.limits e).filterMap Deed.milestone?).map fun milestone => (slot, milestone)
      | none => []
    | none => []

def ledger (r : Registry) : List Event → List (Slot × Milestone)
  | [] => []
  | e :: es => r.milestones e ++ (r.step e).1.ledger es

def entriesOf (slot : Slot) (ledger : List (Slot × Milestone)) : List Milestone :=
  (ledger.filter fun entry => entry.1 = slot).map Prod.snd

def told (r : Registry) (slot : Slot) : List Milestone :=
  match r.boxes[slot]? with
  | some b => b.milestones
  | none => []

variable {limits : Limits} {allowed : Registry → Event → Prop} {r : Registry}

/--
What an event is to the ledger: it is about a box that is there, and counts what that box then tells and did not
tell before; or it creates a box; or it is about nothing.
-/
inductive Books (r : Registry) (e : Event) : List (Slot × Milestone) → Prop where
  | works {slot : Slot} {c c' : Cell} (cell : r.cell? slot = some c) (changes : Changes r (r.step e).1 slot c')
    (counters : (r.step e).1.counters = (c.deeds r.limits e).foldl Deed.tally r.counters)
    (notes : c.box.Notes c'.box (c.deeds r.limits e)) :
    Books r e (((c.deeds r.limits e).filterMap Deed.milestone?).map fun milestone => (slot, milestone))
  | creates {spec : Spec} {ids : IdSource} (eq : (r.step e).1 = r.add spec ids) :
    Books r e [(r.boxes.length, .created)]
  | nothing (eq : (r.step e).1 = r) : Books r e []

theorem books_of_out {e : Event} (hout : ∀ slot, e.slot? r = some slot → r.boxes[slot]? = none)
    : r.Books e (r.milestones e) := by
  cases e with
  | create request now clock chance =>
    simp only [milestones]
    cases hcreate : r.create request now clock chance with
    | error f => exact .nothing (by simp only [step, hcreate])
    | ok out =>
      rcases create_eq_ok hcreate with ⟨granted, number, ids, -, -, -, -, heq⟩
      exact .creates (by simp only [step, hcreate, heq]; rfl)
  | _ =>
    have heq := (step_of_slot?_out hout).resolve_right (by simp)
    simp only [milestones]
    split
    . next slot hslot =>
      rw [cell?_eq_none.mpr (hout slot hslot)]
      exact .nothing (by rw [heq])
    . exact .nothing (by rw [heq])

theorem books (h : Reachable limits allowed r) (e : Event) : r.Books e (r.milestones e) := by
  have htidy := tidy_of_reachable h
  rcases r.slot?_cases e with ⟨slot, c, he, hc⟩ | hout
  . have hsound := sound_of_reachable h hc
    have hnotes := (hsound.happens (below_of_tidy htidy hc) r.limits slot e).notes hsound (coherent_of_reachable h hc)
    have hworks := Books.works hc (changes_step htidy hc he).1 (counters_step htidy hc he) hnotes
    cases e with
    | create request now clock chance => cases he
    | _ =>
      simp only [milestones, he, hc]
      exact hworks
  . exact books_of_out hout

section Books

variable {e : Event} {entries : List (Slot × Milestone)}

theorem Books.counted (h : r.Books e entries)
    : (r.step e).1.counters = (entries.map Prod.snd).foldl Counters.record r.counters := by
  cases h with
  | works cell changes counters notes => simp [counters, Deed.foldl_tally, List.map_map, Function.comp_def]
  | creates eq =>
    rw [eq]
    rfl
  | nothing eq =>
    rw [eq]
    rfl

theorem Books.told (h : r.Books e entries) (slot : Slot)
    : (r.step e).1.told slot = r.told slot ++ entriesOf slot entries := by
  cases h with
  | @works s c c' cell changes counters notes =>
    by_cases hslot : slot = s
    . subst hslot
      simp [Registry.told, changes.box, (cell?_eq_some.mp cell).1, notes.1, entriesOf, List.filter_map,
        Function.comp_def]
    . have hsame := changes.box_other hslot
      simp [Registry.told, hsame, entriesOf, List.filter_map, Function.comp_def, Ne.symm hslot]
  | @creates spec ids eq =>
    rw [eq]
    by_cases hslot : slot = r.boxes.length
    . subst hslot
      simp [Registry.told, add, entriesOf, Box.milestones_new]
    . have hsame : (r.add spec ids).boxes[slot]? = r.boxes[slot]? := by
        rw [← map_box_cell?, cell?_add_ne spec ids hslot, map_box_cell?]
      simp [Registry.told, hsame, entriesOf, Ne.symm hslot]
  | nothing eq =>
    rw [eq]
    simp [entriesOf]

theorem Books.countP (h : r.Books e entries) (p : Milestone → Bool)
    : ((r.step e).1.boxes.flatMap Box.milestones).countP p =
      (r.boxes.flatMap Box.milestones).countP p + (entries.map Prod.snd).countP p := by
  cases h with
  | @works slot c c' cell changes counters notes =>
    have hbox := (cell?_eq_some.mp cell).1
    rw [changes.boxes (lt_length_of_cell? cell), Box.countP_flatMap_set hbox notes.1]
    simp [List.map_map, Function.comp_def]
  | @creates spec ids eq =>
    rw [eq]
    simp [add, List.flatMap_append, List.countP_append, Box.milestones_new]
  | nothing eq =>
    rw [eq]
    rfl

end Books

section Totals

structure Meter (get : Counters → Nat) (kind : Milestone → Bool) (reached : Box → Bool) : Prop where
  zero : get {} = 0
  record : ∀ k m, get (k.record m) = get k + if kind m then 1 else 0
  told : ∀ b : Box, b.milestones.countP kind = if reached b then 1 else 0

variable {get : Counters → Nat} {kind : Milestone → Bool} {reached : Box → Bool}

theorem Meter.foldl (h : Meter get kind reached) (milestones : List Milestone) (k : Counters)
    : get (milestones.foldl Counters.record k) = get k + milestones.countP kind := by
  induction milestones generalizing k with
  | nil => rfl
  | cons m milestones ih =>
    rw [List.foldl_cons, ih, h.record, List.countP_cons]
    omega

theorem Meter.flatMap (h : Meter get kind reached) (boxes : List Box)
    : (boxes.flatMap Box.milestones).countP kind = boxes.countP reached := by
  induction boxes with
  | nil => rfl
  | cons b boxes ih => rw [List.flatMap_cons, List.countP_append, h.told, ih, List.countP_cons, Nat.add_comm]

theorem Meter.le_foldl (h : Meter get kind reached) (milestones : List Milestone) (k : Counters)
    : get k ≤ get (milestones.foldl Counters.record k) := by
  rw [h.foldl]
  apply Nat.le_add_right

theorem Meter.reads (h : Meter get kind reached) (hr : Reachable limits allowed r)
    : get r.counters = r.boxes.countP reached := by
  rw [← h.flatMap]
  induction hr with
  | start => exact h.zero
  | @step r e hr _ ih =>
    have hbooks := books hr e
    rw [hbooks.counted, h.foldl, hbooks.countP, ih]

theorem meter_created : Meter Counters.created (fun m => m = .created) fun _ => true where
  zero := rfl
  record k m := by
    cases m with
    | ended status wasActive => cases status <;> rfl
    | _ => rfl
  told b := by simp [Box.countP_milestones]

theorem meter_started : Meter Counters.started (fun m => m = .started) fun b => b.record.startedAt.isSome where
  zero := rfl
  record k m := by
    cases m with
    | ended status wasActive => cases status <;> rfl
    | _ => rfl
  told b := by simp [Box.countP_milestones]

theorem meter_removed : Meter Counters.removed (fun m => m = .removed) Box.removed where
  zero := rfl
  record k m := by
    cases m with
    | ended status wasActive => cases status <;> rfl
    | _ => rfl
  told b := by simp [Box.countP_milestones]

theorem countP_endsAs {status : Status} (hstatus : status.isTerminal = true) (b : Box)
    : b.milestones.countP (Milestone.endsAs status) = if b.hasStatus status then 1 else 0 := by
  by_cases h : b.record.status = status
  . simp [Box.countP_milestones, Milestone.endsAs, Box.hasStatus, h, hstatus]
  . simp [Box.countP_milestones, Milestone.endsAs, Box.hasStatus, h]

theorem meter_stopped : Meter Counters.stopped (Milestone.endsAs .stopped) (Box.hasStatus .stopped) where
  zero := rfl
  record k m := by
    cases m with
    | ended status wasActive => cases status <;> rfl
    | _ => rfl
  told := countP_endsAs rfl

theorem meter_exited : Meter Counters.exited (Milestone.endsAs .exited) (Box.hasStatus .exited) where
  zero := rfl
  record k m := by
    cases m with
    | ended status wasActive => cases status <;> rfl
    | _ => rfl
  told := countP_endsAs rfl

theorem meter_failed : Meter Counters.failed (Milestone.endsAs .failed) (Box.hasStatus .failed) where
  zero := rfl
  record k m := by
    cases m with
    | ended status wasActive => cases status <;> rfl
    | _ => rfl
  told := countP_endsAs rfl

theorem within_foldl (k : Counters) (milestones : List Milestone) : k.Within (milestones.foldl Counters.record k) where
  created := meter_created.le_foldl milestones k
  started := meter_started.le_foldl milestones k
  stopped := meter_stopped.le_foldl milestones k
  exited := meter_exited.le_foldl milestones k
  failed := meter_failed.le_foldl milestones k
  removed := meter_removed.le_foldl milestones k

end Totals

section Boxes

theorem length_eq_count (r : Registry) : r.boxes.length = r.count + r.boxes.countP Box.removed := by
  have hsplit := List.length_eq_countP_add_countP Box.removed (l := r.boxes)
  rw [hsplit, count, registered, ← List.countP_eq_length_filter, Nat.add_comm]
  congr 2
  funext b
  cases b.removed <;> rfl

theorem coherent_of_mem (h : Reachable limits allowed r) {b : Box} (hb : b ∈ r.boxes)
    : b.record.Coherent ∧ (b.removed = true → b.record.status.isActive = false) := by
  rcases List.getElem?_of_mem hb with ⟨slot, hslot⟩
  rcases exists_cell? hslot with ⟨c, hc, rfl⟩
  exact ⟨coherent_of_reachable h hc, (sound_of_reachable h hc).coherent.removed⟩

theorem length_active (h : Reachable limits allowed r) : r.active.length = r.census := by
  have hlisted : r.active.length =
      (r.boxes.zipIdx.map Prod.fst).countP fun b => b.record.status.isActive && !b.removed := by
    rw [List.countP_map, active, List.length_map, ← List.countP_eq_length_filter, listing, List.countP_map,
      List.countP_filter]
    rfl
  rw [hlisted, List.zipIdx_map_fst, census]
  apply List.countP_congr
  intro b hb
  have hremoved := (coherent_of_mem h hb).2
  cases hb : b.removed with
  | false => simp
  | true => simp [hremoved hb]

theorem countP_split {boxes : List Box} {p q o : Box → Bool}
    (h : ∀ b ∈ boxes, (p b).toNat = (q b).toNat + (o b).toNat)
    : boxes.countP p = boxes.countP q + boxes.countP o := by
  induction boxes with
  | nil => rfl
  | cons b boxes ih =>
    have hrest := ih fun b hb => h b (List.mem_cons_of_mem _ hb)
    have hone := h b List.mem_cons_self
    simp only [List.countP_cons, hrest]
    cases hp : p b <;> cases hq : q b <;> cases ho : o b <;> simp [hp, hq, ho] at hone ⊢ <;> omega

theorem countP_started {boxes : List Box} (h : ∀ b ∈ boxes, b.record.Coherent)
    : boxes.countP (fun b => b.record.startedAt.isSome) =
      boxes.countP (fun b => b.record.status.isActive) + boxes.countP (Box.hasStatus .stopped) +
        boxes.countP (Box.hasStatus .exited) + boxes.countP Box.failedLater := by
  rw [countP_split (q := fun b => b.record.status.isActive || b.hasStatus .stopped || b.hasStatus .exited)
      (o := Box.failedLater),
    countP_split (q := fun b => b.record.status.isActive || b.hasStatus .stopped) (o := Box.hasStatus .exited),
    countP_split (q := fun b => b.record.status.isActive) (o := Box.hasStatus .stopped)]
  . intro b _
    unfold Box.hasStatus
    cases b.record.status <;> rfl
  . intro b _
    unfold Box.hasStatus
    cases b.record.status <;> rfl
  . intro b hb
    have hstarted := (h b hb).startedAt_eq_none_iff
    unfold Box.hasStatus Box.failedLater
    revert hstarted
    cases b.record.status <;> cases b.record.startedAt <;> simp [Status.isActive]

theorem countP_failed {boxes : List Box} (h : ∀ b ∈ boxes, b.record.Coherent)
    : boxes.countP (Box.hasStatus .failed) = boxes.countP Box.failedLater + boxes.countP Box.failedToStart := by
  apply countP_split
  intro b hb
  have hstarted := (h b hb).started
  have hfailed := (h b hb).failed_of_isStartFailed
  unfold Box.hasStatus Box.failedLater Box.failedToStart
  revert hstarted hfailed
  cases b.record.status <;> cases b.record.startedAt <;>
    cases b.record.ending.any Ending.isStartFailed <;> simp

end Boxes

section Run

theorem entriesOf_append (slot : Slot) (entries entries' : List (Slot × Milestone))
    : entriesOf slot (entries ++ entries') = entriesOf slot entries ++ entriesOf slot entries' := by
  simp [entriesOf]

theorem counted_after (h : Reachable limits (fun _ _ => True) r) (es : List Event)
    : (r.after es).counters = ((r.ledger es).map Prod.snd).foldl Counters.record r.counters := by
  induction es generalizing r with
  | nil => rfl
  | cons e es ih =>
    simp only [after_cons, ledger, List.map_append, List.foldl_append]
    rw [ih (h.step trivial), (books h e).counted]

theorem told_after (h : Reachable limits (fun _ _ => True) r) (es : List Event) (slot : Slot)
    : (r.after es).told slot = r.told slot ++ entriesOf slot (r.ledger es) := by
  induction es generalizing r with
  | nil => simp [ledger, entriesOf]
  | cons e es ih =>
    simp only [after_cons, ledger, entriesOf_append, ← List.append_assoc]
    rw [ih (h.step trivial), (books h e).told]

theorem Books.guarded (h : Reachable limits allowed r) {e : Event} {entries : List (Slot × Milestone)}
    (hbooks : r.Books e entries) {past rest : List Milestone} {status : Status}
    (hentries : entries.map Prod.snd = past ++ .ended status true :: rest)
    : 1 ≤ (past.foldl Counters.record r.counters).active := by
  cases hbooks with
  | @works slot c c' cell changes counters notes =>
    have hnews : (c.deeds r.limits e).filterMap Deed.milestone? = past ++ .ended status true :: rest := by
      simpa [List.map_map, Function.comp_def] using hentries
    rcases notes.2 past status rest hnews with ⟨rfl, hactive⟩
    have hle := weight_le_census cell
    rw [Box.weight_of_active hactive, ← gauge_of_reachable h] at hle
    exact hle
  | creates eq => simp [List.cons_eq_append_iff] at hentries
  | nothing eq => simp at hentries

end Run

/--
The counters are conserved. They are what counting the ledger gives, and the ledger says of each box what the
box tells, those that were removed included. So the totals add up, the gauge shows how many of the registered
boxes are active, no total ever decreases, and no end of an active box is counted when the gauge has run out.
-/
theorem counters_conserved (limits : Limits) (es : List Event)
    : let r := ({ limits } : Registry).after es
      r.counters = ((({ limits } : Registry).ledger es).map Prod.snd).foldl Counters.record {} ∧
      (∀ slot b, r.boxes[slot]? = some b → entriesOf slot (({ limits } : Registry).ledger es) = b.milestones) ∧
      r.counters.created = r.count + r.counters.removed ∧
      r.counters.active = r.active.length ∧
      r.counters.started = r.counters.active + r.counters.stopped + r.counters.exited +
        r.boxes.countP Box.failedLater ∧
      r.counters.failed = r.boxes.countP Box.failedLater + r.boxes.countP Box.failedToStart ∧
      (r.counters.stopped = r.boxes.countP (Box.hasStatus .stopped) ∧
        r.counters.exited = r.boxes.countP (Box.hasStatus .exited) ∧
        r.counters.failed = r.boxes.countP (Box.hasStatus .failed)) ∧
      (∀ later, r.counters.Within (r.after later).counters) ∧
      ∀ e past status rest, (r.milestones e).map Prod.snd = past ++ .ended status true :: rest →
        1 ≤ (past.foldl Counters.record r.counters).active := by
  have hstart : Reachable limits (fun _ _ => True) { limits } := .start
  have hreachable : Reachable limits (fun _ _ => True) (({ limits } : Registry).after es) :=
    hstart.after fun _ _ _ => trivial
  intro r
  have hcoherent : ∀ b ∈ r.boxes, b.record.Coherent := fun b hb => (coherent_of_mem hreachable hb).1
  have hgauge : r.counters.active = r.census := gauge_of_reachable hreachable
  have hcreated : r.counters.created = r.boxes.length := by simpa using meter_created.reads hreachable
  refine ⟨counted_after hstart es, ?_, ?_, ?_, ?_, ?_, ?_, ?_, ?_⟩
  . intro slot b hb
    have htold := told_after hstart es slot
    simp only [told, List.getElem?_nil, List.nil_append] at htold
    rw [← htold, show (({ limits } : Registry).after es).boxes[slot]? = some b from hb]
  . rw [hcreated, meter_removed.reads hreachable, length_eq_count]
  . rw [hgauge, length_active hreachable]
  . rw [meter_started.reads hreachable, meter_stopped.reads hreachable, meter_exited.reads hreachable, hgauge,
      countP_started hcoherent]
    rfl
  . rw [meter_failed.reads hreachable, countP_failed hcoherent]
  . exact ⟨meter_stopped.reads hreachable, meter_exited.reads hreachable, meter_failed.reads hreachable⟩
  . intro later
    rw [counted_after hreachable]
    apply within_foldl
  . intro e past status rest hentries
    exact (books hreachable e).guarded hreachable hentries

theorem counters_conserved_launchAndSuspend
    : let r := ({} : Registry).after launchAndSuspend
      let exit : Event := .reply ⟨9, 0⟩ 1 (.ended (.exited 0))
      r.counters = { created := 1, started := 1, active := 1 } ∧
        entriesOf 0 (({} : Registry).ledger launchAndSuspend) = [.created, .started] ∧
        (r.milestones exit).map Prod.snd = [.ended .stopped true] ∧ 1 ≤ r.counters.active := by
  intro r exit
  rcases counters_conserved {} launchAndSuspend with ⟨hcounted, htold, -, -, -, -, -, -, hguarded⟩
  have hexit : (r.milestones exit).map Prod.snd = [.ended .stopped true] := rfl
  exact ⟨hcounted, htold 0 _ rfl, hexit, hguarded exit [] .stopped [] hexit⟩

end Registry

end BoxRegistry

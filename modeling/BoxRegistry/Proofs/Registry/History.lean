import BoxRegistry.Proofs.Lifecycle.Course
import BoxRegistry.Proofs.Registry.Happens
import BoxRegistry.Service.Basic
import Mathlib.Data.List.Destutter

namespace BoxRegistry

open Time (Moment)

def Spec.Positive (spec : Spec) : Prop :=
  1 ≤ spec.cpus ∧ 1 ≤ spec.memoryMib

namespace Request

variable {request : Request} {granted : Resources} {f : Fault}

theorem checkName_eq_ok {name : String} (h : checkName (some name) = .ok ())
    : Text.isBlank name = false ∧ BoxId.isValid name = false := by
  simp only [checkName] at h
  split at h
  . cases h
  . next hblank =>
    split at h
    . cases h
    . next hvalid => exact ⟨by simpa using hblank, by simpa using hvalid⟩

theorem checkName_eq_error {name : Option String} (h : checkName name = .error f)
    : ∃ reason, f = .invalidSpec reason := by
  cases name with
  | none => cases h
  | some name =>
    simp only [checkName] at h
    split at h
    . cases h
      exact ⟨_, rfl⟩
    . split at h
      . cases h
        exact ⟨_, rfl⟩
      . cases h

inductive Resolves (request : Request) : Except Fault Resources → Prop where
  | granted (image : Text.isBlank request.image = false) (name : checkName request.name = .ok ())
    (cpus : request.cpus.getD Resources.default.cpus ≠ 0)
    (memory : request.memoryMib.getD Resources.default.memoryMib ≠ 0) :
    Resolves request
      (.ok ⟨request.cpus.getD Resources.default.cpus, request.memoryMib.getD Resources.default.memoryMib⟩)
  | refused (reason : String) : Resolves request (.error (.invalidSpec reason))

theorem resolves (request : Request) : request.Resolves request.resolve := by
  unfold resolve
  simp only [bind, Except.bind, pure, Except.pure]
  split
  . exact .refused _
  . next himage =>
    split
    . next hname =>
      rcases checkName_eq_error hname with ⟨reason, rfl⟩
      exact .refused reason
    . next hname =>
      split
      . exact .refused _
      . next hcpus =>
        split
        . exact .refused _
        . next hmemory => exact .granted (by simpa using himage) hname hcpus hmemory

theorem positive_of_resolve (h : request.resolve = .ok granted) : 1 ≤ granted.cpus ∧ 1 ≤ granted.memoryMib := by
  have hresolves := request.resolves
  rw [h] at hresolves
  cases hresolves with
  | granted image name cpus memory => exact ⟨Nat.pos_of_ne_zero cpus, Nat.pos_of_ne_zero memory⟩

theorem granted_of_resolve (h : request.resolve = .ok granted)
    : granted.cpus = request.cpus.getD Resources.default.cpus ∧
      granted.memoryMib = request.memoryMib.getD Resources.default.memoryMib := by
  have hresolves := request.resolves
  rw [h] at hresolves
  cases hresolves
  exact ⟨rfl, rfl⟩

end Request

theorem Cell.Happens.becomes {c : Cell} {limits : Limits} {fresh : TaskId} {e : Registry.Event}
    {out : Cell × List Effect} {deeds : List Deed} (h : c.Happens limits fresh e out deeds)
    : out.1.box.spec = c.box.spec ∧ ∃ now, c.box.record.Becomes now out.1.box.record := by
  cases h with
  | aside untouched works wakes other =>
    refine ⟨untouched.spec, ⟨0, 0⟩, ?_⟩
    rw [untouched.record]
    exact .same
  | posts duty => exact ⟨rfl, ⟨0, 0⟩, .same⟩
  | @enters now task op c₁ duty claimed eq orderly holder =>
    have hbox := c₁.box_apply limits fresh task op (op.enter c₁.box)
    have huntouched := c.box.untouched_claim task
    subst eq
    rw [hbox.1, hbox.2.1, Operation.record_enter, (op.alike_enter _).spec]
    refine ⟨huntouched.spec, now, ?_⟩
    rw [huntouched.record]
    exact .same
  | @proceeds now task reply op stage duty =>
    have hbox := c.box_apply limits fresh task op (op.proceed limits now c.box stage reply)
    rw [hbox.1, hbox.2.1, (op.alike_proceed limits now c.box stage reply).spec]
    exact ⟨rfl, now, op.becomes_proceed c.box now limits stage reply⟩
  | @reports e now task d pid result c₁ duty contends claimed eq orderly holder learns =>
    have hbox := c₁.box_notice fresh now task pid result
    have huntouched := c.box.untouched_claim task
    subst eq
    rw [hbox.1, hbox.2.1]
    refine ⟨huntouched.spec, now, ?_⟩
    rw [← huntouched.record]
    apply Box.becomes_noticeEnd

namespace Registry

variable {limits : Limits} {allowed : Registry → Event → Prop} {r : Registry} {slot : Slot} {c : Cell}

theorem becomes_step (h : Reachable limits allowed r) (hc : r.cell? slot = some c) (e : Event)
    : ∃ c', (r.step e).1.cell? slot = some c' ∧ c'.box.spec = c.box.spec ∧
        ∃ now, c.box.record.Becomes now c'.box.record := by
  have htidy := tidy_of_reachable h
  have hhappens := (sound_of_reachable h hc).happens (below_of_tidy htidy hc) r.limits slot e
  exact ⟨_, (evolves htidy e).cell slot c hc, hhappens.becomes⟩

theorem coherent_of_reachable (h : Reachable limits allowed r) (hc : r.cell? slot = some c)
    : c.box.record.Coherent := by
  have hboth : c.Sound ∧ c.box.record.Coherent := by
    refine cell_of_reachable (P := fun c => c.Sound ∧ c.box.record.Coherent) ?_ ?_ h slot c hc
    . intro spec
      exact ⟨Cell.sound_new spec, Record.coherent_new _⟩
    . intro r slot c e htidy hc _ ih
      have hbelow := below_of_tidy htidy hc
      rcases (ih.1.happens hbelow r.limits slot e).becomes.2 with ⟨now, hbecomes⟩
      exact ⟨ih.1.step hbelow r.limits slot e, hbecomes.coherent ih.2⟩
  exact hboth.2

theorem cell_after (h : Reachable limits (fun _ _ => True) r) (hc : r.cell? slot = some c) (es : List Event)
    : ∃ c', (r.after es).cell? slot = some c' ∧ c'.box.spec = c.box.spec := by
  induction es generalizing r c with
  | nil => exact ⟨c, hc, rfl⟩
  | cons e es ih =>
    rcases becomes_step h hc e with ⟨c₁, hc₁, hspec₁, -⟩
    rcases ih (h.step trivial) hc₁ with ⟨c', hc', hspec⟩
    exact ⟨c', hc', hspec.trans hspec₁⟩

theorem create_of_added (h : r.Tidy) {e : Event} (hnone : r.cell? slot = none)
    (hc : (r.step e).1.cell? slot = some c)
    : ∃ request now clock chance granted number ids,
        e = .create request now clock chance ∧ slot = r.boxes.length ∧ request.resolve = .ok granted ∧
        c.box.spec = .freeze (.ofNumber number) request granted now ∧
        r.create request now clock chance = .ok (.of c.box.spec (.new now) none, r.add c.box.spec ids) := by
  have hout : ¬slot < r.boxes.length := by
    intro hlt
    rw [cell?_eq_none, List.getElem?_eq_none_iff] at hnone
    exact absurd hlt (Nat.not_lt.mpr hnone)
  rcases r.slot?_cases e with ⟨s, cs, he, hcs⟩ | hnowhere
  . have hlt := lt_length_of_cell? hc
    rw [(changes_step h hcs he).1.length] at hlt
    exact absurd hlt hout
  . rcases step_of_slot?_out hnowhere with heq | ⟨request, now, clock, chance, rfl⟩
    . rw [heq, hnone] at hc
      cases hc
    . simp only [step] at hc
      cases hcreate : r.create request now clock chance with
      | error f =>
        rw [hcreate] at hc
        rw [hnone] at hc
        cases hc
      | ok out =>
        rcases create_eq_ok hcreate with ⟨granted, number, ids, hgranted, -, -, hsnapshot, heq⟩
        simp only [hcreate, heq] at hc
        by_cases hslot : slot = r.boxes.length
        . rw [hslot, cell?_add_self h] at hc
          have hspec : c.box.spec = .freeze (.ofNumber number) request granted now := by
            rw [← Option.some.inj hc]
            rfl
          refine ⟨request, now, clock, chance, granted, number, ids, rfl, hslot, hgranted, hspec, ?_⟩
          rw [hspec, ← hsnapshot, ← heq]
          exact hcreate
        . rw [cell?_add_ne _ _ hslot, hnone] at hc
          cases hc

theorem positive_of_added (h : r.Tidy) {e : Event} (hnone : r.cell? slot = none)
    (hc : (r.step e).1.cell? slot = some c)
    : c.box.spec.Positive := by
  rcases create_of_added h hnone hc with ⟨request, now, clock, chance, granted, number, ids, -, -, hgranted, hspec, -⟩
  rw [hspec]
  exact Request.positive_of_resolve hgranted

theorem positive_of_reachable (h : Reachable limits allowed r) (hc : r.cell? slot = some c)
    : c.box.spec.Positive := by
  induction h generalizing c with
  | start => cases hc
  | @step r e hr _ ih =>
    cases hold : r.cell? slot with
    | none => exact positive_of_added (tidy_of_reachable hr) hold hc
    | some c₀ =>
      rcases becomes_step hr hold e with ⟨c', hc', hspec, -⟩
      rw [hc] at hc'
      rw [Option.some.inj hc', hspec]
      exact ih hold

section Trail

def trail (slot : Slot) (r : Registry) : List Event → List Box
  | [] => r.boxes[slot]?.toList
  | e :: es => r.boxes[slot]?.toList ++ (r.step e).1.trail slot es

theorem mem_trail_after {r : Registry} {b : Box} (es : List Event) (h : (r.after es).boxes[slot]? = some b)
    : b ∈ r.trail slot es := by
  induction es generalizing r with
  | nil => simpa [trail] using h
  | cons e es ih => exact List.mem_append_right _ (ih h)

theorem forall_trail {P : Cell → Prop} (hP : ∀ r c, Reachable limits allowed r → r.cell? slot = some c → P c)
    (hallowed : ∀ r e, allowed r e) (h : Reachable limits allowed r) (es : List Event) {b : Box}
    (hb : b ∈ r.trail slot es)
    : ∃ c, c.box = b ∧ P c := by
  have hhere : ∀ r, Reachable limits allowed r → b ∈ r.boxes[slot]?.toList → ∃ c, c.box = b ∧ P c := by
    intro r hr hb
    rcases exists_cell? (Option.mem_toList.mp hb) with ⟨c, hc, hbox⟩
    exact ⟨c, hbox, hP r c hr hc⟩
  induction es generalizing r with
  | nil => exact hhere r h hb
  | cons e es ih =>
    cases List.mem_append.mp hb with
    | inl hb => exact hhere r h hb
    | inr hb => exact ih (h.step (hallowed r e)) hb

theorem spec_of_mem_trail (h : Reachable limits (fun _ _ => True) r) (hc : r.cell? slot = some c) (es : List Event)
    {b : Box} (hb : b ∈ r.trail slot es)
    : b.spec = c.box.spec := by
  have hbox := (cell?_eq_some.mp hc).1
  induction es generalizing r c with
  | nil =>
    simp only [trail, hbox, Option.toList_some, List.mem_singleton] at hb
    rw [hb]
  | cons e es ih =>
    simp only [trail, hbox, Option.toList_some, List.singleton_append, List.mem_cons] at hb
    rcases becomes_step h hc e with ⟨c', hc', hspec, -⟩
    cases hb with
    | inl heq => rw [heq]
    | inr hb => rw [← hspec, ih (h.step trivial) hc' hb (cell?_eq_some.mp hc').1]

theorem spec_of_mem_trails (h : Reachable limits (fun _ _ => True) r) (es : List Event) {b b' : Box}
    (hb : b ∈ r.trail slot es) (hb' : b' ∈ r.trail slot es)
    : b'.spec = b.spec := by
  induction es generalizing r with
  | nil =>
    simp only [trail, Option.mem_toList] at hb hb'
    rw [hb] at hb'
    rw [Option.some.inj hb']
  | cons e es ih =>
    cases hc : r.cell? slot with
    | some c => rw [spec_of_mem_trail h hc _ hb, spec_of_mem_trail h hc _ hb']
    | none =>
      simp only [trail, cell?_eq_none.mp hc, Option.toList_none, List.nil_append] at hb hb'
      exact ih (h.step trivial) hb hb'

def statuses (slot : Slot) (r : Registry) (es : List Event) : List Status :=
  (r.trail slot es).map fun b => b.record.status

theorem course_of_cell (h : Reachable limits (fun _ _ => True) r) (hc : r.cell? slot = some c) (es : List Event)
    : ∃ rest, (r.statuses slot es).destutter (· ≠ ·) = c.box.record.status :: rest ∧
        c.box.record.status.Course rest := by
  have hbox := (cell?_eq_some.mp hc).1
  induction es generalizing r c with
  | nil => exact ⟨[], by simp [statuses, trail, hbox], .stays _⟩
  | cons e es ih =>
    rcases becomes_step h hc e with ⟨c', hc', -, now, hbecomes⟩
    rcases ih (h.step trivial) hc' (cell?_eq_some.mp hc').1 with ⟨rest, hrest, hcourse⟩
    have hcons : r.statuses slot (e :: es) = c.box.record.status :: (r.step e).1.statuses slot es := by
      simp [statuses, trail, hbox]
    have hhead : ∃ tail, (r.step e).1.statuses slot es = c'.box.record.status :: tail := by
      have hbox' := (cell?_eq_some.mp hc').1
      cases es <;> simp [statuses, trail, hbox']
    rcases hhead with ⟨tail, htail⟩
    rw [htail] at hrest
    rw [hcons, htail]
    rcases hbecomes.status with hsame | ⟨t, hnext⟩
    . -- Nothing happened to the record, so the status goes on.
      rw [hsame] at hrest hcourse ⊢
      refine ⟨rest, ?_, hcourse⟩
      rw [List.destutter_cons_cons, if_neg (by simp)]
      exact hrest
    . have hne : c.box.record.status ≠ c'.box.record.status := Status.ne_of_next? hnext
      refine ⟨c'.box.record.status :: rest, ?_, Status.course_cons hnext hcourse⟩
      rw [List.destutter_cons_cons, if_pos hne, ← hrest]
      rfl

theorem course_of_trail (h : Reachable limits (fun _ _ => True) r) (hnone : r.cell? slot = none) (es : List Event)
    : r.trail slot es = [] ∨
      ∃ rest, (r.statuses slot es).destutter (· ≠ ·) = .created :: rest ∧ Status.created.Course rest := by
  induction es generalizing r with
  | nil => exact .inl (by simp [trail, cell?_eq_none.mp hnone])
  | cons e es ih =>
    have hrest : r.trail slot (e :: es) = (r.step e).1.trail slot es := by
      simp [trail, cell?_eq_none.mp hnone]
    have hstatuses : r.statuses slot (e :: es) = (r.step e).1.statuses slot es := by
      simp [statuses, hrest]
    rw [hrest, hstatuses]
    cases hc : (r.step e).1.cell? slot with
    | none => exact ih (h.step trivial) hc
    | some c =>
      rcases (evolves (tidy_of_reachable h) e).added slot c hnone hc with ⟨spec, rfl⟩
      exact .inr (course_of_cell (h.step trivial) hc es)

end Trail

end Registry

section Shown

def Snapshot.record (s : Snapshot) : Record :=
  { status := s.status, pid := s.pid, startedAt := s.startedAt, endedAt := s.endedAt, ending := s.ending,
    lastUpdated := s.lastUpdated }

/--
A snapshot shows a coherent record of a box with processors and memory, and the usage of its process exactly
if the process is running.
-/
structure Snapshot.Coherent (s : Snapshot) : Prop where
  record : s.record.Coherent
  cpus : 1 ≤ s.cpus
  memory : 1 ≤ s.memoryMib
  usage : s.usage.isSome = true ↔ s.status = .running

inductive Service.Finds (s : Service) (slot : Slot) (record : Record) : Prop where
  | get {key : String} (h : s.get key = .ok (slot, record))
  | list {found : List (Slot × Record)} (h : s.list = .ok found) (mem : (slot, record) ∈ found)

theorem Service.Finds.box {s : Service} {slot : Slot} {record : Record} (h : s.Finds slot record)
    : ∃ b, s.registry.boxes[slot]? = some b ∧ b.record = record := by
  cases h with
  | @get key h =>
    rcases bind_eq_ok_iff.mp h with ⟨-, -, h⟩
    rcases bind_eq_ok_iff.mp h with ⟨found, -, h⟩
    split at h
    . next b hb =>
      cases h
      exact ⟨b, hb, rfl⟩
    . cases h
  | @list found h mem =>
    rcases bind_eq_ok_iff.mp h with ⟨-, -, h⟩
    cases h
    simp only [Registry.listing, List.mem_map, List.mem_filter, Prod.mk.injEq, Prod.exists] at mem
    rcases mem with ⟨b, i, ⟨hmem, -⟩, rfl, rfl⟩
    exact ⟨b, (List.mem_zipIdx_iff_getElem?).mp hmem, rfl⟩

theorem Box.snapshot_coherent {spec : Spec} {record : Record} (hspec : spec.Positive) (hrecord : record.Coherent)
    {usage : Option Usage} (husage : usage.isSome = (sampledPid? record).isSome)
    : (Snapshot.of spec record usage).Coherent := by
  refine ⟨hrecord, hspec.1, hspec.2, ?_⟩
  show usage.isSome = true ↔ record.status = .running
  rw [husage]
  unfold sampledPid?
  split
  . next hrunning =>
    have hpid := hrecord.process
    rw [hrunning] at hpid ⊢
    simp [hpid, Status.isActive]
  . next hother => simp [hother]

end Shown

namespace Registry

theorem describe_coherent {limits : Limits} {allowed : Registry → Event → Prop} {r : Registry} {slot : Slot}
    {c : Cell} (h : Reachable limits allowed r) (hc : r.cell? slot = some c) {record : Record}
    (hrecord : record.Coherent) (reading : Option Usage)
    : ∃ usage, (r.describe slot record reading).1 = some (.of c.box.spec record usage) ∧
        (Snapshot.of c.box.spec record usage).Coherent := by
  have hspec := positive_of_reachable h hc
  have husage : ∀ usage : Option Usage, usage.isSome = (Box.sampledPid? record).isSome →
      (Snapshot.of c.box.spec record usage).Coherent := fun _ h => Box.snapshot_coherent hspec hrecord h
  unfold describe
  rw [(cell?_eq_some.mp hc).1]
  dsimp only
  cases hpid : Box.sampledPid? record with
  | none => exact ⟨none, rfl, husage none (by rw [hpid]; rfl)⟩
  | some pid => exact ⟨_, rfl, husage _ (by rw [hpid]; rfl)⟩

/--
The history of every box is coherent. Its statuses, each noted once for as long as it lasts, are a course from
its creation; its spec never changes and has at least one processor and some memory; its record says the same
in all its fields. Whatever is found of a box, and however much later it is shown: it is shown, it is as the
box was when it was found, and it is coherent.
-/
theorem history_coherent (limits : Limits) (es : List Event)
    : (∀ slot,
        (({ limits } : Registry).trail slot es = [] ∨
          ∃ rest, (({ limits } : Registry).statuses slot es).destutter (· ≠ ·) = .created :: rest ∧
            Status.created.Course rest) ∧
        ∀ b ∈ ({ limits } : Registry).trail slot es,
          b.spec.Positive ∧ b.record.Coherent ∧ ∀ b' ∈ ({ limits } : Registry).trail slot es, b'.spec = b.spec) ∧
      ∀ (s : Service) (slot : Slot) (record : Record) (later : List Event) (reading : Option Usage),
        s.registry = ({ limits } : Registry).after es → s.Finds slot record →
        ∃ b ∈ ({ limits } : Registry).trail slot es, b.record = record ∧
          ∃ usage, ((s.registry.after later).describe slot record reading).1 = some (.of b.spec record usage) ∧
            (Snapshot.of b.spec record usage).Coherent := by
  have hstart : Reachable limits (fun _ _ => True) { limits } := .start
  refine ⟨?_, ?_⟩
  . intro slot
    refine ⟨course_of_trail hstart rfl es, ?_⟩
    intro b hb
    rcases forall_trail (P := fun c => c.box.spec.Positive ∧ c.box.record.Coherent)
        (fun r c hr hc => ⟨positive_of_reachable hr hc, coherent_of_reachable hr hc⟩) (fun _ _ => trivial) hstart es hb
      with ⟨c, rfl, hpositive, hcoherent⟩
    exact ⟨hpositive, hcoherent, fun b' hb' => spec_of_mem_trails hstart es hb hb'⟩
  . intro s slot record later reading hregistry hfinds
    rcases hfinds.box with ⟨b, hb, rfl⟩
    rw [hregistry] at hb ⊢
    have hreachable : Reachable limits (fun _ _ => True) (({ limits } : Registry).after es) :=
      hstart.after fun _ _ _ => trivial
    rcases exists_cell? hb with ⟨c, hc, rfl⟩
    have hlater := cell_after hreachable hc later
    refine ⟨c.box, mem_trail_after es hb, rfl, ?_⟩
    rcases hlater with ⟨c', hc', hspec⟩
    rw [← hspec]
    exact describe_coherent (hreachable.after fun _ _ _ => trivial) hc' (coherent_of_reachable hreachable hc) reading

def launchAndSuspend : List Event :=
  [.create { image := "alpine" } ⟨0, 0⟩ 1 0, .begin 0 .start, .turn ⟨0, 0⟩ 0, .reply ⟨0, 0⟩ 0 (.launched 7),
    .turn ⟨0, 0⟩ 1, .begin 0 .pause, .turn ⟨1, 0⟩ 2, .reply ⟨1, 0⟩ 2 .done]

theorem history_coherent_launchAndSuspend
    : let s : Service := { registry := ({} : Registry).after launchAndSuspend }
      let later := s.registry.after [.reply ⟨9, 0⟩ 1 (.ended (.exited 0))]
      (({} : Registry).statuses 0 launchAndSuspend).destutter (· ≠ ·) = [.created, .running, .paused] ∧
        (later.boxes[0]?.map fun b => b.record.status) = some .stopped ∧
        ∃ (record : Record) (b : Box) (usage : Option Usage), s.list = .ok [(0, record)] ∧ record.status = .paused ∧
          (later.describe 0 record none).1 = some (.of b.spec record usage) ∧
          (Snapshot.of b.spec record usage).Coherent := by
  intro s later
  have hlist : s.list = .ok [(0, _)] := rfl
  rcases (history_coherent {} launchAndSuspend).2 s 0 _ [.reply ⟨9, 0⟩ 1 (.ended (.exited 0))] none rfl
    (.list hlist (List.mem_singleton.mpr rfl)) with ⟨b, -, -, usage, hshown, hcoherent⟩
  exact ⟨rfl, rfl, _, b, usage, hlist, rfl, hshown, hcoherent⟩

end Registry

end BoxRegistry

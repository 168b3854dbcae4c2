import BoxRegistry.Proofs.Lifecycle.Course
import BoxRegistry.Proofs.Registry.Dealings
import BoxRegistry.Proofs.Registry.Happens
import BoxRegistry.Proofs.Registry.Stops

namespace BoxRegistry

open Time (Moment Span)
open Dealing (Life Proper)

namespace Cell

def dealing? (c : Cell) (slot : Slot) : Effect → Option Dealing
  | .call task call bound => some (.ask slot task ((c.duty task).bind Duty.op?) c.box.record.status call bound)
  | .release pid => some (.release slot c.box.record.status pid)
  | .wake _ | .settled .. => none

def heard (c : Cell) (limits : Limits) (slot : Slot) : Registry.Event → List Dealing
  | .reply _ task reply =>
    ((c.duty task).bind (Duty.call? limits c.box.spec)).toList.map fun asked => .hear slot task asked.1 reply
  | .create .. | .begin .. | .turn .. | .describe .. => []

def dealings (c : Cell) (limits : Limits) (fresh : TaskId) (slot : Slot) (e : Registry.Event) : List Dealing :=
  c.heard limits slot e ++
    (c.step limits fresh slot e).2.filterMap ((c.step limits fresh slot e).1.dealing? slot)

end Cell

def Stage.Since (slot : Slot) (task : TaskId) (op : Operation) (status : Status) (dealt : List Dealing) :
    Stage → Prop
  | easing pid grace => op.Presses grace ∧ Dealing.Eased slot task op status pid dealt
  | asking pid grace => op = .stop grace ∧ Dealing.Eased slot task op status pid dealt ∧
      ∃ earlier, dealt.filter (Dealing.isOf slot task) =
        earlier ++ [.ask slot task (some op) status (.terminate pid false) (.within grace)]
  | parting pid => ∃ grace, op = .stop grace ∧ Dealing.Eased slot task op status pid dealt ∧
      ∃ earlier, dealt.filter (Dealing.isOf slot task) =
        earlier ++ [.ask slot task (some op) status (.terminate pid false) (.within grace),
          .hear slot task (.terminate pid false) .done,
          .ask slot task (some op) status (.wait pid) .remaining]
  | launching | killing _ | confirming _ | pausing _ | resuming _ => True

section Stages

variable {slot : Slot} {task : TaskId} {op : Operation} {b : Box} {stage : Stage} {dealt : List Dealing}

theorem Dealing.Eased.mono {status : Status} {pid : Pid} {past past' : List Dealing}
    (h : Eased slot task op status pid past) (hpast : ∀ x ∈ past, x ∈ past')
    : Eased slot task op status pid past' :=
  fun hpaused => hpast _ (h hpaused)

theorem Stage.Since.aside {status : Status} (h : stage.Since slot task op status dealt) {news : List Dealing}
    (hnews : ∀ x ∈ news, x.isOf slot task = false)
    : stage.Since slot task op status (dealt ++ news) := by
  have hfilter : (dealt ++ news).filter (Dealing.isOf slot task) = dealt.filter (Dealing.isOf slot task) := by
    have hnone : news.filter (Dealing.isOf slot task) = [] :=
      List.filter_eq_nil_iff.mpr fun x hx => by simp [hnews x hx]
    rw [List.filter_append, hnone, List.append_nil]
  have hmem : ∀ x ∈ dealt, x ∈ dealt ++ news := fun x hx => List.mem_append_left _ hx
  cases stage with
  | easing pid grace => exact ⟨h.1, h.2.mono hmem⟩
  | asking pid grace =>
    rcases h with ⟨hop, heased, hearlier⟩
    exact ⟨hop, heased.mono hmem, by rwa [hfilter]⟩
  | parting pid =>
    rcases h with ⟨grace, hop, heased, hearlier⟩
    exact ⟨grace, hop, heased.mono hmem, by rwa [hfilter]⟩
  | _ => trivial

def Stage.asked (limits : Limits) (slot : Slot) (task : TaskId) (op : Operation) (b : Box) (stage : Stage) : Dealing :=
  .ask slot task (some op) b.record.status (stage.call b.spec) (stage.bound limits)

theorem Operation.Presses.stops {grace : Option Span} (h : op.Presses grace) : op.stops = true := by
  cases grace with
  | none =>
    rw [show op = .remove true from h]
    rfl
  | some grace =>
    rw [show op = .stop grace from h]
    rfl

theorem Stage.Fits.runs (h : stage.Fits op b)
    : stage = .launching ∨ ∃ pid, b.Runs pid ∧ (stage.call b.spec).pid? = some pid := by
  cases stage with
  | launching => exact .inl rfl
  | pausing pid => exact .inr ⟨pid, h.2.2, rfl⟩
  | resuming pid => exact .inr ⟨pid, h.2.2, rfl⟩
  | easing pid grace => exact .inr ⟨pid, h.2.1, rfl⟩
  | asking pid grace => exact .inr ⟨pid, h.2.1, rfl⟩
  | parting pid => exact .inr ⟨pid, h.2.1, rfl⟩
  | killing pid => exact .inr ⟨pid, h.2.1, rfl⟩
  | confirming pid => exact .inr ⟨pid, h.2.1, rfl⟩

theorem Operation.Moves.runs_of_wait {origin : Option Stage} {m : Move} (h : op.Moves b origin m)
    (hnext : m.next = .wait stage)
    : stage = .launching ∨ ∃ pid, b.Runs pid ∧ (stage.call b.spec).pid? = some pid := by
  cases h with
  | set free fits =>
    cases hnext
    exact fits.runs
  | beginStop stage' stops fits =>
    cases hnext
    apply fits.runs.imp_right
    rintro ⟨pid, hruns, hcall⟩
    exact ⟨pid, hruns.congr rfl rfl, hcall⟩
  | press stops fits =>
    cases hnext
    exact fits.runs
  | _ => cases hnext

theorem Operation.Moves.of_wait {origin : Option Stage} {m : Move} (h : op.Moves b origin m)
    (hnext : m.next = .wait stage)
    : m.box = b ∧ m.deeds.filterMap Deed.released? = [] := by
  cases h with
  | set free fits => exact ⟨rfl, rfl⟩
  | beginStop stage' stops fits => exact ⟨rfl, rfl⟩
  | press stops fits => exact ⟨rfl, rfl⟩
  | _ => cases hnext

theorem Operation.Moves.released_of_enter {m : Move} (h : op.Moves b none m)
    : m.deeds.filterMap Deed.released? = [] := by
  cases h <;> rfl

variable (limits : Limits) (slot task)

theorem Operation.Opens.justified (h : op.Opens b stage)
    (hactive : stage ≠ .launching → b.record.status.isActive = true)
    : (stage.asked limits slot task op b).Justified dealt := by
  unfold Stage.asked
  cases h with
  | launch start created =>
    rw [start, created]
    exact .launch
  | ease presses paused =>
    rw [paused]
    exact .ease presses.stops
  | ask stop unpaused =>
    rw [stop]
    exact .terminate (hactive (by simp)) fun hpaused => absurd hpaused unpaused
  | kill remove unpaused =>
    exact .kill (hactive (by simp)) (fun hpaused => absurd hpaused unpaused) (.inl remove)
  | pause pause running =>
    rw [pause, running]
    exact .pause
  | resume resume paused =>
    rw [resume, paused]
    exact .resume

theorem Operation.Opens.since (h : op.Opens b stage)
    : stage.Since slot task op b.record.status (dealt ++ [stage.asked limits slot task op b]) := by
  cases h with
  | ease presses paused =>
    refine ⟨presses, fun _ => ?_⟩
    simp [Stage.asked, paused, Stage.call, Stage.bound]
  | ask stop unpaused =>
    refine ⟨stop, fun hpaused => absurd hpaused unpaused, dealt.filter (Dealing.isOf slot task), ?_⟩
    simp [List.filter_append, Stage.asked, Dealing.isOf, Stage.call, Stage.bound]
  | _ => trivial

theorem Stage.Leads.justified {origin : Stage} {reply : Reply} (h : origin.Leads reply stage)
    (hsince : origin.Since slot task op b.record.status dealt) (hactive : b.record.status.isActive = true)
    : (stage.asked limits slot task op b).Justified (dealt ++ [.hear slot task (origin.call b.spec) reply]) := by
  have hmem : ∀ x ∈ dealt, x ∈ dealt ++ [.hear slot task (origin.call b.spec) reply] :=
    fun x hx => List.mem_append_left _ hx
  unfold Stage.asked
  cases h with
  | ask =>
    rcases hsince with ⟨hpresses, heased⟩
    obtain rfl : op = _ := hpresses
    exact .terminate hactive (heased.mono hmem)
  | press =>
    rcases hsince with ⟨hpresses, heased⟩
    exact .kill hactive (heased.mono hmem) (.inl hpresses)
  | part done => exact .wait hactive
  | @refused pid grace refused =>
    rcases hsince with ⟨rfl, heased, earlier, hearlier⟩
    refine .kill hactive (heased.mono hmem) (.inr ⟨grace, rfl, ?_⟩)
    have := @Dealing.Unheeded.refused slot task grace b.record.status pid earlier reply refused
    rw [List.filter_append, hearlier]
    simpa [Dealing.isOf, Stage.call] using this
  | @remained pid remained =>
    rcases hsince with ⟨grace, rfl, heased, earlier, hearlier⟩
    refine .kill hactive (heased.mono hmem) (.inr ⟨grace, rfl, ?_⟩)
    have := @Dealing.Unheeded.remained slot task grace b.record.status pid earlier reply remained
    rw [List.filter_append, hearlier]
    simpa [Dealing.isOf, Stage.call] using this
  | confirm => exact .wait hactive

theorem Stage.Leads.since {origin : Stage} {reply : Reply} (h : origin.Leads reply stage)
    (hsince : origin.Since slot task op b.record.status dealt)
    : stage.Since slot task op b.record.status
      (dealt ++ [.hear slot task (origin.call b.spec) reply] ++ [stage.asked limits slot task op b]) := by
  have hmem : ∀ x ∈ dealt, x ∈ dealt ++ [.hear slot task (origin.call b.spec) reply] ++
      [stage.asked limits slot task op b] :=
    fun x hx => List.mem_append_left _ (List.mem_append_left _ hx)
  cases h with
  | @ask pid grace =>
    rcases hsince with ⟨hpresses, heased⟩
    refine ⟨hpresses, heased.mono hmem, dealt.filter (Dealing.isOf slot task) ++
      [.hear slot task (Stage.call b.spec (.easing pid (some grace))) reply], ?_⟩
    simp [List.filter_append, Stage.asked, Dealing.isOf, Stage.call, Stage.bound]
  | @part pid grace done =>
    rcases hsince with ⟨hop, heased, earlier, hearlier⟩
    refine ⟨grace, hop, heased.mono hmem, earlier, ?_⟩
    rw [List.filter_append, List.filter_append, hearlier, done]
    simp [Stage.asked, Dealing.isOf, Stage.call, Stage.bound]
  | _ => trivial

end Stages

namespace Cell

/--
What has passed between a box and the backend is as the rules have it, and agrees with the box and with the tasks
that work on it.
-/
structure Conducts (slot : Slot) (c : Cell) (dealt : List Dealing) : Prop where
  proper : Proper dealt
  life : Life slot c.box.record dealt
  since : ∀ t op stage, c.duty t = some (.work op stage) → stage.Since slot t op c.box.record.status dealt

theorem conducts_new (slot : Slot) (spec : Spec) : Conducts slot ⟨.new spec, fun _ => none⟩ [] where
  proper := Dealing.proper_nil
  life := .unlaunched rfl (by simp) (by simp)
  since := by simp

section Dealt

variable {c : Cell} {limits : Limits} {task fresh : TaskId} {slot : Slot} {dealt : List Dealing}

theorem heard_of_idle {e : Registry.Event}
    (h : ∀ now task reply op stage, e = .reply now task reply → c.duty task ≠ some (.work op stage))
    : c.heard limits slot e = [] ∨ ∃ t pid reply, c.duty t = some (.watch pid) ∧
        c.heard limits slot e = [.hear slot t (.wait pid) reply] := by
  cases e with
  | reply now task reply =>
    cases hduty : c.duty task with
    | none => exact .inl (by simp [heard, hduty])
    | some d =>
      cases d with
      | work op stage => exact absurd hduty (h now task reply op stage rfl)
      | watch pid => exact .inr ⟨task, pid, reply, hduty, by simp [heard, hduty, Duty.call?]⟩
      | _ => exact .inl (by simp [heard, hduty, Duty.call?])
  | _ => exact .inl rfl

theorem Conducts.hear (h : c.Conducts slot dealt) {e : Registry.Event}
    (he : ∀ now task reply op stage, e = .reply now task reply → c.duty task ≠ some (.work op stage))
    : c.Conducts slot (dealt ++ c.heard limits slot e) := by
  rcases heard_of_idle he with hnone | ⟨t, pid, reply, hduty, hheard⟩
  . rw [hnone, List.append_nil]
    exact h
  . rw [hheard]
    refine ⟨h.proper.concat .hear, h.life.concat rfl rfl, ?_⟩
    intro t' op stage ht'
    apply (h.since t' op stage ht').aside
    intro x hx
    have hne : t ≠ t' := by
      rintro rfl
      rw [hduty] at ht'
      cases ht'
    rw [List.mem_singleton.mp hx]
    simp [Dealing.isOf, hne]

theorem Conducts.congr (h : c.Conducts slot dealt) {c' : Cell} (hrecord : c'.box.record = c.box.record)
    (hwork : ∀ t op stage, c'.duty t = some (.work op stage) → c.duty t = some (.work op stage))
    : c'.Conducts slot dealt := by
  refine ⟨h.proper, by rw [hrecord]; exact h.life, ?_⟩
  intro t op stage ht
  rw [hrecord]
  exact h.since t op stage (hwork t op stage ht)

theorem dealings_apply (c : Cell) (limits : Limits) (fresh task : TaskId) (op : Operation) (m : Move) (slot : Slot)
    : (c.apply limits fresh task op m).2.filterMap ((c.apply limits fresh task op m).1.dealing? slot) =
      ((m.deeds.filterMap Deed.released?).map fun pid => .release slot m.box.record.status pid) ++
        match m.next with
        | .wait stage => [stage.asked limits slot task op m.box]
        | .finish _ | .crash _ => [] := by
  have hstatus : (c.apply limits fresh task op m).1.box.record.status = m.box.record.status := by
    rw [(c.box_apply limits fresh task op m).2.1]
  rw [filterMap_apply _ _ _ _ _ _ (fun _ => rfl) (fun _ _ => rfl)]
  simp only [dealing?, hstatus, List.filterMap_eq_map']
  cases hnext : m.next with
  | wait stage => simp [c.duty_apply_wait limits fresh task op hnext, Duty.op?, Stage.asked]
  | finish result => rfl
  | crash message => rfl

theorem asked_congr {b b' : Box} (hrecord : b'.record = b.record) (hspec : b'.spec = b.spec) (stage : Stage)
    (op : Operation)
    : stage.asked limits slot task op b' = stage.asked limits slot task op b := by
  simp only [Stage.asked, hrecord, hspec]

theorem Conducts.life_of_asked (h : Life slot c.box.record dealt) {op : Operation} {origin : Option Stage} {m : Move}
    (hm : op.Moves c.box origin m) {stage : Stage} (hnext : m.next = .wait stage)
    : Life slot c.box.record (dealt ++ [stage.asked limits slot task op c.box]) := by
  rcases hm.runs_of_wait hnext with rfl | ⟨pid, hruns, hcall⟩
  . exact h.concat rfl rfl
  . exact h.ask hruns.pid hruns.active ⟨task, _, _, _, _, rfl, hcall, hruns.active⟩

theorem Conducts.enter (h : c.Conducts slot dealt) (horderly : c.Orderly) (hholder : c.box.holder = some task)
    (hfresh : c.duty fresh = none) (op : Operation)
    : let out := c.apply limits fresh task op (op.enter c.box)
      out.1.Conducts slot (dealt ++ out.2.filterMap (out.1.dealing? slot)) := by
  intro out
  have hmoves := op.moves_enter c.box
  have hrecord : out.1.box.record = c.box.record := by
    rw [(c.box_apply limits fresh task op (op.enter c.box)).2.1, Operation.record_enter]
  have hworks : ∀ t op' stage, out.1.duty t = some (.work op' stage) →
      t = task ∧ op' = op ∧ (op.enter c.box).next = .wait stage :=
    fun t op' stage ht => horderly.work_apply hholder hfresh hmoves limits ht
  have hquits : (∀ stage, (op.enter c.box).next ≠ .wait stage) → out.1.Conducts slot (dealt ++ []) := by
    intro hnext
    rw [List.append_nil]
    exact h.congr hrecord fun t op' stage ht => absurd (hworks t op' stage ht).2.2 (hnext stage)
  rw [dealings_apply, hmoves.released_of_enter, List.map_nil, List.nil_append]
  cases hnext : (op.enter c.box).next with
  | wait stage =>
    have hopens := Operation.opens_enter hnext
    dsimp only
    rw [asked_congr (b := c.box) (Operation.record_enter _ _) (op.alike_enter c.box).spec]
    refine ⟨h.proper.concat ?_, ?_, ?_⟩
    . apply hopens.justified
      intro hstage
      rcases hmoves.runs_of_wait hnext with heq | ⟨pid, hruns, -⟩
      . exact absurd heq hstage
      . exact hruns.active
    . rw [hrecord]
      exact Conducts.life_of_asked h.life hmoves hnext
    . intro t op' stage' ht
      rcases hworks t op' stage' ht with ⟨rfl, rfl, hstage⟩
      rw [hnext] at hstage
      cases hstage
      rw [hrecord]
      exact hopens.since slot t limits
  | finish result => exact hquits (by simp [hnext])
  | crash message => exact hquits (by simp [hnext])

theorem Conducts.launched (h : c.Conducts slot dealt) (hcoherent : c.box.Coherent)
    (hcreated : c.box.record.status = .created) (limits : Limits) (task : TaskId) (op : Operation) (now : Moment)
    (reply : Reply)
    : let m := op.proceed limits now c.box .launching reply
      Life slot m.box.record (dealt ++ [.hear slot task (.launch c.box.spec.launchOrder) reply]) ∧
        m.deeds.filterMap Deed.released? = [] := by
  have hpidless : c.box.record.pid = none := by
    have hprocess := hcoherent.process
    rw [hcreated] at hprocess
    simpa [Status.isActive] using hprocess
  simp only [Operation.proceed]
  cases hlaunch : reply.launch limits with
  | ok pid =>
    rcases c.box.record.markRunning_of_created now hcreated pid with ⟨record, hrecord, hstatus, hpid⟩
    have hreply : reply = .launched pid := by
      cases reply <;> cases hlaunch
      rfl
    simp only [Box.succeedStart, hrecord, hreply]
    exact ⟨h.life.launch hpidless hcreated task _ hpid, rfl⟩
  | error message =>
    rcases c.box.record.markStartFailed_of_created now hcreated message with ⟨record, hrecord, hstatus, hpid⟩
    have hreply : Dealing.launched? (.hear slot task (.launch c.box.spec.launchOrder) reply) = none := by
      cases reply <;> first | rfl | cases hlaunch
    simp only [Box.failStart, hrecord]
    exact ⟨h.life.failLaunch hpidless hcreated ⟨rfl, hreply⟩ hpid (by simp [hstatus]), rfl⟩

theorem Conducts.heard_at (h : c.Conducts slot dealt) {op : Operation} {stage : Stage} {m : Move}
    (hm : op.Moves c.box stage m) (hstage : stage ≠ .launching) (reply : Reply)
    : let told := dealt ++ [.hear slot task (stage.call c.box.spec) reply] ++
        (m.deeds.filterMap Deed.released?).map fun pid => .release slot m.box.record.status pid
      Proper told ∧ Life slot m.box.record told := by
  have hquiet : Dealing.answersLaunch (.hear slot task (stage.call c.box.spec) reply) = false := by
    cases stage <;> first | rfl | exact absurd rfl hstage
  have hproper := h.proper.concat (x := .hear slot task (stage.call c.box.spec) reply) .hear
  have hlife := h.life.concat (x := .hear slot task (stage.call c.box.spec) reply) rfl hquiet
  have hsame : Proper (dealt ++ [.hear slot task (stage.call c.box.spec) reply] ++ []) ∧
      Life slot c.box.record (dealt ++ [.hear slot task (stage.call c.box.spec) reply] ++ []) := by
    rw [List.append_nil]
    exact ⟨hproper, hlife⟩
  intro told
  cases hm with
  | refuse f turns => exact hsame
  | crash message calm => exact hsame
  | press stops fits => exact hsame
  | rearm f stops runs unwatched => exact hsame
  | launch start created listed running process => exact absurd rfl hstage
  | failLaunch start created listed failed process => exact absurd rfl hstage
  | @turnOver record pid origin runs active process turns =>
    exact ⟨hsame.1, hsame.2.turn runs.pid runs.active process⟩
  | @stop record pid grace origin stops runs unwatched stopped process ends =>
    have hterminal : record.status.isTerminal = true := by rw [stopped]; rfl
    exact ⟨hproper.concat (.release hterminal), hlife.ended runs.pid runs.active hterminal⟩
  | @stopAndRemove record pid origin removes runs unwatched stopped process ends =>
    have hterminal : record.status.isTerminal = true := by rw [stopped]; rfl
    exact ⟨hproper.concat (.release hterminal), hlife.ended runs.pid runs.active hterminal⟩

theorem Conducts.heard_proceed (h : c.Conducts slot dealt) (hsound : c.Sound) {op : Operation} {stage : Stage}
    (hduty : c.duty task = some (.work op stage)) (limits : Limits) (now : Moment) (reply : Reply)
    : let m := op.proceed limits now c.box stage reply
      let told := dealt ++ [.hear slot task (stage.call c.box.spec) reply] ++
        (m.deeds.filterMap Deed.released?).map fun pid => .release slot m.box.record.status pid
      Proper told ∧ Life slot m.box.record told := by
  have hfits := hsound.fits task op stage hduty
  by_cases hstage : stage = .launching
  . subst hstage
    have hlaunched := h.launched hsound.coherent hfits.2.1 limits task op now reply
    dsimp only at hlaunched ⊢
    rw [hlaunched.2, List.map_nil, List.append_nil]
    exact ⟨h.proper.concat .hear, hlaunched.1⟩
  . exact h.heard_at (op.moves_proceed hfits limits now reply) hstage reply

theorem Conducts.proceed (h : c.Conducts slot dealt) (hsound : c.Sound) (hfresh : c.duty fresh = none)
    {op : Operation} {stage : Stage} (hduty : c.duty task = some (.work op stage)) (now : Moment) (reply : Reply)
    : let out := c.apply limits fresh task op (op.proceed limits now c.box stage reply)
      out.1.Conducts slot (dealt ++ [.hear slot task (stage.call c.box.spec) reply] ++
        out.2.filterMap (out.1.dealing? slot)) := by
  intro out
  have hfits := hsound.fits task op stage hduty
  have hmoves := op.moves_proceed hfits limits now reply
  have hrecord := (c.box_apply limits fresh task op (op.proceed limits now c.box stage reply)).2.1
  have hworks : ∀ t op' stage', out.1.duty t = some (.work op' stage') →
      t = task ∧ op' = op ∧ (op.proceed limits now c.box stage reply).next = .wait stage' :=
    fun t op' stage' ht =>
      hsound.toOrderly.work_apply (hsound.worker task op stage hduty) hfresh hmoves limits ht
  have htold := h.heard_proceed hsound hduty limits now reply
  have hquits : (∀ stage', (op.proceed limits now c.box stage reply).next ≠ .wait stage') → ∀ told, Proper told →
      Life slot (op.proceed limits now c.box stage reply).box.record told → out.1.Conducts slot told := by
    intro hnext told hproper hlife
    rw [← hrecord] at hlife
    exact ⟨hproper, hlife, fun t op' stage' ht => absurd (hworks t op' stage' ht).2.2 (hnext stage')⟩
  rw [dealings_apply]
  cases hnext : (op.proceed limits now c.box stage reply).next with
  | wait stage' =>
    rcases hmoves.of_wait hnext with ⟨hbox, hreleased⟩
    have hleads := Operation.leads_proceed hnext
    have hsince := h.since task op stage hduty
    dsimp only at htold ⊢
    rw [hreleased, hbox, List.map_nil, List.append_nil] at htold
    rw [hreleased, hbox, List.map_nil, List.nil_append]
    rw [hbox] at hrecord
    refine ⟨htold.1.concat ?_, ?_, ?_⟩
    . apply hleads.justified slot task limits hsince
      rcases hmoves.runs_of_wait hnext with rfl | ⟨pid, hruns, -⟩
      . cases hleads
      . exact hruns.active
    . rw [hrecord]
      exact Conducts.life_of_asked htold.2 hmoves hnext
    . intro t op' stage'' ht
      rcases hworks t op' stage'' ht with ⟨rfl, rfl, hwait⟩
      rw [hnext] at hwait
      cases hwait
      rw [hrecord]
      exact hleads.since slot t limits hsince
  | finish result =>
    rw [List.append_nil]
    exact hquits (by simp [hnext]) _ htold.1 htold.2
  | crash message =>
    rw [List.append_nil]
    exact hquits (by simp [hnext]) _ htold.1 htold.2

theorem Conducts.report (h : c.Conducts slot dealt) (horderly : c.Orderly) (hholder : c.box.holder = some task)
    (now : Moment) (pid : Pid) (result : Except Fault ProcessEnd)
    : let out := c.notice fresh now task pid result
      out.1.Conducts slot (dealt ++ out.2.filterMap (out.1.dealing? slot)) := by
  intro out
  have hnotices := Box.notices horderly.coherent now task pid result
  have hrecord := (c.box_notice fresh now task pid result).2.1
  have hworks : ∀ t op stage, out.1.duty t ≠ some (.work op stage) :=
    horderly.not_work_notice hholder fresh now pid result
  have heffects : out.2.filterMap (out.1.dealing? slot) =
      ((c.box.noticeEnd now task pid result).2.filterMap Deed.released?).map
        (.release slot (c.box.noticeEnd now task pid result).1.record.status) := by
    have hstatus : out.1.box.record.status = _ := congrArg Record.status hrecord
    rw [filterMap_notice _ _ _ _ _ _ fun _ => rfl]
    simp only [dealing?, hstatus, List.filterMap_eq_map']
  rw [heffects]
  generalize c.box.noticeEnd now task pid result = noticed at hnotices hrecord ⊢
  cases hnotices with
  | ignore other =>
    refine ⟨?_, ?_, fun t op stage ht => absurd ht (hworks t op stage)⟩
    . exact (List.append_nil dealt).symm ▸ h.proper
    . rw [hrecord]
      exact (List.append_nil dealt).symm ▸ h.life
  | @record record watched runs marked ended process =>
    refine ⟨h.proper.concat (.release ended), ?_, fun t op stage ht => absurd ht (hworks t op stage)⟩
    rw [hrecord]
    exact h.life.ended runs.pid runs.active ended

theorem Conducts.post (h : c.Conducts slot dealt) (hsound : c.Sound) {pid : Pid}
    (hduty : c.duty task = some (.post pid))
    : (c.assign task (.watch pid)).Conducts slot
      (dealt ++ [.ask slot task none c.box.record.status (.wait pid) .unlimited]) := by
  have hwatch := hsound.vigil task _ hduty rfl
  rcases hsound.watch task _ hwatch hduty with ⟨pid', heq, hpid⟩
  cases heq
  have hactive := hsound.coherent.watch task hwatch
  have hlife := h.life.ask hpid hactive ⟨task, none, _, .wait pid, .unlimited, rfl, rfl, hactive⟩
  refine ⟨h.proper.concat (.wait hactive), hlife, ?_⟩
  intro t op stage ht
  rw [duty_assign] at ht
  split at ht
  . cases ht
  . next hne =>
    apply (h.since t op stage ht).aside
    intro x hx
    rw [List.mem_singleton.mp hx]
    simp [Dealing.isOf, Ne.symm hne]

theorem Conducts.step (h : c.Conducts slot dealt) (hsound : c.Sound) (hbelow : c.Below fresh) (limits : Limits)
    (e : Registry.Event)
    : (c.step limits fresh slot e).1.Conducts slot (dealt ++ c.dealings limits fresh slot e) := by
  have hhappens := hsound.happens hbelow limits slot e
  unfold dealings
  rw [← List.append_assoc]
  generalize c.step limits fresh slot e = out at hhappens
  generalize hdeeds : c.deeds limits e = deeds at hhappens
  cases hhappens with
  | @aside e c' effects untouched works wakes other =>
    dsimp only
    rw [filterMap_wakes wakes fun _ => rfl, List.append_nil]
    exact (h.hear other).congr untouched.record fun t op stage ht => (works t op stage).mp ht
  | @posts now task pid duty =>
    have hnews : c.heard limits slot (.turn now task) ++ [Effect.call task (.wait pid) .unlimited].filterMap
        ((c.assign task (.watch pid)).dealing? slot) =
          [.ask slot task none c.box.record.status (.wait pid) .unlimited] := by
      simp [heard, dealing?, duty_assign, Duty.op?]
      rfl
    rw [List.append_assoc, hnews]
    exact h.post hsound duty
  | @enters now task op c₁ duty claimed eq orderly holder =>
    have hclaimed : c₁.Conducts slot dealt := by
      subst eq
      exact h.congr (c.box.untouched_claim task).record fun _ _ _ ht => ht
    have hfresh : c₁.duty fresh = none := by
      rw [eq]
      exact hbelow.fresh
    show Conducts slot _ (dealt ++ [] ++ _)
    rw [List.append_nil]
    exact hclaimed.enter orderly holder hfresh op
  | @proceeds now task reply op stage duty =>
    have hheard : c.heard limits slot (.reply now task reply) = [.hear slot task (stage.call c.box.spec) reply] := by
      simp [heard, duty, Duty.call?]
    rw [hheard]
    exact h.proceed hsound hbelow.fresh duty now reply
  | @reports e now task d pid result c₁ duty contends claimed eq orderly holder learns =>
    have hheard : c.Conducts slot (dealt ++ c.heard limits slot e) :=
      h.hear (not_work_of_learns duty contends learns)
    have hclaimed : c₁.Conducts slot (dealt ++ c.heard limits slot e) := by
      subst eq
      refine hheard.congr (c.box.untouched_claim task).record ?_
      exact fun t op stage ht => work_of_assign (by simp) ht
    exact hclaimed.report orderly holder now pid result

end Dealt

end Cell

end BoxRegistry

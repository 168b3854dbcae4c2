import BoxRegistry.Proofs.Registry.Happens

namespace BoxRegistry

open Time (Moment)

@[ext]
structure Papers where
  ids : IdSource
  names : List (String × BoxId)
  counters : Counters

def Papers.strike (name : Option String) (p : Papers) : Papers :=
  { p with names := p.names.filter fun entry => some entry.1 ≠ name }

def Deed.enact (name : Option String) (p : Papers) : Deed → Papers
  | count milestone => { p with counters := p.counters.record milestone }
  | unlist => p.strike name
  | watch _ | disarm | release _ => p

theorem Deed.ids_enact (name : Option String) (deeds : List Deed) (p : Papers)
    : (deeds.foldl (enact name) p).ids = p.ids := by
  induction deeds generalizing p with
  | nil => rfl
  | cons deed deeds ih =>
    rw [List.foldl_cons, ih]
    cases deed <;> rfl

theorem Papers.strike_strike (name : Option String) (p : Papers) : (p.strike name).strike name = p.strike name := by
  simp [strike]

theorem Deed.names_enact (name : Option String) (deeds : List Deed) (p : Papers)
    : (deeds.foldl (enact name) p).names = if .unlist ∈ deeds then (p.strike name).names else p.names := by
  induction deeds generalizing p with
  | nil => rfl
  | cons deed deeds ih =>
    rw [List.foldl_cons, ih]
    cases deed with
    | unlist => simp [enact, Papers.strike_strike]
    | _ => simp [enact, Papers.strike]

namespace Registry

variable {r : Registry} {slot : Slot}

def papers (r : Registry) : Papers :=
  ⟨r.ids, r.names, r.counters⟩

def specOf? (r : Registry) (slot : Slot) : Option Spec :=
  r.boxes[slot]?.map Box.spec

section Deeds

theorem specOf?_modifyBox (r : Registry) (slot : Slot) {f : Box → Box} (hf : ∀ b, (f b).spec = b.spec)
    : (r.modifyBox slot f).specOf? slot = r.specOf? slot := by
  simp only [specOf?, boxes_modifyBox, if_true, Option.map_map]
  congr 1
  funext b
  exact hf b

theorem papers_disarm (r : Registry) (slot : Slot) (b : Box)
    : (r.disarm slot b).papers = r.papers ∧ (r.disarm slot b).specOf? slot = r.specOf? slot := by
  have hspec := r.specOf?_modifyBox slot (f := fun b => { b with watch := none }) fun _ => rfl
  unfold disarm
  dsimp only
  split
  . exact ⟨rfl, hspec⟩
  . split
    . split <;> exact ⟨rfl, hspec⟩
    . exact ⟨rfl, hspec⟩

theorem papers_perform (r : Registry) (slot : Slot) (b : Box) (deed : Deed)
    : (r.perform slot b deed).1.papers = deed.enact b.spec.name r.papers ∧
      (r.perform slot b deed).1.specOf? slot = r.specOf? slot := by
  have hdisarm := r.papers_disarm slot b
  cases deed with
  | count milestone => exact ⟨rfl, rfl⟩
  | watch pid =>
    refine ⟨hdisarm.1, Eq.trans ?_ hdisarm.2⟩
    exact specOf?_modifyBox ((r.disarm slot b).spawn slot (.post pid)).2 slot fun _ => rfl
  | disarm => exact hdisarm
  | release pid => exact ⟨rfl, rfl⟩
  | unlist => exact ⟨rfl, rfl⟩

theorem papers_performAll {spec : Spec} (hspec : r.specOf? slot = some spec) (deeds : List Deed)
    : (r.performAll slot deeds).1.papers = deeds.foldl (Deed.enact spec.name) r.papers := by
  induction deeds generalizing r with
  | nil => rfl
  | cons deed deeds ih =>
    rcases Option.map_eq_some_iff.mp hspec with ⟨b, hbox, rfl⟩
    have hperform := r.papers_perform slot b deed
    simp only [performAll, hbox]
    rw [ih (by rw [hperform.2, hspec]), hperform.1]
    rfl

theorem papers_leave (r : Registry) (slot : Slot) (task : TaskId) : (r.leave slot task).1.papers = r.papers := by
  unfold leave
  dsimp only
  split <;> rfl

theorem specOf?_replaced {b b' : Box} (hbox : r.boxes[slot]? = some b) (hspec : b'.spec = b.spec)
    : (r.modifyBox slot fun _ => b').specOf? slot = some b.spec := by
  simp [specOf?, hbox, hspec]

variable {b : Box}

theorem papers_apply (hbox : r.boxes[slot]? = some b) (task : TaskId) (op : Operation) {m : Move}
    (hm : m.box.spec = b.spec)
    : (r.apply slot task op m).1.papers = m.deeds.foldl (Deed.enact b.spec.name) r.papers := by
  have hdeeds : ((r.modifyBox slot fun _ => m.box).performAll slot m.deeds).1.papers =
      m.deeds.foldl (Deed.enact b.spec.name) r.papers :=
    papers_performAll (specOf?_replaced hbox hm) m.deeds
  unfold apply
  dsimp only
  cases m.next with
  | wait stage => exact hdeeds
  | finish result => exact (papers_leave _ _ _).trans hdeeds
  | crash message => exact (papers_leave _ _ _).trans hdeeds

theorem papers_notice (hbox : r.boxes[slot]? = some b) (now : Moment) (task : TaskId) (pid : Pid)
    (result : Except Fault ProcessEnd)
    : (r.notice now slot task pid result b).1.papers =
      (b.noticeEnd now task pid result).2.foldl (Deed.enact b.spec.name) r.papers := by
  have hspec := (b.alike_noticeEnd now task pid result).spec
  unfold notice
  dsimp only
  rw [papers_leave, papers_performAll (specOf?_replaced hbox hspec)]
  rfl

end Deeds

section Events

variable {c : Cell}

theorem papers_run (hc : r.cell? slot = some c) {task : TaskId} {d : Duty} (hduty : c.duty task = some d)
    (now : Moment)
    : (r.run now task).1.papers = (c.deedsOfTurn now task).foldl (Deed.enact c.box.spec.name) r.papers := by
  have hbox := (cell?_eq_some.mp hc).1
  have hspec := (c.box.untouched_claim task).spec
  have hclaimed : (r.modifyBox slot fun _ => (c.box.claim task).2).boxes[slot]? = some (c.box.claim task).2 := by
    simp [hbox]
  simp only [run, task?_of_duty hc hduty, hbox, Cell.deedsOfTurn, hduty]
  cases d with
  | enter op =>
    cases hclaim : (c.box.claim task).1 with
    | true =>
      simp only [withBox, hclaim, if_true]
      rw [papers_apply hclaimed task op (op.alike_enter _).spec, hspec]
      rfl
    | false => simp only [withBox, hclaim, Bool.false_eq_true, if_false]; rfl
  | notice pid result =>
    cases hclaim : (c.box.claim task).1 with
    | true =>
      simp only [withBox, hclaim, if_true]
      rw [papers_notice hclaimed now task pid result, hspec]
      rfl
    | false => simp only [withBox, hclaim, Bool.false_eq_true, if_false]; rfl
  | post pid => simp only [ite_self]; rfl
  | work op stage => simp only [ite_self]; rfl
  | watch pid => simp only [ite_self]; rfl

theorem papers_answer (h : r.Tidy) (hc : r.cell? slot = some c) {task : TaskId} {d : Duty}
    (hduty : c.duty task = some d) (now : Moment) (reply : Reply)
    : (r.answer now task reply).1.papers =
      (c.deeds r.limits (.reply now task reply)).foldl (Deed.enact c.box.spec.name) r.papers := by
  have hbox := (cell?_eq_some.mp hc).1
  simp only [answer, task?_of_duty hc hduty, hbox, Cell.deeds, hduty]
  cases d with
  | work op stage => exact papers_apply hbox task op (op.alike_proceed r.limits now c.box stage reply).spec
  | watch pid =>
    have hassign := changes_assign h hc hduty (.notice pid reply.ending)
    have hknows : (c.assign task (.notice pid reply.ending)).duty task = some (.notice pid reply.ending) := by
      simp [Cell.duty_assign]
    have hnotice := papers_run hassign.cell hknows now
    cases reply with
    | panicked message => rfl
    | _ => exact hnotice
  | _ => rfl

theorem papers_step (h : r.Tidy) (hc : r.cell? slot = some c) {e : Event} (he : e.slot? r = some slot)
    : (r.step e).1.papers = (c.deeds r.limits e).foldl (Deed.enact c.box.spec.name) r.papers := by
  cases e with
  | create request now clock chance => cases he
  | begin s op =>
    simp only [step]
    split <;> rfl
  | turn now task =>
    rcases duty_of_slot? hc he with ⟨d, hd⟩
    exact papers_run hc hd now
  | reply now task reply =>
    rcases duty_of_slot? hc he with ⟨d, hd⟩
    exact papers_answer h hc hd now reply
  | describe s record reading =>
    simp only [step, describe]
    cases r.boxes[s]? with
    | none => rfl
    | some b =>
      dsimp only
      split <;> rfl

end Events

end Registry

end BoxRegistry

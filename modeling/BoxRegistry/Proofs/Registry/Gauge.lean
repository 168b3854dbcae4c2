import BoxRegistry.Proofs.Registry.NamesAndCounters

namespace BoxRegistry

open Time (Moment)

def Deed.tally (k : Counters) : Deed → Counters
  | count milestone => k.record milestone
  | watch _ | disarm | release _ | unlist => k

theorem Deed.counters_enact (name : Option String) (deeds : List Deed) (p : Papers)
    : (deeds.foldl (enact name) p).counters = deeds.foldl tally p.counters := by
  induction deeds generalizing p with
  | nil => rfl
  | cons deed deeds ih =>
    rw [List.foldl_cons, List.foldl_cons, ih]
    cases deed <;> rfl

def Box.weight (b : Box) : Nat :=
  if b.record.status.isActive then 1 else 0

theorem Box.weight_congr {b b' : Box} (h : b'.record = b.record) : b'.weight = b.weight := by
  unfold weight
  rw [h]

theorem Box.weight_of_active {b : Box} (h : b.record.status.isActive = true) : b.weight = 1 := by
  simp [weight, h]

theorem Box.weight_of_inactive {b : Box} (h : b.record.status.isActive = false) : b.weight = 0 := by
  simp [weight, h]

def Box.Balances (b b' : Box) (deeds : List Deed) : Prop :=
  ∀ k : Counters, b.weight ≤ k.active → (deeds.foldl Deed.tally k).active + b.weight = k.active + b'.weight

theorem Counters.active_recordEnd (k : Counters) {status : Status} (h : status.isTerminal = true)
    : (k.recordEnd status true).active = k.active - 1 ∧ (k.recordEnd status false).active = k.active := by
  rcases Status.isTerminal_iff.mp h with rfl | rfl | rfl <;> exact ⟨rfl, rfl⟩

theorem Box.balances_end {b b' : Box} (status : Status) (hactive : b.record.status.isActive = true)
    (hstatus : status.isTerminal = true) (hinactive : b'.record.status.isActive = false) {deeds : List Deed}
    (hdeeds : ∀ k, (deeds.foldl Deed.tally k).active = (k.recordEnd status true).active)
    : b.Balances b' deeds := by
  intro k hle
  rw [hdeeds, (k.active_recordEnd hstatus).1]
  rw [weight_of_active hactive] at hle ⊢
  rw [weight_of_inactive hinactive]
  omega

theorem Operation.Moves.balances {op : Operation} {b : Box} {origin : Option Stage} {m : Move}
    (h : op.Moves b origin m)
    : b.Balances m.box m.deeds := by
  cases h with
  | refuse f turns => exact fun k _ => rfl
  | crash message calm => exact fun k _ => rfl
  | set free fits => exact fun k _ => rfl
  | beginStop stage stops fits => exact fun k _ => rfl
  | press stops fits => exact fun k _ => rfl
  | @launch record pid start created listed running process =>
    intro k _
    have hactive : record.status.isActive = true := by rw [running]; rfl
    have hinactive : b.record.status.isActive = false := by rw [created]; rfl
    rw [Box.weight_of_inactive hinactive, Box.weight_of_active (b := { b with record }) hactive]
    rfl
  | @failLaunch record message start created listed failed process =>
    intro k _
    have hinactive' : record.status.isActive = false := by rw [failed]; rfl
    have hinactive : b.record.status.isActive = false := by rw [created]; rfl
    rw [Box.weight_of_inactive hinactive, Box.weight_of_inactive (b := { b with record }) hinactive']
    rfl
  | @turnOver record pid origin runs active process turns =>
    intro k _
    rw [Box.weight_of_active runs.active, Box.weight_of_active (b := { b with record }) active]
    rfl
  | @stop record pid grace origin stops runs unwatched stopped process ends =>
    apply Box.balances_end .stopped runs.active rfl
    . simp [stopped, Status.isActive]
    . exact fun k => rfl
  | @stopAndRemove record pid origin removes runs unwatched stopped process ends =>
    apply Box.balances_end .stopped runs.active rfl
    . simp [Box.unlist, stopped, Status.isActive]
    . exact fun k => rfl
  | rearm f stops runs unwatched => exact fun k _ => rfl
  | @remove force removes inactive listed =>
    intro k _
    have hsame : b.unlist.box.weight = b.weight := Box.weight_congr rfl
    rw [hsame]
    rfl

theorem Box.Notices.balances {b : Box} {now : Moment} {task : TaskId} {pid : Pid}
    {result : Except Fault ProcessEnd} {out : Box × List Deed} (h : b.Notices now task pid result out)
    : b.Balances out.1 out.2 := by
  cases h with
  | ignore other => exact fun k _ => rfl
  | @record record watched runs marked ended process =>
    apply Box.balances_end record.status runs.active ended
    . exact Status.isActive_of_isTerminal ended
    . exact fun k => rfl

theorem Cell.Happens.balances {c : Cell} {limits : Limits} {fresh : TaskId} {e : Registry.Event}
    {out : Cell × List Effect} {deeds : List Deed} (h : c.Happens limits fresh e out deeds) (hsound : c.Sound)
    : c.box.Balances out.1.box deeds := by
  intro k hle
  cases h with
  | aside untouched works wakes other =>
    rw [Box.weight_congr untouched.record]
    rfl
  | posts duty => rfl
  | @enters now task op c₁ duty claimed eq orderly holder =>
    have hweight : c₁.box.weight = c.box.weight := Box.weight_congr (by rw [eq]; exact (c.box.untouched_claim task).record)
    rw [Box.weight_congr (c₁.box_apply limits fresh task op (op.enter c₁.box)).2.1]
    rw [← hweight] at hle ⊢
    exact (op.moves_enter c₁.box).balances k hle
  | @proceeds now task reply op stage duty =>
    rw [Box.weight_congr (c.box_apply limits fresh task op (op.proceed limits now c.box stage reply)).2.1]
    exact (op.moves_proceed (hsound.fits task op stage duty) limits now reply).balances k hle
  | @reports e now task d pid result c₁ duty contends claimed eq orderly holder learns =>
    have hweight : c₁.box.weight = c.box.weight := Box.weight_congr (by rw [eq]; exact (c.box.untouched_claim task).record)
    rw [Box.weight_congr (c₁.box_notice fresh now task pid result).2.1]
    rw [← hweight] at hle ⊢
    exact (Box.notices orderly.coherent now task pid result).balances k hle

namespace Registry

variable {r : Registry} {slot : Slot}

theorem counters_step {c : Cell} (h : r.Tidy) (hc : r.cell? slot = some c) {e : Event}
    (he : e.slot? r = some slot)
    : (r.step e).1.counters = (c.deeds r.limits e).foldl Deed.tally r.counters := by
  have hpapers := congrArg Papers.counters (papers_step h hc he)
  rwa [Deed.counters_enact] at hpapers

theorem gauge_step {c : Cell} (h : r.Tidy) (hsound : c.Sound) (hc : r.cell? slot = some c)
    (hle : c.box.weight ≤ r.counters.active) {e : Event} (he : e.slot? r = some slot)
    : (r.step e).1.counters.active + c.box.weight =
      r.counters.active + (c.step r.limits r.nextTask slot e).1.box.weight := by
  rw [counters_step h hc he]
  exact (hsound.happens (below_of_tidy h hc) r.limits slot e).balances hsound r.counters hle

section Census

def census (r : Registry) : Nat :=
  r.boxes.countP fun b => b.record.status.isActive

theorem weight_le_census {c : Cell} (hc : r.cell? slot = some c) : c.box.weight ≤ r.census := by
  have hbox := (cell?_eq_some.mp hc).1
  unfold Box.weight
  split
  . next hactive =>
    unfold census
    rw [Nat.succ_le_iff, List.countP_pos_iff]
    exact ⟨c.box, List.mem_of_getElem? hbox, hactive⟩
  . exact Nat.zero_le _

theorem Changes.boxes {r' : Registry} {c' : Cell} (h : Changes r r' slot c') (hlt : slot < r.boxes.length)
    : r'.boxes = r.boxes.set slot c'.box := by
  apply List.ext_getElem?
  intro i
  rw [List.getElem?_set]
  split
  . next heq =>
    rw [← heq, h.box]
  . next hne => rw [h.box_other (Ne.symm hne)]

theorem census_of_changes {r' : Registry} {c c' : Cell} (hc : r.cell? slot = some c)
    (h : Changes r r' slot c')
    : r'.census + c.box.weight = r.census + c'.box.weight := by
  have hlt := lt_length_of_cell? hc
  have hbox := (cell?_eq_some.mp hc).1
  have hcount := List.countP_set (p := fun b : Box => b.record.status.isActive) (a := c'.box) hlt
  have hold : r.boxes[slot] = c.box := by
    rw [List.getElem?_eq_getElem hlt] at hbox
    exact Option.some.inj hbox
  have hle := weight_le_census hc
  unfold census at hle ⊢
  rw [h.boxes hlt, hcount, hold]
  unfold Box.weight at hle ⊢
  omega

theorem gauge_of_reachable {limits : Limits} {allowed : Registry → Event → Prop} (h : Reachable limits allowed r)
    : r.counters.active = r.census := by
  induction h with
  | start => rfl
  | @step r e hr _ ih =>
    have htidy := tidy_of_reachable hr
    -- The gauge and the census change by what the weight of the one box of the event does.
    rcases r.slot?_cases e with ⟨slot, c, he, hc⟩ | hout
    . have hle := weight_le_census hc
      have hcensus := census_of_changes hc (changes_step htidy hc he).1
      have hgauge := gauge_step htidy (sound_of_reachable hr hc) hc (by rw [ih]; exact hle) he
      omega
    . rcases step_of_slot?_out hout with heq | ⟨request, now, clock, chance, rfl⟩
      . rw [heq]
        exact ih
      . rcases step_create r request now clock chance with heq | ⟨spec, ids, -, heq⟩
        . rw [heq]
          exact ih
        . rw [heq]
          simp only [census, add, List.countP_append, List.countP_singleton]
          exact ih

end Census

end Registry

end BoxRegistry

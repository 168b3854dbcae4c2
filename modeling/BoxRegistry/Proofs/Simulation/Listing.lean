import BoxRegistry.Proofs.Registry.ConcurrentListing
import BoxRegistry.Simulation.Caller

namespace BoxRegistry.Simulation

open Registry (Reachable)

def Exposure.copy (e : Exposure) : Slot × Record :=
  (e.slot, e.record)

structure Exposure.Shows (r : Registry) (deadline : Nat) (e : Exposure) : Prop where
  shown : ∀ s, e.result = some s → r.Shows e.copy s
  due : e.due ≤ deadline

namespace World

variable {β ε : Type} [Engine β ε] {limits : Limits} {r : Registry} {w : World β ε} {deadline : Nat}

def Follows (r : Registry) (w : World β ε) : Prop :=
  ∃ es, w.service.registry = r.after es

omit [Engine β ε] in
theorem describe_follows (hr : Reachable limits (fun _ _ => True) r) (hw : w.Follows r) {copy : Slot × Record}
    (hcopy : copy ∈ r.listing) (reading : Option Usage)
    : (∃ s, (w.service.registry.describe copy.1 copy.2 reading).1 = some s ∧ r.Shows copy s) ∧
        ∃ es, (w.service.registry.describe copy.1 copy.2 reading).2 = r.after es := by
  rcases hw with ⟨es, hes⟩
  rcases Registry.lt_of_mem_listing hcopy with ⟨b, hb⟩
  rcases Registry.spec_after hr hb es with ⟨b', hb', hspec⟩
  rw [← hes] at hb'
  rcases Registry.describe_shows hb' copy.2 reading with ⟨usage, hshown⟩
  refine ⟨⟨_, hshown, b, usage, hb, by rw [hspec]⟩, es ++ [.describe copy.1 copy.2 reading], ?_⟩
  rw [Registry.after_append, ← hes]
  rfl

theorem span_sample_le (s : Sampler) (limit : Nat) (pid : Pid) : (s.sample limit pid).2.1 ≤ limit := by
  unfold Sampler.sample
  split
  . exact Nat.zero_le limit
  . dsimp only
    split
    . exact Nat.le_refl limit
    . split <;> exact Nat.zero_le limit

section Expose

variable (hr : Reachable limits (fun _ _ => True) r) (hw : w.Follows r)
include hr hw

omit [Engine β ε] in
theorem expose_shows {copy : Slot × Record} (hcopy : copy ∈ r.listing)
    (hdeadline : w.clock + r.limits.sample.ticks ≤ deadline)
    : let out := w.expose copy.1 copy.2
      out.1.Follows r ∧ out.1.clock = w.clock ∧ out.2.copy = copy ∧ out.2.Shows r deadline := by
  rcases describe_follows hr hw hcopy none with ⟨⟨s, hs, hshows⟩, hlater⟩
  unfold expose
  split
  . refine ⟨hlater, rfl, rfl, ?_, Nat.le_trans (Nat.le_add_right _ _) hdeadline⟩
    intro s' hs'
    obtain rfl := Option.some.inj (hs.symm.trans hs')
    exact hshows
  . next pid hpid =>
    refine ⟨hw, rfl, rfl, by simp, ?_⟩
    apply Nat.le_trans ?_ hdeadline
    apply Nat.add_le_add_left
    have hlimits : w.service.registry.limits = r.limits := by
      rcases hw with ⟨es, hes⟩
      rw [hes, Registry.limits_after (Registry.tidy_of_reachable hr)]
    rw [hlimits]
    apply span_sample_le

omit [Engine β ε] in
theorem exposeAll_shows {copies : List (Slot × Record)} (hcopies : ∀ copy ∈ copies, copy ∈ r.listing)
    (hdeadline : w.clock + r.limits.sample.ticks ≤ deadline)
    : let out := w.exposeAll copies
      out.1.Follows r ∧ out.2.map Exposure.copy = copies ∧ ∀ e ∈ out.2, e.Shows r deadline := by
  induction copies generalizing w with
  | nil => exact ⟨hw, rfl, by simp [exposeAll]⟩
  | cons copy copies ih =>
    rcases expose_shows hr hw (hcopies copy List.mem_cons_self) hdeadline with ⟨hfollows, hclock, hcopy, hshows⟩
    have hrest : ∀ copy ∈ copies, copy ∈ r.listing := fun copy h => hcopies copy (List.mem_cons_of_mem _ h)
    rcases ih hfollows hrest (by rwa [hclock]) with ⟨hfollows', hcopies', hshows'⟩
    refine ⟨hfollows', ?_, ?_⟩
    . exact congrArg₂ List.cons hcopy hcopies'
    . intro e he
      rcases List.mem_cons.mp he with rfl | he
      . exact hshows
      . exact hshows' e he

omit [Engine β ε] in
theorem develop_shows {e : Exposure} (hcopy : e.copy ∈ r.listing) (he : e.Shows r deadline)
    : let out := w.develop e
      out.1.Follows r ∧ out.1.clock = w.clock ∧ out.2.copy = e.copy ∧ out.2.Shows r deadline ∧
        (deadline ≤ w.clock → out.2.result.isSome = true) := by
  rcases describe_follows hr hw hcopy e.reading with ⟨⟨s, hs, hshows⟩, hlater⟩
  unfold develop
  split
  . have hresult : (w.service.registry.describe e.slot e.record e.reading).1 = some s := hs
    refine ⟨hlater, rfl, rfl, ⟨?_, he.due⟩, ?_⟩
    . intro s' hs'
      obtain rfl := Option.some.inj (hs.symm.trans hs')
      exact hshows
    . intro _
      dsimp only
      rw [hresult]
      rfl
  . next hnot =>
    refine ⟨hw, rfl, rfl, he, ?_⟩
    intro hdeadline
    have hdue := Nat.le_trans he.due hdeadline
    simpa [hdue, Option.isSome_iff_ne_none] using hnot

omit [Engine β ε] in
theorem developAll_shows {exposures : List Exposure} (hcopies : ∀ e ∈ exposures, e.copy ∈ r.listing)
    (hshown : ∀ e ∈ exposures, e.Shows r deadline)
    : let out := w.developAll exposures
      out.1.Follows r ∧ out.2.map Exposure.copy = exposures.map Exposure.copy ∧ (∀ e ∈ out.2, e.Shows r deadline) ∧
        (deadline ≤ w.clock → ∀ e ∈ out.2, e.result.isSome = true) := by
  induction exposures generalizing w with
  | nil => exact ⟨hw, rfl, by simp [developAll], by simp [developAll]⟩
  | cons e exposures ih =>
    have hhead := develop_shows hr hw (hcopies e List.mem_cons_self) (hshown e List.mem_cons_self)
    rcases hhead with ⟨hfollows, hclock, hcopy, hshows, hdone⟩
    have hrest : ∀ e ∈ exposures, e.copy ∈ r.listing := fun e h => hcopies e (List.mem_cons_of_mem _ h)
    have hrest' : ∀ e ∈ exposures, e.Shows r deadline := fun e h => hshown e (List.mem_cons_of_mem _ h)
    rcases ih hfollows hrest hrest' with ⟨hfollows', hcopies', hshows', hdone'⟩
    rw [hclock] at hdone'
    refine ⟨hfollows', congrArg₂ List.cons hcopy hcopies', ?_, ?_⟩
    . intro e he
      rcases List.mem_cons.mp he with rfl | he
      . exact hshows
      . exact hshows' e he
    . intro hdeadline e he
      rcases List.mem_cons.mp he with rfl | he
      . exact hdone hdeadline
      . exact hdone' hdeadline e he

end Expose

inductive Gets (r : Registry) (deadline : Nat) : Waiting → Prop where
  | under {exposures : List Exposure} (all : exposures.map Exposure.copy = r.listing)
    (shown : ∀ e ∈ exposures, e.Shows r deadline) :
    Gets r deadline (.snapshots exposures)
  | done {snapshots : List Snapshot} {clock : Nat} (shown : List.Forall₂ r.Shows r.listing snapshots) :
    Gets r deadline (.finished (.snapshots snapshots) clock)

theorem gets_of_exposures {exposures : List Exposure} (hall : exposures.map Exposure.copy = r.listing)
    (hshown : ∀ e ∈ exposures, e.Shows r deadline) (clock : Nat)
    : Gets r deadline (if exposures.all fun e => e.result.isSome then
        .finished (.snapshots (exposures.filterMap Exposure.result)) clock else .snapshots exposures) := by
  split
  . next hdone =>
    apply Gets.done
    have hall' : (exposures.map fun e => (e.copy, e.result)).all (fun copy => copy.2.isSome) = true := by
      simpa using hdone
    have hforall := Hall.forall_shown (P := r.Shows) hall' (by simpa using fun e he => (hshown e he).shown)
    rw [List.map_map, List.filterMap_map] at hforall
    rw [← hall]
    exact hforall
  . exact .under hall hshown

theorem gets_beginWish (hr : Reachable limits (fun _ _ => True) w.service.registry)
    (hopen : w.service.closed = false) (id : CallerId)
    : (w.beginWish id .list).1.Follows w.service.registry ∧
        Gets w.service.registry (w.clock + w.service.registry.limits.sample.ticks) (w.beginWish id .list).2 := by
  have hshows := exposeAll_shows hr ⟨[], rfl⟩ (fun _ h => h) (Nat.le_refl _)
  have hlist : w.service.list = .ok w.service.registry.listing := by
    simp [Service.list, Service.gate, hopen, bind, Except.bind, pure, Except.pure]
  have hgets := gets_of_exposures hshows.2.1 hshows.2.2 (w.exposeAll w.service.registry.listing).1.clock
  simp only [beginWish, hlist]
  split
  . next hdone =>
    rw [if_pos hdone] at hgets
    exact ⟨hshows.1, hgets⟩
  . next hnot =>
    rw [if_neg hnot] at hgets
    exact ⟨hshows.1, hgets⟩

theorem gets_advance (hr : Reachable limits (fun _ _ => True) r) (hw : w.Follows r) (id : CallerId)
    {waiting : Waiting} (h : Gets r deadline waiting)
    : (w.advance id waiting).1.Follows r ∧ Gets r deadline (w.advance id waiting).2 ∧
        (deadline ≤ w.clock → ∃ snapshots clock, (w.advance id waiting).2 = .finished (.snapshots snapshots) clock) := by
  cases h with
  | done shown => exact ⟨hw, .done shown, fun _ => ⟨_, _, rfl⟩⟩
  | @under exposures all shown =>
    have hcopies : ∀ e ∈ exposures, e.copy ∈ r.listing := by
      intro e he
      rw [← all]
      exact List.mem_map_of_mem he
    have hshows := developAll_shows hr hw hcopies shown
    have hgets := gets_of_exposures (hshows.2.1.trans all) hshows.2.2.1 (w.developAll exposures).1.clock
    simp only [advance]
    split
    . next hdone =>
      rw [if_pos hdone] at hgets
      exact ⟨hshows.1, hgets, fun _ => ⟨_, _, rfl⟩⟩
    . next hnot =>
      rw [if_neg hnot] at hgets
      refine ⟨hshows.1, hgets, fun hdeadline => absurd ?_ hnot⟩
      rw [List.all_eq_true]
      exact hshows.2.2.2 hdeadline

inductive Attended (id : CallerId) (w : World β ε) (waiting : Waiting) : World β ε → Waiting → Prop where
  | at : Attended id w waiting w waiting
  | later {w₁ w₂ : World β ε} {waiting₁ : Waiting} (es : List Registry.Event) :
    Attended id w waiting w₁ waiting₁ → w₂.service.registry = w₁.service.registry.after es →
      Attended id w waiting (w₂.advance id waiting₁).1 (w₂.advance id waiting₁).2

theorem gets_attended (hr : Reachable limits (fun _ _ => True) r) {id : CallerId} {w' : World β ε}
    {waiting waiting' : Waiting} (h : Attended id w waiting w' waiting') (hw : w.Follows r)
    (hgets : Gets r deadline waiting)
    : w'.Follows r ∧ Gets r deadline waiting' := by
  induction h with
  | «at» => exact ⟨hw, hgets⟩
  | later es _ hlater ih =>
    rcases ih with ⟨⟨es', hes'⟩, hgets'⟩
    have hfollows := gets_advance hr ⟨es' ++ es, by rw [hlater, hes', Registry.after_append]⟩ id hgets'
    exact ⟨hfollows.1, hfollows.2.1⟩

/--
A listing shows one instant. Each caller that lists the boxes, among any others and whatever happens meanwhile, is
given what was registered at one instant between its call and its return, and nothing but other listings can keep
it waiting. At any instant the listing is complete, and later ones go on from there. A caller in a world of its own
is given the listing of the instant at which it calls, as soon as the time for the samples is over.
-/
theorem listing_is_one_instant (limits : Limits)
    : (∀ es : List Hall.Event,
        let h := ({ registry := { limits } } : Hall).after es
        h.registry.Complete ∧ (∀ later, h.registry.Continues (h.after later).registry) ∧
          ∀ caller, (∀ during snapshots, (h.visits caller).isUnderWay = false → .call caller ∉ during →
              (h.after (.call caller :: during)).visits caller = .returned snapshots →
              ∃ first second, during = first ++ second ∧
                let r := (h.after (.call caller :: first)).registry
                List.Forall₂ r.Shows r.listing snapshots ∧ snapshots.map Snapshot.id = r.listedIds) ∧
            ((h.visits caller).isUnderWay = true → h.Returns caller)) ∧
      ∀ (β ε : Type) [Engine β ε] (w : World β ε) (es : List Registry.Event) (id : CallerId),
        w.service.registry = ({ limits } : Registry).after es → w.service.closed = false →
        ∀ w' waiting, Attended id (w.beginWish id .list).1 (w.beginWish id .list).2 w' waiting →
          (∀ outcome clock, waiting = .finished outcome clock → ∃ snapshots, outcome = .snapshots snapshots ∧
            List.Forall₂ w.service.registry.Shows w.service.registry.listing snapshots) ∧
          (w.clock + limits.sample.ticks ≤ w'.clock → ∃ outcome clock, (w'.advance id waiting).2 = .finished outcome clock) := by
  constructor
  . intro es h
    have hsane : h.Sane limits := (Hall.sane_start limits).after es
    refine ⟨Registry.complete_of_reachable hsane.reachable, ?_, ?_⟩
    . intro later
      rcases Hall.exists_after h later with ⟨es', hes'⟩
      rw [hes']
      exact Registry.continues_after hsane.reachable es'
    . intro caller
      constructor
      . exact fun during snapshots hvisit hduring hreturned => Hall.instant_of_returned hsane hvisit hduring hreturned
      . exact Hall.returns hsane
  . intro β ε _ w es id hes hopen w' waiting hattended
    have hr : Reachable limits (fun _ _ => True) w.service.registry := by
      rw [hes]
      exact Reachable.start.after fun _ _ _ => trivial
    have hlimits : w.service.registry.limits = limits := by
      rw [hes, Registry.limits_after (Registry.tidy_start limits)]
    have hbegin := gets_beginWish hr hopen id
    rw [hlimits] at hbegin
    rcases gets_attended hr hattended hbegin.1 hbegin.2 with ⟨hfollows, hgets⟩
    constructor
    . rintro outcome clock rfl
      cases hgets with
      | done shown => exact ⟨_, rfl, shown⟩
    . intro hdeadline
      rcases (gets_advance hr hfollows id hgets).2.2 hdeadline with ⟨snapshots, clock, hdone⟩
      exact ⟨_, clock, hdone⟩

def creation (clock : Nat) : Hall.Event :=
  .event (.create { image := "alpine" } ⟨0, 0⟩ clock 0)

def hallOfOne : Hall :=
  ({ registry := {} } : Hall).after [creation 1]

/--
A caller lists one box. Another box is to be created while it copies the first, which has to wait, and is created
before the copy is shown.
-/
def creationDuringListing : List Hall.Event :=
  [.proceed 0, creation 2, .proceed 0, creation 2, .proceed 0, creation 2, .sample 0 0 none, .proceed 0]

theorem listing_is_one_instant_creationDuringListing
    : (hallOfOne.after (.call 0 :: creationDuringListing)).registry.count = 2 ∧
        ∃ snapshots, (hallOfOne.after (.call 0 :: creationDuringListing)).visits 0 = .returned snapshots ∧
          snapshots.length = 1 ∧ ∃ first second, creationDuringListing = first ++ second ∧
            let r := (hallOfOne.after (.call 0 :: first)).registry
            List.Forall₂ r.Shows r.listing snapshots ∧ snapshots.map Snapshot.id = r.listedIds := by
  have hreturned : ∃ snapshots, (hallOfOne.after (.call 0 :: creationDuringListing)).visits 0 = .returned snapshots :=
    ⟨_, rfl⟩
  rcases hreturned with ⟨snapshots, hreturned⟩
  rcases (listing_is_one_instant {}).1 [creation 1] with ⟨-, -, hcaller⟩
  have hcalled : .call 0 ∉ creationDuringListing := by simp [creationDuringListing, creation]
  refine ⟨rfl, snapshots, hreturned, ?_, (hcaller 0).1 creationDuringListing snapshots rfl hcalled hreturned⟩
  cases hreturned
  rfl

end World

end BoxRegistry.Simulation

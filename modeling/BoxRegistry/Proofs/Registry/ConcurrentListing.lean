import BoxRegistry.Proofs.Registry.Listing
import BoxRegistry.Service.Basic

/-!
This module contains how callers list the boxes of a registry that is at work. A caller waits for the table and
then keeps it for itself while it copies the record of one box after the other. It gives the table back before the
copies are sampled, each in its own time. An event that needs the table waits until nobody keeps it.
-/

namespace BoxRegistry

inductive Visit where
  | away
  | calls
  -- It keeps the table and has copied the boxes before a place.
  | copies (slot : Slot) (copied : List (Slot × Record))
  -- It has given the table back and has snapshots of some of the copies.
  | samples (copies : List ((Slot × Record) × Option Snapshot))
  | returned (snapshots : List Snapshot)

namespace Visit

def isUnderWay : Visit → Bool
  | calls | copies .. | samples _ => true
  | away | returned _ => false

end Visit

/--
A registry with the callers that list its boxes.
-/
structure Hall where
  registry : Registry
  keeper : Option CallerId := none
  visits : CallerId → Visit := fun _ => .away

namespace Hall

inductive Event where
  | event (e : Registry.Event)
  | call (caller : CallerId)
  | proceed (caller : CallerId)
  | sample (caller : CallerId) (place : Nat) (reading : Option Usage)

def Event.isListing : Event → Bool
  | proceed _ | sample .. => true
  | event _ | call _ => false

def set (h : Hall) (caller : CallerId) (visit : Visit) (keeper : Option CallerId) : Hall :=
  { h with keeper, visits := fun c => if c = caller then visit else h.visits c }

def proceed (h : Hall) (caller : CallerId) : Hall :=
  match h.visits caller with
  | .calls => if h.keeper.isNone then h.set caller (.copies 0 []) (some caller) else h
  | .copies slot copied =>
    match h.registry.boxes[slot]? with
    | some b =>
      h.set caller (.copies (slot + 1) (if b.removed then copied else copied ++ [(slot, b.record)])) h.keeper
    | none => h.set caller (.samples (copied.map fun copy => (copy, none))) none
  | .samples copies =>
    if copies.all fun copy => copy.2.isSome then h.set caller (.returned (copies.filterMap Prod.snd)) h.keeper else h
  | .away | .returned _ => h

def sample (h : Hall) (caller : CallerId) (place : Nat) (reading : Option Usage) : Hall :=
  match h.visits caller with
  | .samples copies =>
    match copies[place]? with
    | some ((slot, record), none) =>
      let (snapshot, registry) := h.registry.describe slot record reading
      { h.set caller (.samples (copies.set place ((slot, record), snapshot))) h.keeper with registry }
    | some (_, some _) | none => h
  | .away | .calls | .copies .. | .returned _ => h

def step (h : Hall) : Event → Hall
  | .event e => if h.keeper.isSome && h.registry.commits e then h else { h with registry := (h.registry.step e).1 }
  | .call caller => if (h.visits caller).isUnderWay then h else h.set caller .calls h.keeper
  | .proceed caller => h.proceed caller
  | .sample caller place reading => h.sample caller place reading

def after (h : Hall) (es : List Event) : Hall :=
  es.foldl step h

end Hall

namespace Hall

open Registry (listed listing_eq listed_take_succ Reachable)

variable {limits : Limits} {h : Hall} {caller : CallerId}

/--
What is true of a hall at any time. The one caller that copies records keeps the table, and has copied a part of
the listing of it.
-/
structure Sane (limits : Limits) (h : Hall) : Prop where
  reachable : Reachable limits (fun _ _ => True) h.registry
  keeper : ∀ caller, h.keeper = some caller ↔ ∃ slot copied, h.visits caller = .copies slot copied
  copies : ∀ caller slot copied, h.visits caller = .copies slot copied →
    slot ≤ h.registry.boxes.length ∧ copied = listed (h.registry.table.take slot)
  samples : ∀ caller copies, h.visits caller = .samples copies → ∀ copy ∈ copies, copy.1.1 < h.registry.boxes.length

theorem sane_start (limits : Limits) : Sane limits { registry := { limits } } where
  reachable := .start
  keeper := by simp
  copies := by simp
  samples := by simp

namespace Sane

theorem update (hsane : h.Sane limits) {registry : Registry} (hreachable : Reachable limits (fun _ _ => True) registry)
    (hlength : h.registry.boxes.length ≤ registry.boxes.length)
    (htable : h.keeper.isSome = true → registry.table = h.registry.table)
    : Sane limits { h with registry } where
  reachable := hreachable
  keeper := hsane.keeper
  copies caller slot copied hvisit := by
    have hkeeper : h.keeper = some caller := (hsane.keeper caller).mpr ⟨slot, copied, hvisit⟩
    rcases hsane.copies caller slot copied hvisit with ⟨hslot, hcopied⟩
    rw [htable (by rw [hkeeper]; rfl)]
    exact ⟨Nat.le_trans hslot hlength, hcopied⟩
  samples caller copies hvisit copy hcopy :=
    Nat.lt_of_lt_of_le (hsane.samples caller copies hvisit copy hcopy) hlength

theorem event (hsane : h.Sane limits) (e : Registry.Event)
    (hquiet : h.keeper.isSome = true → h.registry.commits e = false)
    : Sane limits { h with registry := (h.registry.step e).1 } := by
  apply hsane.update (hsane.reachable.step trivial) (Registry.length_after hsane.reachable [e])
  intro hkeeper
  exact Registry.table_step hsane.reachable (hquiet hkeeper)

theorem set (hsane : h.Sane limits) {visit : Visit} {keeper : Option CallerId}
    (hown : keeper = some caller ↔ ∃ slot copied, visit = .copies slot copied)
    (hothers : ∀ c ≠ caller, keeper = some c ↔ h.keeper = some c)
    (hcopies : ∀ slot copied, visit = .copies slot copied →
      slot ≤ h.registry.boxes.length ∧ copied = listed (h.registry.table.take slot))
    (hsamples : ∀ copies, visit = .samples copies → ∀ copy ∈ copies, copy.1.1 < h.registry.boxes.length)
    : Sane limits (h.set caller visit keeper) where
  reachable := hsane.reachable
  keeper c := by
    by_cases hc : c = caller
    . subst hc
      simpa [Hall.set] using hown
    . simpa [Hall.set, hc, hothers c hc] using hsane.keeper c
  copies c slot copied hvisit := by
    by_cases hc : c = caller
    . exact hcopies slot copied (by simpa [Hall.set, hc] using hvisit)
    . exact hsane.copies c slot copied (by simpa [Hall.set, hc] using hvisit)
  samples c copies hvisit := by
    by_cases hc : c = caller
    . exact hsamples copies (by simpa [Hall.set, hc] using hvisit)
    . exact hsane.samples c copies (by simpa [Hall.set, hc] using hvisit)

theorem set_aside (hsane : h.Sane limits) {visit : Visit} (hkeeper : h.keeper ≠ some caller)
    (hcopies : ∀ slot copied, visit ≠ .copies slot copied)
    (hsamples : ∀ copies, visit = .samples copies → ∀ copy ∈ copies, copy.1.1 < h.registry.boxes.length)
    : Sane limits (h.set caller visit h.keeper) := by
  apply hsane.set ?_ (fun _ _ => .rfl) (fun slot copied heq => absurd heq (hcopies slot copied)) hsamples
  simp [hkeeper, hcopies]

theorem not_keeper (hsane : h.Sane limits) (hvisit : ∀ slot copied, h.visits caller ≠ .copies slot copied)
    : h.keeper ≠ some caller := by
  intro hkeeper
  rcases (hsane.keeper caller).mp hkeeper with ⟨slot, copied, heq⟩
  exact hvisit slot copied heq

theorem copied_eq_listing (hsane : h.Sane limits) {slot : Slot} {copied : List (Slot × Record)}
    (hvisit : h.visits caller = .copies slot copied) (hnone : h.registry.boxes[slot]? = none)
    : copied = h.registry.listing := by
  rw [(hsane.copies caller slot copied hvisit).2, listing_eq, List.take_of_length_le]
  simpa [Registry.table] using hnone

theorem proceed (hsane : h.Sane limits) (caller : CallerId) : (h.proceed caller).Sane limits := by
  unfold Hall.proceed
  split
  . next hvisit =>
    split
    . next hfree =>
      have hnone : h.keeper = none := by simpa using hfree
      apply hsane.set (by simp)
      . intro c hc
        simp [hnone, hc.symm]
      . intro slot copied heq
        cases heq
        exact ⟨Nat.zero_le _, rfl⟩
      . simp
    . exact hsane
  . next slot copied hvisit =>
    have hkeeper : h.keeper = some caller := (hsane.keeper caller).mpr ⟨slot, copied, hvisit⟩
    split
    . next b hb =>
      have hrow : h.registry.table[slot]? = some (b.spec, b.record, b.removed) := by simp [Registry.table, hb]
      apply hsane.set (by simp [hkeeper]) (fun _ _ => .rfl)
      . intro slot' copied' heq
        cases heq
        rw [listed_take_succ hrow, (hsane.copies caller slot copied hvisit).2]
        exact ⟨(List.getElem?_eq_some_iff.mp hb).1, rfl⟩
      . simp
    . next hnone =>
      apply hsane.set (by simp)
      . intro c hc
        simp [hkeeper, hc.symm]
      . simp
      . intro copies heq copy hcopy
        cases heq
        rcases List.mem_map.mp hcopy with ⟨entry, hentry, rfl⟩
        rw [hsane.copied_eq_listing hvisit hnone] at hentry
        rcases Registry.lt_of_mem_listing hentry with ⟨b, hb⟩
        exact (List.getElem?_eq_some_iff.mp hb).1
  . next copies hvisit =>
    split
    . exact hsane.set_aside (hsane.not_keeper (by simp [hvisit])) (by simp) (by simp)
    . exact hsane
  . exact hsane
  . exact hsane

theorem sample (hsane : h.Sane limits) (caller : CallerId) (place : Nat) (reading : Option Usage)
    : (h.sample caller place reading).Sane limits := by
  unfold Hall.sample
  split
  . next copies hvisit =>
    split
    . next slot record hplace =>
      have hset : Sane limits (h.set caller
          (.samples (copies.set place ((slot, record), (h.registry.describe slot record reading).1))) h.keeper) := by
        apply hsane.set_aside (hsane.not_keeper (by simp [hvisit])) (by simp)
        intro copies' heq copy hcopy
        cases heq
        rcases List.mem_or_eq_of_mem_set hcopy with hmem | rfl
        . exact hsane.samples caller copies hvisit copy hmem
        . exact hsane.samples caller copies hvisit ((slot, record), none) (List.mem_of_getElem? hplace)
      apply hset.event (.describe slot record reading)
      intro hkeeper
      simp [Registry.commits, Cell.commits]
    . exact hsane
    . exact hsane
  . exact hsane
  . exact hsane
  . exact hsane
  . exact hsane

theorem step (hsane : h.Sane limits) (e : Event) : (h.step e).Sane limits := by
  cases e with
  | event e =>
    simp only [Hall.step]
    split
    . exact hsane
    . next hnot =>
      apply hsane.event
      intro hkeeper
      simpa [hkeeper] using hnot
  | call caller =>
    simp only [Hall.step]
    split
    . exact hsane
    . next hidle =>
      apply hsane.set_aside (hsane.not_keeper ?_) (by simp) (by simp)
      intro slot copied hvisit
      rw [hvisit] at hidle
      exact hidle rfl
  | proceed caller => exact hsane.proceed caller
  | sample caller place reading => exact hsane.sample caller place reading

theorem after (hsane : h.Sane limits) (es : List Event) : (h.after es).Sane limits := by
  induction es generalizing h with
  | nil => exact hsane
  | cons e es ih => exact ih (hsane.step e)

end Sane

section Saw

inductive Saw (h : Hall) (es : List Event) : Visit → Prop where
  | calls : Saw h es .calls
  | copies {slot : Slot} {copied : List (Slot × Record)} : Saw h es (.copies slot copied)
  | samples {first second : List Event} {copies : List ((Slot × Record) × Option Snapshot)} (eq : es = first ++ second)
    (all : copies.map Prod.fst = (h.after first).registry.listing)
    (shown : ∀ copy ∈ copies, ∀ s, copy.2 = some s → (h.after first).registry.Shows copy.1 s) :
    Saw h es (.samples copies)
  | returned {first second : List Event} {snapshots : List Snapshot} (eq : es = first ++ second)
    (shown : List.Forall₂ (h.after first).registry.Shows (h.after first).registry.listing snapshots) :
    Saw h es (.returned snapshots)

variable {es : List Event} {visit : Visit}

theorem after_append (h : Hall) (es es' : List Event) : h.after (es ++ es') = (h.after es).after es' := by
  simp [after]

theorem Saw.later (hsaw : h.Saw es visit) (e : Event) : h.Saw (es ++ [e]) visit := by
  cases hsaw with
  | calls => exact .calls
  | copies => exact .copies
  | @samples first second copies eq all shown => exact .samples (by rw [eq, List.append_assoc]) all shown
  | @returned first second snapshots eq shown => exact .returned (by rw [eq, List.append_assoc]) shown

theorem forall_shown {P : Slot × Record → Snapshot → Prop} {copies : List ((Slot × Record) × Option Snapshot)}
    (hall : copies.all (fun copy => copy.2.isSome) = true) (hshown : ∀ copy ∈ copies, ∀ s, copy.2 = some s → P copy.1 s)
    : List.Forall₂ P (copies.map Prod.fst) (copies.filterMap Prod.snd) := by
  induction copies with
  | nil => exact .nil
  | cons copy copies ih =>
    rw [List.all_cons, Bool.and_eq_true, Option.isSome_iff_exists] at hall
    rcases hall with ⟨⟨s, hs⟩, hall⟩
    rw [List.map_cons, List.filterMap_cons_some hs]
    apply List.Forall₂.cons
    . exact hshown copy List.mem_cons_self s hs
    . exact ih hall fun copy hcopy => hshown copy (List.mem_cons_of_mem _ hcopy)

theorem registry_proceed (h : Hall) (caller : CallerId) : (h.proceed caller).registry = h.registry := by
  unfold proceed
  repeat' split
  all_goals rfl

theorem registry_sample (h : Hall) (caller : CallerId) (place : Nat) (reading : Option Usage)
    : (h.sample caller place reading).registry = h.registry ∨
      ∃ slot record, (h.sample caller place reading).registry = (h.registry.step (.describe slot record reading)).1 := by
  unfold sample
  split
  . split
    . exact .inr ⟨_, _, rfl⟩
    . exact .inl rfl
    . exact .inl rfl
  . exact .inl rfl
  . exact .inl rfl
  . exact .inl rfl
  . exact .inl rfl

theorem registry_step (h : Hall) (e : Event)
    : (h.step e).registry = h.registry ∨ ∃ e', (h.step e).registry = (h.registry.step e').1 := by
  cases e with
  | event e =>
    simp only [step]
    split
    . exact .inl rfl
    . exact .inr ⟨e, rfl⟩
  | call caller =>
    simp only [step]
    split <;> exact .inl rfl
  | proceed caller => exact .inl (h.registry_proceed caller)
  | sample caller place reading =>
    rcases h.registry_sample caller place reading with heq | ⟨slot, record, heq⟩
    . exact .inl heq
    . exact .inr ⟨_, heq⟩

theorem exists_after (h : Hall) (es : List Event) : ∃ es', (h.after es).registry = h.registry.after es' := by
  induction es generalizing h with
  | nil => exact ⟨[], rfl⟩
  | cons e es ih =>
    rcases ih (h.step e) with ⟨es', hlater⟩
    rcases h.registry_step e with heq | ⟨e', heq⟩
    . exact ⟨es', by rw [← heq]; exact hlater⟩
    . exact ⟨e' :: es', by rw [Registry.after_cons, ← heq]; exact hlater⟩

section Steps

variable {hall : Hall}

theorem visits_set (h : Hall) (caller : CallerId) (visit : Visit) (keeper : Option CallerId) (c : CallerId)
    : (h.set caller visit keeper).visits c = if c = caller then visit else h.visits c := rfl

theorem visits_proceed_ne (h : Hall) {c : CallerId} (hne : c ≠ caller) : (h.proceed caller).visits c = h.visits c := by
  unfold proceed
  repeat' split
  all_goals simp [visits_set, hne]

theorem visits_sample_ne (h : Hall) {c : CallerId} (hne : c ≠ caller) (place : Nat) (reading : Option Usage)
    : (h.sample caller place reading).visits c = h.visits c := by
  unfold sample
  repeat' split
  all_goals simp [visits_set, hne]

theorem Saw.proceed (hsane : (h.after es).Sane limits) (hsaw : h.Saw es ((h.after es).visits caller))
    : h.Saw (es ++ [.proceed caller]) (((h.after es).proceed caller).visits caller) := by
  have hlater := hsaw.later (.proceed caller)
  unfold Hall.proceed
  split
  . next hvisit =>
    split
    . rw [visits_set, if_pos rfl]
      exact .copies
    . exact hlater
  . next slot copied hvisit =>
    split
    . rw [visits_set, if_pos rfl]
      exact .copies
    . next hnone =>
      rw [visits_set, if_pos rfl]
      refine .samples rfl ?_ ?_
      . rw [List.map_map, ← hsane.copied_eq_listing hvisit hnone]
        exact List.map_id _
      . intro copy hcopy s hs
        rcases List.mem_map.mp hcopy with ⟨entry, -, rfl⟩
        cases hs
  . next copies hvisit =>
    split
    . next hall =>
      rw [visits_set, if_pos rfl]
      rw [hvisit] at hlater
      cases hlater with
      | samples eq all shown =>
        refine .returned eq ?_
        rw [← all]
        exact forall_shown hall shown
    . exact hlater
  . exact hlater
  . exact hlater

theorem Saw.sample (hsane : h.Sane limits) (hsaw : h.Saw es ((h.after es).visits caller)) (place : Nat)
    (reading : Option Usage)
    : h.Saw (es ++ [.sample caller place reading]) (((h.after es).sample caller place reading).visits caller) := by
  have hlater := hsaw.later (.sample caller place reading)
  unfold Hall.sample
  split
  . next copies hvisit =>
    split
    . next slot record hplace =>
      dsimp only
      rw [visits_set, if_pos rfl]
      rw [hvisit] at hsaw
      cases hsaw with
      | @samples first second copies eq all shown =>
        have hcopy : (slot, record) ∈ copies.map Prod.fst :=
          List.mem_map.mpr ⟨_, List.mem_of_getElem? hplace, rfl⟩
        have hset : (copies.set place ((slot, record), ((h.after es).registry.describe slot record reading).1)).map
            Prod.fst = copies.map Prod.fst := by
          have hsame : (copies.map Prod.fst)[place]? = some (slot, record) := by
            rw [List.getElem?_map, hplace]
            rfl
          rcases List.getElem?_eq_some_iff.mp hsame with ⟨hlt, hget⟩
          rw [List.map_set]
          dsimp only
          rw [← hget, List.set_getElem_self]
        have hes : es ++ [.sample caller place reading] = first ++ (second ++ [.sample caller place reading]) := by
          rw [eq, List.append_assoc]
        refine .samples hes (hset.trans all) ?_
        intro copy hmem s hs
        rcases List.mem_or_eq_of_mem_set hmem with hmem | rfl
        . exact shown copy hmem s hs
        . -- The box has been there since the instant of the listing, with the spec that it has now.
          rw [all] at hcopy
          rcases Registry.lt_of_mem_listing hcopy with ⟨b, hb⟩
          rcases exists_after (h.after first) second with ⟨es', heq⟩
          rw [← after_append, ← eq] at heq
          rcases Registry.spec_after (hsane.after first).reachable hb es' with ⟨b', hb', hspec⟩
          rw [← heq] at hb'
          rcases Registry.describe_shows hb' record reading with ⟨usage, hshown⟩
          rw [hshown] at hs
          refine ⟨b, usage, hb, ?_⟩
          rw [← hspec]
          exact (Option.some.inj hs).symm
    . exact hlater
    . exact hlater
  . exact hlater
  . exact hlater
  . exact hlater
  . exact hlater

theorem Saw.step (hsane : h.Sane limits) (hsaw : h.Saw es ((h.after es).visits caller)) {e : Event}
    (he : e ≠ .call caller)
    : h.Saw (es ++ [e]) ((h.after (es ++ [e])).visits caller) := by
  rw [after_append]
  show h.Saw (es ++ [e]) (((h.after es).step e).visits caller)
  have hlater := hsaw.later e
  cases e with
  | event e =>
    simp only [Hall.step]
    split <;> exact hlater
  | call c =>
    have hne : caller ≠ c := by
      rintro rfl
      exact he rfl
    simp only [Hall.step]
    split
    . exact hlater
    . rwa [visits_set, if_neg hne]
  | proceed c =>
    by_cases hc : caller = c
    . subst hc
      exact hsaw.proceed (hsane.after es)
    . simp only [Hall.step]
      rwa [visits_proceed_ne _ hc]
  | sample c place reading =>
    by_cases hc : caller = c
    . subst hc
      exact hsaw.sample hsane place reading
    . simp only [Hall.step]
      rwa [visits_sample_ne _ hc]

theorem Saw.after (hsane : h.Sane limits) (hvisit : (h.visits caller).isUnderWay = false) {during : List Event}
    (hduring : .call caller ∉ during)
    : h.Saw (.call caller :: during) ((h.after (.call caller :: during)).visits caller) := by
  induction during using List.reverseRecOn with
  | nil =>
    simp only [Hall.after, List.foldl_cons, List.foldl_nil, Hall.step, hvisit, Bool.false_eq_true, if_false, visits_set]
    exact .calls
  | append_singleton during e ih =>
    rw [List.mem_append, List.mem_singleton, not_or] at hduring
    exact (ih hduring.1).step hsane fun heq => hduring.2 heq.symm

end Steps

end Saw

theorem instant_of_returned (hsane : h.Sane limits) (hvisit : (h.visits caller).isUnderWay = false)
    {during : List Event} (hduring : .call caller ∉ during) {snapshots : List Snapshot}
    (hreturned : (h.after (.call caller :: during)).visits caller = .returned snapshots)
    : ∃ first second, during = first ++ second ∧
        let r := (h.after (.call caller :: first)).registry
        List.Forall₂ r.Shows r.listing snapshots ∧ snapshots.map Snapshot.id = r.listedIds := by
  have hsaw := Saw.after hsane hvisit hduring
  rw [hreturned] at hsaw
  cases hsaw with
  | @returned first second snapshots eq shown =>
    cases first with
    | nil =>
      -- The call itself leaves the registry as it is.
      have hcall : (h.after [.call caller]).registry = h.registry := by
        simp only [after, List.foldl_cons, List.foldl_nil, step, hvisit]
        rfl
      refine ⟨[], during, rfl, ?_⟩
      rw [hcall]
      exact ⟨shown, Registry.ids_of_shows shown⟩
    | cons e first =>
      cases eq
      exact ⟨first, second, rfl, shown, Registry.ids_of_shows shown⟩

section Progress

variable {es : List Event}

def Returns (h : Hall) (caller : CallerId) : Prop :=
  ∃ es, (∀ e ∈ es, e.isListing = true) ∧ ∃ snapshots, (h.after es).visits caller = .returned snapshots

theorem Returns.of_after (hes : ∀ e ∈ es, e.isListing = true) (h' : (h.after es).Returns caller) : h.Returns caller := by
  rcases h' with ⟨es', hes', snapshots, hreturned⟩
  refine ⟨es ++ es', ?_, snapshots, ?_⟩
  . intro e he
    rcases List.mem_append.mp he with he | he
    . exact hes e he
    . exact hes' e he
  . rw [after_append, hreturned]

theorem Returns.of_step {e : Event} (he : e.isListing = true) (h' : (h.step e).Returns caller) : h.Returns caller := by
  have hes : ∀ e' ∈ [e], e'.isListing = true := by simpa using he
  exact Returns.of_after hes h'

theorem returns_of_samples (hsane : h.Sane limits) {copies : List ((Slot × Record) × Option Snapshot)}
    (hvisit : h.visits caller = .samples copies)
    : h.Returns caller := by
  induction hcount : copies.countP (fun copy => copy.2.isNone) generalizing h copies with
  | zero =>
    have hall : copies.all (fun copy => copy.2.isSome) = true := by
      rw [List.countP_eq_zero] at hcount
      rw [List.all_eq_true]
      intro copy hcopy
      simpa [Option.isSome_iff_ne_none] using hcount copy hcopy
    apply Returns.of_step (e := .proceed caller) rfl
    refine ⟨[], by simp, copies.filterMap Prod.snd, ?_⟩
    simp [after, step, proceed, hvisit, hall, visits_set]
  | succ k ih =>
    have hsome : ∃ copy ∈ copies, copy.2.isNone = true := by
      rw [← List.countP_pos_iff, hcount]
      exact Nat.succ_pos k
    rcases hsome with ⟨⟨⟨slot, record⟩, shown⟩, hmem, hnone⟩
    obtain rfl : shown = none := by simpa using hnone
    rcases List.mem_iff_getElem?.mp hmem with ⟨place, hplace⟩
    rcases List.getElem?_eq_some_iff.mp hplace with ⟨hlt, hget⟩
    have hbox := List.getElem?_eq_getElem (hsane.samples caller copies hvisit _ hmem)
    rcases Registry.describe_shows hbox record none with ⟨usage, hshown⟩
    apply Returns.of_step (e := .sample caller place none) rfl
    have hnext : (h.step (.sample caller place none)).visits caller = .samples (copies.set place
        ((slot, record), (h.registry.describe slot record none).1)) := by
      simp [step, sample, hvisit, hplace, visits_set]
    apply ih (hsane.step _) hnext
    rw [List.countP_set hlt, hget, hshown, hcount]
    rfl

theorem samples_of_copies (hsane : h.Sane limits) {slot : Slot} {copied : List (Slot × Record)}
    (hvisit : h.visits caller = .copies slot copied)
    : ∃ es, (∀ e ∈ es, e.isListing = true) ∧ (h.after es).keeper = none ∧
        (∃ copies, (h.after es).visits caller = .samples copies) ∧
        ∀ c ≠ caller, (h.after es).visits c = h.visits c := by
  induction hleft : h.registry.boxes.length - slot generalizing h slot copied with
  | zero =>
    have hnone : h.registry.boxes[slot]? = none := List.getElem?_eq_none (Nat.sub_eq_zero_iff_le.mp hleft)
    refine ⟨[.proceed caller], by simp [Event.isListing], ?_⟩
    simp +contextual [after, step, proceed, hvisit, hnone, set]
  | succ k ih =>
    have hlt : slot < h.registry.boxes.length := Nat.lt_of_sub_eq_succ hleft
    have hbox := List.getElem?_eq_getElem hlt
    have hnext : ∃ copied', (h.step (.proceed caller)).visits caller = .copies (slot + 1) copied' := by
      simp [step, proceed, hvisit, hbox, visits_set]
    have hregistry : (h.step (.proceed caller)).registry = h.registry := h.registry_proceed caller
    rcases hnext with ⟨copied', hnext⟩
    have hrest : (h.step (.proceed caller)).registry.boxes.length - (slot + 1) = k := by
      rw [hregistry, Nat.sub_add_eq, hleft]
      rfl
    rcases ih (hsane.step _) hnext hrest with ⟨es, hes, hkeeper, hsamples, hothers⟩
    refine ⟨.proceed caller :: es, ?_, hkeeper, hsamples, ?_⟩
    . simpa [Event.isListing] using hes
    . intro c hc
      exact (hothers c hc).trans (h.visits_proceed_ne hc)

theorem returns_of_copies (hsane : h.Sane limits) {slot : Slot} {copied : List (Slot × Record)}
    (hvisit : h.visits caller = .copies slot copied)
    : h.Returns caller := by
  rcases samples_of_copies hsane hvisit with ⟨es, hes, -, ⟨copies, hsamples⟩, -⟩
  exact Returns.of_after hes (returns_of_samples (hsane.after es) hsamples)

theorem returns_of_free (hsane : h.Sane limits) (hvisit : h.visits caller = .calls) (hfree : h.keeper = none)
    : h.Returns caller := by
  have hnext : (h.step (.proceed caller)).visits caller = .copies 0 [] := by
    simp [step, proceed, hvisit, hfree, visits_set]
  exact Returns.of_step rfl (returns_of_copies (hsane.step _) hnext)

theorem returns (hsane : h.Sane limits) (hvisit : (h.visits caller).isUnderWay = true) : h.Returns caller := by
  cases hcase : h.visits caller with
  | away =>
    rw [hcase] at hvisit
    cases hvisit
  | returned snapshots =>
    rw [hcase] at hvisit
    cases hvisit
  | copies slot copied => exact returns_of_copies hsane hcase
  | samples copies => exact returns_of_samples hsane hcase
  | calls =>
    cases hkeeper : h.keeper with
    | none => exact returns_of_free hsane hcase hkeeper
    | some keeper =>
      rcases (hsane.keeper keeper).mp hkeeper with ⟨slot, copied, hcopies⟩
      rcases samples_of_copies hsane hcopies with ⟨es, hes, hfree, -, hothers⟩
      have hne : caller ≠ keeper := by
        rintro rfl
        rw [hcase] at hcopies
        cases hcopies
      apply Returns.of_after hes
      exact returns_of_free (hsane.after es) (by rw [hothers caller hne, hcase]) hfree

end Progress

end Hall

end BoxRegistry

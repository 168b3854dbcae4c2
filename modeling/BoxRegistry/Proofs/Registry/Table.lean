import BoxRegistry.Proofs.BoxId
import BoxRegistry.Proofs.Registry.Gauge
import BoxRegistry.Proofs.Registry.History

namespace BoxRegistry

open Time (Moment)

inductive Box.Unlists (b b' : Box) (deeds : List Deed) : Prop where
  | stays (same : b'.removed = b.removed) (kept : .unlist ∉ deeds) : Unlists b b' deeds
  | goes (listed : b.removed = false) (removed : b'.removed = true) (struck : .unlist ∈ deeds) : Unlists b b' deeds

theorem Operation.Moves.unlists {op : Operation} {b : Box} {origin : Option Stage} {m : Move}
    (h : op.Moves b origin m)
    : b.Unlists m.box m.deeds := by
  cases h with
  | stopAndRemove removes runs unwatched stopped process ends =>
    exact .goes runs.listed rfl (by simp [Box.unlist])
  | remove removes inactive listed => exact .goes listed rfl (by simp [Box.unlist])
  | _ =>
    apply Box.Unlists.stays
    . rfl
    . simp [Box.refuse, Box.crash, Box.await]

theorem Box.Notices.unlists {b : Box} {now : Moment} {task : TaskId} {pid : Pid}
    {result : Except Fault ProcessEnd} {out : Box × List Deed} (h : b.Notices now task pid result out)
    : b.Unlists out.1 out.2 := by
  cases h <;> exact .stays rfl (by simp)

theorem Box.Unlists.congr {b b' a a' : Box} {deeds : List Deed} (h : b.Unlists b' deeds)
    (hb : a.removed = b.removed) (hb' : a'.removed = b'.removed)
    : a.Unlists a' deeds := by
  cases h with
  | stays same kept => exact .stays (by rw [hb', same, hb]) kept
  | goes listed removed struck => exact .goes (by rw [hb, listed]) (by rw [hb', removed]) struck

theorem Cell.Happens.unlists {c : Cell} {limits : Limits} {fresh : TaskId} {e : Registry.Event}
    {out : Cell × List Effect} {deeds : List Deed} (h : c.Happens limits fresh e out deeds) (hsound : c.Sound)
    : c.box.Unlists out.1.box deeds := by
  cases h with
  | aside untouched works wakes other => exact .stays untouched.removed (by simp)
  | posts duty => exact .stays rfl (by simp)
  | @enters now task op c₁ duty claimed eq orderly holder =>
    apply (op.moves_enter c₁.box).unlists.congr
    . rw [eq]
      exact (c.box.untouched_claim task).removed.symm
    . apply (c₁.box_apply limits fresh task op _).2.2
  | @proceeds now task reply op stage duty =>
    apply (op.moves_proceed (hsound.fits task op stage duty) limits now reply).unlists.congr rfl
    apply (c.box_apply limits fresh task op _).2.2
  | @reports e now task d pid result c₁ duty contends claimed eq orderly holder learns =>
    apply (Box.notices orderly.coherent now task pid result).unlists.congr
    . rw [eq]
      exact (c.box.untouched_claim task).removed.symm
    . apply (c₁.box_notice fresh now task pid result).2.2

theorem Request.unlike_of_resolve {request : Request} {granted : Resources} (h : request.resolve = .ok granted)
    {name : String} (hname : request.name = some name)
    : BoxId.isValid name = false := by
  have hresolves := request.resolves
  rw [h] at hresolves
  cases hresolves with
  | granted image right cpus memory =>
    rw [hname] at right
    exact (checkName_eq_ok right).2

namespace Registry

variable {limits : Limits} {allowed : Registry → Event → Prop} {r r' : Registry} {slot : Slot} {spec : Spec}

def specs (r : Registry) : List Spec :=
  r.boxes.map Box.spec

def Lists (r : Registry) (slot : Slot) (spec : Spec) : Prop :=
  ∃ b, r.boxes[slot]? = some b ∧ b.removed = false ∧ b.spec = spec

inductive Edits (r r' : Registry) : Prop where
  | keeps (specs : r'.specs = r.specs) (lists : ∀ s spec, r'.Lists s spec ↔ r.Lists s spec)
    (ids : r'.ids = r.ids) (names : r'.names = r.names) : Edits r r'
  | adds {request : Request} {granted : Resources} {now : Moment} {clock chance number : Nat} {ids : IdSource}
    (resolves : request.resolve = .ok granted) (free : r.isTaken request.name = false)
    (drawn : r.ids.draw? clock chance = some (number, ids))
    (eq : r' = r.add (.freeze (.ofNumber number) request granted now) ids) : Edits r r'
  | strikes {slot : Slot} {spec : Spec} (listed : r.Lists slot spec) (specs : r'.specs = r.specs)
    (lists : ∀ s spec', r'.Lists s spec' ↔ s ≠ slot ∧ r.Lists s spec') (ids : r'.ids = r.ids)
    (names : r'.names = (r.papers.strike spec.name).names) : Edits r r'

section Edits

theorem lists_cell (hc : r.cell? slot = some c) : r.Lists slot spec ↔ c.box.removed = false ∧ c.box.spec = spec := by
  simp [Lists, (cell?_eq_some.mp hc).1]

theorem Changes.lists {c c' : Cell} (h : Changes r r' slot c') (hc : r.cell? slot = some c)
    (hremoved : c'.box.removed = c.box.removed) (hspec : c'.box.spec = c.box.spec) (s : Slot) (spec : Spec)
    : r'.Lists s spec ↔ r.Lists s spec := by
  by_cases hs : s = slot
  . subst hs
    rw [lists_cell h.cell, lists_cell hc, hremoved, hspec]
  . unfold Lists
    rw [h.box_other hs]

theorem Changes.lists_of_removed {c' : Cell} (h : Changes r r' slot c') (hremoved : c'.box.removed = true) (s : Slot)
    (spec : Spec)
    : r'.Lists s spec ↔ s ≠ slot ∧ r.Lists s spec := by
  by_cases hs : s = slot
  . subst hs
    simp [lists_cell h.cell, hremoved]
  . unfold Lists
    simp [h.box_other hs, hs]

theorem Changes.specs {c c' : Cell} (h : Changes r r' slot c') (hc : r.cell? slot = some c)
    (hspec : c'.box.spec = c.box.spec)
    : r'.specs = r.specs := by
  apply List.ext_getElem?
  intro i
  unfold Registry.specs
  rw [List.getElem?_map, List.getElem?_map]
  by_cases hi : i = slot
  . subst hi
    rw [h.box, (cell?_eq_some.mp hc).1, Option.map_some, Option.map_some, hspec]
  . rw [h.box_other hi]

theorem edits_refl (r : Registry) : Edits r r :=
  .keeps rfl (fun _ _ => .rfl) rfl rfl

theorem edits_work {c : Cell} {e : Event} (h : Reachable limits allowed r) (hc : r.cell? slot = some c)
    (he : e.slot? r = some slot)
    : Edits r (r.step e).1 := by
  have htidy := tidy_of_reachable h
  have hsound := sound_of_reachable h hc
  have hchanges := (changes_step htidy hc he).1
  have hhappens := hsound.happens (below_of_tidy htidy hc) r.limits slot e
  have hspec := hhappens.becomes.1
  have hpapers := papers_step htidy hc he
  have hids := congrArg Papers.ids hpapers
  have hnames := congrArg Papers.names hpapers
  rw [Deed.ids_enact] at hids
  rw [Deed.names_enact] at hnames
  cases hhappens.unlists hsound with
  | stays same kept =>
    rw [if_neg kept] at hnames
    exact .keeps (hchanges.specs hc hspec) (hchanges.lists hc same hspec) hids hnames
  | goes listed removed struck =>
    rw [if_pos struck] at hnames
    have hlisted : r.Lists slot c.box.spec := (lists_cell hc).mpr ⟨listed, rfl⟩
    exact .strikes hlisted (hchanges.specs hc hspec) (hchanges.lists_of_removed removed) hids hnames

theorem edits_create (r : Registry) (request : Request) (now : Moment) (clock chance : Nat)
    : Edits r (r.step (.create request now clock chance)).1 := by
  simp only [step]
  cases h : r.create request now clock chance with
  | error f => exact edits_refl r
  | ok out =>
    rcases create_eq_ok h with ⟨granted, number, ids, resolves, free, drawn, -, eq⟩
    exact .adds resolves free drawn eq

theorem edits_step (h : Reachable limits allowed r) (e : Event) : Edits r (r.step e).1 := by
  rcases r.slot?_cases e with ⟨slot, c, he, hc⟩ | hout
  . exact edits_work h hc he
  . rcases step_of_slot?_out hout with heq | ⟨request, now, clock, chance, rfl⟩
    . rw [heq]
      exact edits_refl r
    . exact edits_create r request now clock chance

end Edits

section Specs

theorem specs_add (r : Registry) (spec : Spec) (ids : IdSource) : (r.add spec ids).specs = r.specs ++ [spec] := by
  simp [specs, add, Box.new]

theorem Edits.specs_grow (h : Edits r r') : r.specs <+: r'.specs := by
  cases h with
  | keeps hspecs => simp [hspecs]
  | adds resolves free drawn eq =>
    rw [eq, specs_add]
    apply List.prefix_append
  | strikes listed hspecs => simp [hspecs]

theorem specs_grow (h : Reachable limits (fun _ _ => True) r) (es : List Event) : r.specs <+: (r.after es).specs := by
  induction es generalizing r with
  | nil => exact List.prefix_refl _
  | cons e es ih => exact (edits_step h e).specs_grow.trans (ih (h.step trivial))

end Specs

theorem exists_lists {P : Spec → Prop}
    : (∃ spec, r.Lists slot spec ∧ P spec) ↔ ∃ b : Box, r.boxes[slot]? = some b ∧ b.removed = false ∧ P b.spec := by
  constructor
  . rintro ⟨spec, ⟨b, hb, hlisted, rfl⟩, hP⟩
    exact ⟨b, hb, hlisted, hP⟩
  . rintro ⟨b, hb, hlisted, hP⟩
    exact ⟨b.spec, ⟨b, hb, hlisted, rfl⟩, hP⟩

theorem mem_registered {b : Box}
    : b ∈ r.registered ↔ ∃ slot : Slot, r.boxes[slot]? = some b ∧ b.removed = false := by
  simp only [registered, List.mem_filter, Bool.not_eq_true', exists_and_right]
  rw [List.mem_iff_getElem?]

theorem exists_registered {P : Spec → Prop}
    : (∃ slot spec, r.Lists slot spec ∧ P spec) ↔ ∃ b ∈ r.registered, P b.spec := by
  simp only [mem_registered, exists_lists]
  constructor
  . rintro ⟨slot, b, hb, hlisted, hP⟩
    exact ⟨b, ⟨slot, hb, hlisted⟩, hP⟩
  . rintro ⟨b, ⟨slot, hb, hlisted⟩, hP⟩
    exact ⟨slot, b, hb, hlisted, hP⟩

section Add

theorem lists_add (r : Registry) (spec : Spec) (ids : IdSource) (s : Slot) (spec' : Spec)
    : (r.add spec ids).Lists s spec' ↔ r.Lists s spec' ∨ s = r.boxes.length ∧ spec' = spec := by
  unfold Lists
  simp only [add, List.getElem?_append]
  split
  . next hlt =>
    have : s ≠ r.boxes.length := Nat.ne_of_lt hlt
    simp [this]
  . next hge =>
    have hnone : r.boxes[s]? = none := List.getElem?_eq_none (Nat.not_lt.mp hge)
    by_cases hs : s = r.boxes.length
    . subst hs
      simp only [hnone, Nat.sub_self, List.getElem?_cons_zero, Option.some.injEq, reduceCtorEq, false_and,
        exists_false, true_and, false_or]
      constructor
      . rintro ⟨b, rfl, -, rfl⟩
        rfl
      . rintro rfl
        exact ⟨_, rfl, rfl, rfl⟩
    . have : ¬s - r.boxes.length < 1 := by
        unfold Slot at *
        omega
      simp [hnone, hs, this]

theorem specs_of_lists (h : r.Lists slot spec) : r.specs[slot]? = some spec := by
  rcases h with ⟨b, hb, -, rfl⟩
  simp [specs, hb]

end Add

section Indexed

/--
The indexes of a table agree. The ids are written for numbers that were drawn one above the other, no name has the
form of an id, and the names that are taken are those of the boxes that are registered.
-/
structure Indexed (r : Registry) : Prop where
  numbers : ∃ numbers : List Nat, r.specs.map Spec.id = numbers.map BoxId.ofNumber ∧ numbers.Pairwise (· < ·) ∧
    ∀ n ∈ numbers, n ≤ r.ids.last
  bound : r.ids.last < Nat.pow 2 128
  unlike : ∀ spec ∈ r.specs, ∀ name, spec.name = some name → BoxId.isValid name = false
  names : ∀ name id, (name, id) ∈ r.names ↔ ∃ slot spec, r.Lists slot spec ∧ spec.id = id ∧ spec.name = some name
  nodup : (r.names.map Prod.fst).Nodup

theorem indexed_start (limits : Limits) : Indexed { limits } where
  numbers := ⟨[], rfl, .nil, by simp⟩
  bound := Nat.pow_pos (by decide)
  unlike := by simp [specs]
  names := by simp [Lists]
  nodup := .nil

namespace Indexed

variable {s : Slot} {spec' : Spec}

theorem ordered (h : r.Indexed) : r.specs.Pairwise fun a b => a.id.text < b.id.text := by
  rcases h.numbers with ⟨numbers, heq, hgrow, hle⟩
  have hids : (r.specs.map Spec.id).Pairwise fun a b => a.text < b.text := by
    rw [heq, List.pairwise_map]
    apply hgrow.imp_of_mem
    intro n m _ hm hlt
    apply BoxId.ofNumber_lt_ofNumber hlt
    have := hle m hm
    have := h.bound
    have := IdSource.pow_lt_capacity
    omega
  rwa [List.pairwise_map] at hids

theorem slot_eq_of_specs (h : r.Indexed) (hspec : r.specs[slot]? = some spec) (hspec' : r.specs[s]? = some spec')
    (hid : spec.id.text = spec'.id.text)
    : slot = s := by
  have hordered := List.pairwise_iff_getElem.mp h.ordered
  rcases List.getElem?_eq_some_iff.mp hspec with ⟨hlt, rfl⟩
  rcases List.getElem?_eq_some_iff.mp hspec' with ⟨hlt', rfl⟩
  -- If one of the places were before the other, so would be its id.
  rcases Nat.lt_trichotomy slot s with hless | heq | hless
  . have := hordered slot s hlt hlt' hless
    rw [hid] at this
    exact absurd this (String.lt_irrefl _)
  . exact heq
  . have := hordered s slot hlt' hlt hless
    rw [hid] at this
    exact absurd this (String.lt_irrefl _)

theorem slot_eq_of_text (h : r.Indexed) (hspec : r.Lists slot spec) (hspec' : r.Lists s spec')
    (hid : spec.id.text = spec'.id.text)
    : slot = s :=
  h.slot_eq_of_specs (specs_of_lists hspec) (specs_of_lists hspec') hid

theorem slot_eq_of_name (h : r.Indexed) (hspec : r.Lists slot spec) (hspec' : r.Lists s spec') {name : String}
    (hname : spec.name = some name) (hname' : spec'.name = some name)
    : slot = s := by
  have hmem := (h.names name spec.id).mpr ⟨slot, spec, hspec, rfl, hname⟩
  have hmem' := (h.names name spec'.id).mpr ⟨s, spec', hspec', rfl, hname'⟩
  have hentry := List.inj_on_of_nodup_map h.nodup hmem hmem' rfl
  apply h.slot_eq_of_text hspec hspec'
  rw [(Prod.mk.inj hentry).2]

theorem keep (h : r.Indexed) (hspecs : r'.specs = r.specs) (hids : r'.ids = r.ids)
    (hnames : ∀ name id, (name, id) ∈ r'.names ↔
      ∃ slot spec, r'.Lists slot spec ∧ spec.id = id ∧ spec.name = some name)
    (hnodup : (r'.names.map Prod.fst).Nodup)
    : r'.Indexed where
  numbers := by
    rw [hspecs, hids]
    exact h.numbers
  bound := by
    rw [hids]
    exact h.bound
  unlike := by
    rw [hspecs]
    exact h.unlike
  names := hnames
  nodup := hnodup

theorem strike (h : r.Indexed) (hlisted : r.Lists slot spec)
    (hlists : ∀ s spec', r'.Lists s spec' ↔ s ≠ slot ∧ r.Lists s spec')
    (hnames : r'.names = (r.papers.strike spec.name).names) (name : String) (id : BoxId)
    : (name, id) ∈ r'.names ↔ ∃ slot spec, r'.Lists slot spec ∧ spec.id = id ∧ spec.name = some name := by
  simp only [hnames, Papers.strike, papers, List.mem_filter, h.names, decide_eq_true_eq, hlists]
  constructor
  . rintro ⟨⟨s, spec', hspec', hid, hname⟩, hother⟩
    refine ⟨s, spec', ⟨?_, hspec'⟩, hid, hname⟩
    rintro rfl
    rcases hlisted with ⟨b, hb, -, rfl⟩
    rcases hspec' with ⟨b', hb', -, rfl⟩
    rw [hb] at hb'
    rw [Option.some.inj hb', hname] at hother
    exact hother rfl
  . rintro ⟨s, spec', ⟨hne, hspec'⟩, hid, hname⟩
    refine ⟨⟨s, spec', hspec', hid, hname⟩, ?_⟩
    intro hsame
    exact hne (h.slot_eq_of_name hspec' hlisted hname hsame.symm)

section Add

variable {request : Request} {granted : Resources} {number : Nat} {ids : IdSource}

theorem numbers_add (h : r.Indexed) {clock chance : Nat} (hdraw : r.ids.draw? clock chance = some (number, ids))
    {spec : Spec} (hid : spec.id = .ofNumber number)
    : ∃ numbers : List Nat, (r.add spec ids).specs.map Spec.id = numbers.map BoxId.ofNumber ∧
        numbers.Pairwise (· < ·) ∧ ∀ n ∈ numbers, n ≤ ids.last := by
  rcases IdSource.draw?_eq_some hdraw with ⟨hlast, hlt, -⟩
  rcases h.numbers with ⟨numbers, heq, hgrow, hle⟩
  refine ⟨numbers ++ [number], ?_, ?_, ?_⟩
  . rw [specs_add, List.map_append, List.map_append, heq, List.map_singleton, List.map_singleton, hid]
  . rw [List.pairwise_append]
    refine ⟨hgrow, List.pairwise_singleton _ _, ?_⟩
    intro n hn m hm
    rw [List.mem_singleton.mp hm]
    exact Nat.lt_of_le_of_lt (hle n hn) hlt
  . intro n hn
    rw [hlast]
    rcases List.mem_append.mp hn with hn | hn
    . exact Nat.le_of_lt (Nat.lt_of_le_of_lt (hle n hn) hlt)
    . rw [List.mem_singleton.mp hn]

theorem names_add (h : r.Indexed) {new : Spec} (name : String) (id : BoxId)
    : (name, id) ∈ (r.add new ids).names ↔
        ∃ slot spec, (r.add new ids).Lists slot spec ∧ spec.id = id ∧ spec.name = some name := by
  have hnamed : (name, id) ∈ (r.add new ids).names ↔ new.name = some name ∧ id = new.id ∨ (name, id) ∈ r.names := by
    simp [Registry.add, eq_comm]
  rw [hnamed, h.names]
  constructor
  . rintro (⟨hname, rfl⟩ | ⟨s, spec, hspec, hid, hname⟩)
    . exact ⟨_, _, (lists_add ..).mpr (.inr ⟨rfl, rfl⟩), rfl, hname⟩
    . exact ⟨s, spec, (lists_add ..).mpr (.inl hspec), hid, hname⟩
  . rintro ⟨s, spec, hspec, hid, hname⟩
    rcases (lists_add ..).mp hspec with hspec | ⟨-, rfl⟩
    . exact .inr ⟨s, spec, hspec, hid, hname⟩
    . exact .inl ⟨hname, hid.symm⟩

theorem nodup_add (h : r.Indexed) {new : Spec} (hfree : r.isTaken new.name = false)
    : ((r.add new ids).names.map Prod.fst).Nodup := by
  cases hname : new.name with
  | none => simpa [Registry.add, hname] using h.nodup
  | some name =>
    have hnot : name ∉ r.names.map Prod.fst := by
      rw [hname] at hfree
      simp only [isTaken, Option.isSome_eq_false_iff, Option.isNone_iff_eq_none, List.lookup_eq_none_iff] at hfree
      intro hmem
      rcases List.mem_map.mp hmem with ⟨entry, hentry, rfl⟩
      simpa using hfree entry hentry
    simp only [Registry.add, hname, Option.toList_some, List.map_cons, List.map_nil, List.cons_append, List.nil_append,
      List.nodup_cons]
    exact ⟨hnot, h.nodup⟩

theorem add (h : r.Indexed) (hresolve : request.resolve = .ok granted) (hfree : r.isTaken request.name = false)
    {clock chance : Nat} (hdraw : r.ids.draw? clock chance = some (number, ids)) (now : Moment)
    : (r.add (.freeze (.ofNumber number) request granted now) ids).Indexed := by
  rcases IdSource.draw?_eq_some hdraw with ⟨hlast, -, hbound⟩
  constructor
  case numbers => exact h.numbers_add hdraw rfl
  case bound =>
    show ids.last < _
    rw [hlast]
    exact hbound h.bound
  case unlike =>
    intro spec hspec name hname
    rw [specs_add, List.mem_append, List.mem_singleton] at hspec
    rcases hspec with hspec | rfl
    . exact h.unlike spec hspec name hname
    . exact Request.unlike_of_resolve hresolve hname
  case names => exact h.names_add
  case nodup => exact h.nodup_add hfree

end Add

end Indexed

theorem Edits.indexed (h : Edits r r') (hindexed : r.Indexed) : r'.Indexed := by
  cases h with
  | keeps hspecs hlists hids hnames =>
    apply hindexed.keep hspecs hids
    . simpa only [hnames, hlists] using hindexed.names
    . rw [hnames]
      exact hindexed.nodup
  | adds resolves free drawn eq =>
    rw [eq]
    exact hindexed.add resolves free drawn _
  | strikes listed hspecs hlists hids hnames =>
    apply hindexed.keep hspecs hids
    . exact hindexed.strike listed hlists hnames
    . rw [hnames]
      exact hindexed.nodup.sublist (List.filter_sublist.map _)

theorem indexed_of_reachable (h : Reachable limits allowed r) : r.Indexed := by
  induction h with
  | start => exact indexed_start limits
  | step hr _ ih => exact (edits_step hr _).indexed ih

end Indexed

section Lookup

theorem slotOf?_eq_some (h : r.Indexed) {id : String}
    : r.slotOf? id = some slot ↔ ∃ spec, r.Lists slot spec ∧ spec.id.text = id := by
  simp only [slotOf?, List.findIdx?_eq_some_iff_getElem, Bool.and_eq_true, Bool.not_eq_true', decide_eq_true_eq]
  constructor
  . rintro ⟨hlt, ⟨hlisted, hid⟩, -⟩
    exact ⟨_, ⟨_, List.getElem?_eq_getElem hlt, hlisted, rfl⟩, hid⟩
  . rintro ⟨spec, ⟨b, hb, hlisted, rfl⟩, hid⟩
    rcases List.getElem?_eq_some_iff.mp hb with ⟨hlt, rfl⟩
    refine ⟨hlt, ⟨hlisted, hid⟩, ?_⟩
    intro j hj hother
    have hspec : r.Lists j r.boxes[j].spec := ⟨_, List.getElem?_eq_getElem _, hother.1, rfl⟩
    rw [h.slot_eq_of_text hspec ⟨_, hb, hlisted, rfl⟩ (by rw [hother.2, hid])] at hj
    exact absurd hj (Nat.lt_irrefl _)

theorem lookup_names (h : r.Indexed) {name : String} {id : BoxId}
    : r.names.lookup name = some id ↔ ∃ slot spec, r.Lists slot spec ∧ spec.id = id ∧ spec.name = some name := by
  rw [← h.names]
  constructor
  . intro hlookup
    rcases List.lookup_eq_some_iff.mp hlookup with ⟨l, l', heq, -⟩
    simp [heq]
  . intro hmem
    cases hlookup : r.names.lookup name with
    | none =>
      rw [List.lookup_eq_none_iff] at hlookup
      exact absurd (hlookup _ hmem) (by simp)
    | some id' =>
      rcases List.lookup_eq_some_iff.mp hlookup with ⟨l, l', heq, -⟩
      have hmem' : (name, id') ∈ r.names := by simp [heq]
      have hentry := List.inj_on_of_nodup_map h.nodup hmem hmem' rfl
      rw [(Prod.mk.inj hentry).2]

theorem slotNamed?_eq_some (h : r.Indexed) {key : String}
    : r.slotNamed? key = some slot ↔ ∃ spec, r.Lists slot spec ∧ spec.name = some key := by
  simp only [slotNamed?, Option.bind_eq_bind, Option.bind_eq_some_iff]
  constructor
  . rintro ⟨id, htaken, s, hslot, b, hb, hanswers⟩
    rcases (lookup_names h).mp htaken with ⟨s', spec, hspec, rfl, hname⟩
    rcases (slotOf?_eq_some h).mp hslot with ⟨spec', hspec', hid⟩
    obtain rfl : s = s' := h.slot_eq_of_text hspec' hspec hid
    split at hanswers
    . rw [← Option.some.inj hanswers]
      exact ⟨spec, hspec, hname⟩
    . cases hanswers
  . rintro ⟨spec, hspec, hname⟩
    refine ⟨spec.id, (lookup_names h).mpr ⟨slot, spec, hspec, rfl, hname⟩, slot, ?_, ?_⟩
    . exact (slotOf?_eq_some h).mpr ⟨spec, hspec, rfl⟩
    . rcases hspec with ⟨b, hb, -, rfl⟩
      refine ⟨b, hb, if_pos ?_⟩
      simp [Spec.answersTo, hname]

theorem isValid_of_mem_specs (h : r.Indexed) (hspec : spec ∈ r.specs) : BoxId.isValid spec.id.text = true := by
  rcases h.numbers with ⟨numbers, heq, -⟩
  have hid : spec.id ∈ numbers.map BoxId.ofNumber := by
    rw [← heq]
    exact List.mem_map_of_mem hspec
  rcases List.mem_map.mp hid with ⟨n, -, hn⟩
  rw [← hn]
  apply BoxId.isValid_ofNumber

theorem isValid_of_lists (h : r.Indexed) (hspec : r.Lists slot spec) : BoxId.isValid spec.id.text = true :=
  isValid_of_mem_specs h (List.mem_of_getElem? (specs_of_lists hspec))

theorem lookup_eq_ok_iff (h : r.Indexed) {key : String}
    : r.lookup key = .ok slot ↔ ∃ spec, r.Lists slot spec ∧ spec.answersTo key = true := by
  simp only [Spec.answersTo, Bool.or_eq_true, decide_eq_true_eq]
  unfold lookup
  cases hslot : r.slotOf? key with
  | some s =>
    simp only [Option.orElse_eq_orElse, Option.orElse_some, Except.ok.injEq]
    rcases (slotOf?_eq_some h).mp hslot with ⟨spec, hspec, rfl⟩
    constructor
    . rintro rfl
      exact ⟨spec, hspec, .inl rfl⟩
    . rintro ⟨spec', hspec', hid | hname⟩
      . exact h.slot_eq_of_text hspec hspec' hid.symm
      . -- The key is an id, so it cannot be a name as well.
        have hunlike := h.unlike spec' (List.mem_of_getElem? (specs_of_lists hspec')) _ hname
        rw [isValid_of_lists h hspec] at hunlike
        cases hunlike
  | none =>
    have hid : ∀ spec, r.Lists slot spec → spec.id.text ≠ key := by
      intro spec hspec heq
      rw [(slotOf?_eq_some h).mpr ⟨spec, hspec, heq⟩] at hslot
      cases hslot
    have hnamed : r.slotNamed? key = some slot ↔ ∃ spec, r.Lists slot spec ∧
        (spec.id.text = key ∨ spec.name = some key) := by
      rw [slotNamed?_eq_some h]
      constructor
      . rintro ⟨spec, hspec, hname⟩
        exact ⟨spec, hspec, .inr hname⟩
      . rintro ⟨spec, hspec, heq | hname⟩
        . exact absurd heq (hid spec hspec)
        . exact ⟨spec, hspec, hname⟩
    rw [← hnamed]
    simp only [Option.orElse_eq_orElse, Option.orElse_none]
    cases r.slotNamed? key <;> simp

theorem lookup_eq_error {key : String} {f : Fault} (h : r.lookup key = .error f) : f = .notFound key := by
  unfold lookup at h
  split at h
  . cases h
  . cases h
    rfl

theorem lookup_eq_notFound_iff (h : r.Indexed) (key : String)
    : r.lookup key = .error (.notFound key) ↔ ∀ b ∈ r.registered, b.spec.answersTo key = false := by
  constructor
  . intro hlookup b hb
    rcases mem_registered.mp hb with ⟨slot, hslot, hlisted⟩
    cases hfits : b.spec.answersTo key with
    | false => rfl
    | true =>
      rw [(lookup_eq_ok_iff h).mpr ⟨b.spec, ⟨b, hslot, hlisted, rfl⟩, hfits⟩] at hlookup
      cases hlookup
  . intro hnone
    cases hlookup : r.lookup key with
    | error f => rw [lookup_eq_error hlookup]
    | ok slot =>
      rcases (lookup_eq_ok_iff h).mp hlookup with ⟨-, ⟨b, hslot, hlisted, rfl⟩, hfits⟩
      rw [hnone b (mem_registered.mpr ⟨slot, hslot, hlisted⟩)] at hfits
      cases hfits

theorem exists?_eq (h : r.Indexed) (key : String)
    : r.exists? key = r.registered.any fun b => b.spec.answersTo key := by
  rw [Bool.eq_iff_iff, List.any_eq_true]
  unfold exists?
  cases hlookup : r.lookup key with
  | ok slot =>
    rcases (lookup_eq_ok_iff h).mp hlookup with ⟨-, ⟨b, hslot, hlisted, rfl⟩, hfits⟩
    exact iff_of_true rfl ⟨b, mem_registered.mpr ⟨slot, hslot, hlisted⟩, hfits⟩
  | error f =>
    obtain rfl := lookup_eq_error hlookup
    have hnone := (lookup_eq_notFound_iff h key).mp hlookup
    apply iff_of_false Bool.false_ne_true
    rintro ⟨b, hb, hfits⟩
    rw [hnone b hb] at hfits
    cases hfits

theorem exists_lookup (h : r.Indexed) {b : Box} (hb : b ∈ r.registered)
    : ∃ slot, r.boxes[slot]? = some b ∧ r.lookup b.spec.id.text = .ok slot ∧
      ∀ name, b.spec.name = some name → r.lookup name = .ok slot := by
  rcases mem_registered.mp hb with ⟨slot, hslot, hlisted⟩
  have hlists : r.Lists slot b.spec := ⟨b, hslot, hlisted, rfl⟩
  refine ⟨slot, hslot, (lookup_eq_ok_iff h).mpr ⟨b.spec, hlists, ?_⟩, ?_⟩
  . simp [Spec.answersTo]
  . intro name hname
    apply (lookup_eq_ok_iff h).mpr ⟨b.spec, hlists, ?_⟩
    simp [Spec.answersTo, hname]

end Lookup

/--
No key fits two boxes, whatever has happened. Every registered box is stored under its id, the names that are taken
are exactly those of registered boxes, and none has the form of an id in upper or in lower case. So a key leads to
the one registered box that it fits, if there is one, and it is the same to give the name of a box or its id.
-/
theorem keys_are_unambiguous (limits : Limits) (es : List Event)
    : let r := ({ limits } : Registry).after es
      (∀ id slot, r.slotOf? id = some slot ↔
        ∃ b, r.boxes[slot]? = some b ∧ b.removed = false ∧ b.spec.id.text = id) ∧
      (r.names.map Prod.fst).Nodup ∧
      (∀ name id, r.names.lookup name = some id ↔ ∃ b ∈ r.registered, b.spec.id = id ∧ b.spec.name = some name) ∧
      (∀ b ∈ r.registered, ∀ name, b.spec.name = some name →
        ∀ text : String, text.toList.map Char.toUpper = name.toList.map Char.toUpper →
          BoxId.isValid text = false) ∧
      (∀ key (slot slot' : Slot) (b b' : Box), r.boxes[slot]? = some b → r.boxes[slot']? = some b' →
        b.removed = false → b'.removed = false → b.spec.answersTo key = true → b'.spec.answersTo key = true →
        slot = slot') ∧
      (∀ key slot, r.lookup key = .ok slot ↔
        ∃ b, r.boxes[slot]? = some b ∧ b.removed = false ∧ b.spec.answersTo key = true) ∧
      (∀ key, (∀ b ∈ r.registered, b.spec.answersTo key = false) ↔ r.lookup key = .error (.notFound key)) ∧
      (∀ key, r.exists? key = r.registered.any fun b => b.spec.answersTo key) ∧
      ∀ s : Service, s.registry = r → ∀ b ∈ r.registered, ∀ name, b.spec.name = some name →
        (∀ op, s.begin name op = s.begin b.spec.id.text op) ∧ s.get name = s.get b.spec.id.text := by
  intro r
  have hreachable : Reachable limits (fun _ _ => True) r := Reachable.start.after fun _ _ _ => trivial
  have h := indexed_of_reachable hreachable
  refine ⟨?_, h.nodup, ?_, ?_, ?_, ?_, fun key => (lookup_eq_notFound_iff h key).symm, exists?_eq h, ?_⟩
  . intro id slot
    rw [slotOf?_eq_some h, exists_lists]
  . intro name id
    rw [lookup_names h, exists_registered]
  . intro b hb name hname text htext
    rw [BoxId.isValid_congr htext]
    rcases mem_registered.mp hb with ⟨slot, hslot, -⟩
    exact h.unlike b.spec (List.mem_map_of_mem (List.mem_of_getElem? hslot)) name hname
  . intro key slot slot' b b' hb hb' hlisted hlisted' hfits hfits'
    have hslot := (lookup_eq_ok_iff h).mpr ⟨b.spec, ⟨b, hb, hlisted, rfl⟩, hfits⟩
    have hslot' := (lookup_eq_ok_iff h).mpr ⟨b'.spec, ⟨b', hb', hlisted', rfl⟩, hfits'⟩
    rw [hslot] at hslot'
    exact Except.ok.inj hslot'
  . intro key slot
    rw [lookup_eq_ok_iff h, exists_lists]
  . intro s hs b hb name hname
    rcases exists_lookup h hb with ⟨slot, hslot, hid, hnamed⟩
    constructor
    . intro op
      simp only [Service.begin, hs, hid, hnamed name hname]
    . -- The box that was found is there, so the key does not show in the answer.
      simp only [Service.get, hs, hid, hnamed name hname, bind, Except.bind, hslot]

def takeOverName : List Event :=
  [.create { image := "alpine", name := some "web" } ⟨0, 0⟩ 1 0, .begin 0 (.remove true), .turn ⟨0, 0⟩ 0,
    .create { image := "alpine", name := some "web" } ⟨0, 0⟩ 1 0]

theorem keys_are_unambiguous_takeOverName
    : let r := ({} : Registry).after takeOverName
      (r.boxes.map fun b => (b.spec.name, b.removed)) = [(some "web", true), (some "web", false)] ∧
        r.lookup "web" = .ok 1 ∧ r.exists? "web" = true ∧ r.lookup "alpine" = .error (.notFound "alpine") ∧
        ∀ text : String, text.toList.map Char.toUpper = ['W', 'E', 'B'] → BoxId.isValid text = false := by
  intro r
  rcases keys_are_unambiguous {} takeOverName with ⟨-, -, -, hunlike, -, hlookup, hnone, hexists, -⟩
  have hboxes : (r.boxes.map fun b => (b.spec.name, b.removed)) = [(some "web", true), (some "web", false)] := by
    decide +kernel
  have hsecond : ∃ b : Box, r.boxes[1]? = some b ∧ (b.spec.name, b.removed) = (some "web", false) := by
    rw [← Option.map_eq_some_iff, ← List.getElem?_map, hboxes]
    rfl
  rcases hsecond with ⟨b, hb, hshape⟩
  rcases Prod.mk.inj hshape with ⟨hname, hlisted⟩
  have hregistered : b ∈ r.registered := mem_registered.mpr ⟨1, hb, hlisted⟩
  have hfits : b.spec.answersTo "web" = true := by simp [Spec.answersTo, hname]
  refine ⟨hboxes, (hlookup "web" 1).mpr ⟨b, hb, hlisted, hfits⟩, ?_, (hnone "alpine").mp ?_, ?_⟩
  . rw [hexists, List.any_eq_true]
    exact ⟨b, hregistered, hfits⟩
  . decide +kernel
  . intro text htext
    exact hunlike b hregistered "web" hname text htext

end Registry

end BoxRegistry

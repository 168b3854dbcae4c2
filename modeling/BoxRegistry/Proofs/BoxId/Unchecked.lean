import BoxRegistry.Format.Label
import BoxRegistry.Proofs.BoxId.Sequence
import BoxRegistry.Proofs.Format.Records
import BoxRegistry.Proofs.Registry.Table

namespace BoxRegistry

namespace Label

theorem mapM_eq_none_iff {f : α → Option β} {as : List α} : as.mapM f = none ↔ ∃ a ∈ as, f a = none := by
  induction as with
  | nil => simp
  | cons a as ih =>
    simp only [List.mapM_cons, List.mem_cons, exists_eq_or_imp, ← ih]
    cases f a <;> cases as.mapM f <;> simp

theorem ofFields?_eq_none_iff {kind : String} {fields : List (String × Option String)}
    : ofFields? kind fields = none ↔ ∃ field ∈ fields, field.2 = none := by
  simp only [ofFields?, Option.bind_eq_bind, Option.pure_def, Option.bind_eq_none_iff, reduceCtorEq, imp_false,
    ← Option.eq_none_iff_forall_ne_some, mapM_eq_none_iff, Option.map_eq_none_iff]

end Label

theorem Spec.label?_eq_none_iff {s : Spec} : s.label? = none ↔ s.id.short? = none := by
  simp [Spec.label?, Label.ofFields?_eq_none_iff, BoxId.label?_eq_none_iff]

theorem LaunchOrder.label?_eq_none_iff {o : LaunchOrder} : o.label? = none ↔ o.boxId.short? = none := by
  simp [LaunchOrder.label?, Label.ofFields?_eq_none_iff, BoxId.label?_eq_none_iff]

theorem Snapshot.label?_eq_none_iff {cpu : Numeric.Single → String} {s : Snapshot}
    : s.label? cpu = none ↔ s.id.short? = none := by
  simp [Snapshot.label?, Label.ofFields?_eq_none_iff, BoxId.label?_eq_none_iff]

namespace BoxId

def readJson? (ofJson? : Json → Option α) (text : String) : Option α :=
  Json.parse? text >>= ofJson?

structure Sound (id : BoxId) : Prop where
  valid : isValid id.text = true
  short : id.short? ≠ none
  label : id.label? ≠ none

theorem sound_of_isValid {id : BoxId} (h : isValid id.text = true) : id.Sound := by
  have hshort : id.short? ≠ none := by simp [short?_of_isValid h]
  exact ⟨h, hshort, mt label?_eq_none_iff.mp hshort⟩

/--
Values of a type that hold an id and can be read out of JSON. Any text whatever stands for an id in one of them, a value
is as it should be exactly if this text has the form of an id, and it has no label exactly if the text cannot be cut
after eight bytes.
-/
structure Unchecked (ofJson? : Json → Option α) (idOf : α → BoxId) (label? : α → Option String) : Prop where
  holds : ∀ id, ∃ text a, readJson? ofJson? text = some a ∧ idOf a = id
  meets : ∀ a, (idOf a).Sound ∧ label? a ≠ none ↔ isValid (idOf a).text = true
  lacking : ∀ a, label? a = none ↔ ∀ s : String, s.toList <+: (idOf a).text.toList → s.utf8ByteSize ≠ 8

section Read

variable {ofJson? : Json → Option α} {idOf : α → BoxId} {label? : α → Option String}

theorem unchecked_of_values (hholds : ∀ id, ∃ json : Json, json.WellFormed ∧ ∃ a, ofJson? json = some a ∧ idOf a = id)
    (hlabel : ∀ a, label? a = none ↔ (idOf a).short? = none)
    : Unchecked ofJson? idOf label? where
  holds id := by
    rcases hholds id with ⟨json, hwell, a, hread, hid⟩
    refine ⟨json.compact, a, ?_, hid⟩
    rw [readJson?, Json.parse?_compact hwell]
    exact hread
  meets a := by
    constructor
    . exact fun h => h.1.valid
    . intro hvalid
      have hsound := sound_of_isValid hvalid
      exact ⟨hsound, mt (hlabel a).mp hsound.short⟩
  lacking a := by rw [hlabel, short?_eq_none_iff]

theorem unchecked_of_consistent {form : JsonForm α} (h : form.Consistent)
    (hholds : ∀ id, ∃ a, form.InRange a ∧ idOf a = id) (hlabel : ∀ a, label? a = none ↔ (idOf a).short? = none)
    : Unchecked form.ofJson? idOf label? := by
  refine unchecked_of_values (fun id => ?_) hlabel
  rcases hholds id with ⟨a, ha, hid⟩
  exact ⟨form.toJson a, h.wellFormed a, a, h.reads a ha _ (.same _), hid⟩

theorem unchecked_id : Unchecked BoxId.ofJson? (fun id => id) BoxId.label? := by
  refine unchecked_of_values (fun id => ?_) fun id => label?_eq_none_iff
  exact ⟨id.toJson, wellFormed_id id, id, BoxId.reads id _ (.same _), rfl⟩

theorem unchecked_spec : Unchecked Spec.ofJson? Spec.id Spec.label? := by
  refine unchecked_of_consistent Spec.consistent (fun id => ?_) fun s => Spec.label?_eq_none_iff
  have hmoment : (⟨0, 0⟩ : Time.Moment).Expressible := Time.Moment.expressible_of_seconds (by decide) (by decide)
  exact ⟨⟨id, none, "alpine", 1, 256, [], [], ⟨0, 0⟩⟩, ⟨Nat.one_lt_two_pow (by decide), by simp, hmoment⟩, rfl⟩

theorem unchecked_launchOrder : Unchecked LaunchOrder.ofJson? LaunchOrder.boxId LaunchOrder.label? := by
  refine unchecked_of_consistent LaunchOrder.consistent (fun id => ?_) fun o => LaunchOrder.label?_eq_none_iff
  exact ⟨⟨id, "alpine", 1, 256, [], []⟩, ⟨Nat.one_lt_two_pow (by decide), by simp⟩, rfl⟩

theorem unchecked_snapshot (cpu : Numeric.Single → String)
    : Unchecked Snapshot.ofJson? Snapshot.id (Snapshot.label? cpu) := by
  refine unchecked_of_values (fun id => ?_) fun s => Snapshot.label?_eq_none_iff
  refine ⟨.record [("id", id.toJson), ("status", Status.created.toJson), ("image", .string "alpine"),
    ("cpus", .ofNat 1), ("memory_mib", .ofNat 256), ("created_at", .string "2026-01-01T00:00:00Z"),
    ("last_updated", .string "2026-01-01T00:00:00Z")], ?_, ?_⟩
  . exact Json.wellFormed_record (by simp [wellFormed_id, wellFormed_status])
  . exact ⟨_, rfl, rfl⟩

theorem readJson?_eq_some_iff {text : String} {id : BoxId}
    : readJson? BoxId.ofJson? text = some id ↔ Json.parse? text = some (.string id.text) := by
  simp only [readJson?, Option.bind_eq_bind, Option.bind_eq_some_iff]
  constructor
  . rintro ⟨json, hparse, hread⟩
    rw [hparse]
    cases json with
    | string text =>
      cases hread
      rfl
    | _ => cases hread
  . intro hparse
    exact ⟨_, hparse, rfl⟩

end Read

/--
Every id that is parsed, drawn or given to a box has the form of an id, and so has a short form and a label. That
does not hold of the ids that are read out of JSON. What is read is the text as it stands there, so that it has the form
of an id exactly if that text has. Any text can stand there, in a record as well as alone, and those which cannot be cut
after eight bytes have no label.
-/
theorem ids_are_checked_unless_read (text : String) (limits : Limits) (es : List Registry.Event)
    (cpu : Numeric.Single → String)
    : (∀ id, parse? text = some id → id.Sound) ∧
      (∀ readings, ∀ n ∈ ({} : IdSource).drawAll readings, (ofNumber n).Sound) ∧
      (∀ b ∈ (({ limits } : Registry).after es).boxes, b.spec.id.Sound ∧ b.spec.label? ≠ none ∧
        ∀ record usage, (Snapshot.of b.spec record usage).label? cpu ≠ none) ∧
      (∀ id, readJson? BoxId.ofJson? text = some id ↔ Json.parse? text = some (.string id.text)) ∧
      ((∀ id, readJson? BoxId.ofJson? text = some id → id.Sound) ↔
        ∀ s, Json.parse? text = some (.string s) → isValid s = true) ∧
      Unchecked BoxId.ofJson? (fun id => id) BoxId.label? ∧
      Unchecked Spec.ofJson? Spec.id Spec.label? ∧
      Unchecked LaunchOrder.ofJson? LaunchOrder.boxId LaunchOrder.label? ∧
      Unchecked Snapshot.ofJson? Snapshot.id (Snapshot.label? cpu) := by
  refine ⟨?_, fun _ n _ => sound_of_isValid (isValid_ofNumber n), ?_, fun _ => readJson?_eq_some_iff, ?_,
    unchecked_id, unchecked_spec, unchecked_launchOrder, unchecked_snapshot cpu⟩
  . intro id hparse
    rcases parse?_eq_some_iff.mp hparse with ⟨hvalid, rfl⟩
    exact sound_of_isValid hvalid
  . intro b hb
    have hreachable : Registry.Reachable limits (fun _ _ => True) (({ limits } : Registry).after es) :=
      Registry.Reachable.start.after fun _ _ _ => trivial
    have hspec : b.spec ∈ (({ limits } : Registry).after es).specs := List.mem_map_of_mem hb
    have hsound := sound_of_isValid (Registry.isValid_of_mem_specs (Registry.indexed_of_reachable hreachable) hspec)
    exact ⟨hsound, mt Spec.label?_eq_none_iff.mp hsound.short,
      fun record usage => mt Snapshot.label?_eq_none_iff.mp hsound.short⟩
  . constructor
    . intro hsound s hparse
      exact (hsound ⟨s⟩ (readJson?_eq_some_iff.mpr hparse)).valid
    . intro hvalid id hread
      exact sound_of_isValid (hvalid id.text (readJson?_eq_some_iff.mp hread))

theorem ids_are_checked_unless_read_shortText
    : readJson? BoxId.ofJson? "\"abc\"" = some ⟨"abc"⟩ ∧ (⟨"abc"⟩ : BoxId).label? = none ∧
      ¬(∀ id, readJson? BoxId.ofJson? "\"abc\"" = some id → id.Sound) ∧
      (∃ text s, readJson? Spec.ofJson? text = some s ∧ s.id = ⟨"aéèêë"⟩ ∧ s.label? = none) ∧
      ∀ b ∈ (({} : Registry).after [.create { image := "alpine" } ⟨0, 0⟩ 1 0]).boxes, b.spec.label? ≠ none := by
  rcases ids_are_checked_unless_read "\"abc\"" {} [.create { image := "alpine" } ⟨0, 0⟩ 1 0] (fun _ => "0.0") with
    ⟨-, -, hboxes, hread, hmeets, hid, hspec, -, -⟩
  have hparse : Json.parse? "\"abc\"" = some (.string "abc") := by
    have htext : "\"abc\"" = (Json.string "abc").compact := by decide +kernel
    rw [htext, Json.parse?_compact (Json.wellFormed_string _)]
  have hcut : ∀ id : BoxId, id.short? = none →
      ∀ s : String, s.toList <+: id.text.toList → s.utf8ByteSize ≠ 8 := fun _ => short?_eq_none_iff.mp
  refine ⟨(hread _).mpr hparse, ?_, ?_, ?_, ?_⟩
  . exact (hid.lacking _).mpr (hcut ⟨"abc"⟩ (by decide +kernel))
  . intro hsound
    have hvalid := hmeets.mp hsound "abc" hparse
    revert hvalid
    decide +kernel
  . rcases hspec.holds ⟨"aéèêë"⟩ with ⟨text, s, hs, hid⟩
    refine ⟨text, s, hs, hid, (hspec.lacking s).mpr (hcut s.id ?_)⟩
    rw [hid]
    decide +kernel
  . intro b hb
    exact (hboxes b hb).2.1

end BoxId

end BoxRegistry

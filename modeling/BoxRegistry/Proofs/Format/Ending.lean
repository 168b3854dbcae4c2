import BoxRegistry.Format.Ending
import BoxRegistry.Proofs.Format.Form
import BoxRegistry.Proofs.Numeric.Representable

namespace BoxRegistry

namespace Json

open Ending (holdable holdableItems holdableFields)

theorem holdableFields_iff {depth : Nat} {fields : List (Option String × Json)}
    : holdableFields depth fields = true ↔ ∀ field ∈ fields, field.1.isSome = true ∧ holdable depth field.2 = true := by
  induction fields with
  | nil => simp [holdableFields]
  | cons field fields ih => simp [holdableFields, ih, and_assoc]

theorem holdable_of_isSimple {json : Json} (h : json.isSimple = true) (depth : Nat) : holdable depth json = true := by
  cases json <;> simp_all [isSimple, holdable]

mutual

theorem Rearranged.holdable {json other : Json}
    : json.Rearranged other → ∀ depth, Ending.holdable depth json = true → Ending.holdable depth other = true
  | .same _, _, h => h
  | .array hitems, depth, h => by
    rw [Ending.holdable, Bool.and_eq_true] at h ⊢
    exact ⟨h.1, hitems.holdable _ h.2⟩
  | .object hkept hextra hperm, depth, h => by
    rw [Ending.holdable, Bool.and_eq_true] at h ⊢
    have hfields := holdableFields_iff.mp (hkept.holdable _ h.2)
    refine ⟨h.1, holdableFields_iff.mpr fun field hfield => ?_⟩
    rcases List.mem_append.mp (hperm.mem_iff.mp hfield) with hold | hnew
    . exact hfields field hold
    . exact ⟨Option.isSome_iff_ne_none.mpr (hextra field hnew).1, holdable_of_isSimple (hextra field hnew).2.2 _⟩

theorem RearrangedItems.holdable {items others : List Json}
    : RearrangedItems items others → ∀ depth, holdableItems depth items = true → holdableItems depth others = true
  | .nil, _, h => h
  | .cons hitem hitems, depth, h => by
    rw [holdableItems, Bool.and_eq_true] at h ⊢
    exact ⟨hitem.holdable _ h.1, hitems.holdable _ h.2⟩

theorem RearrangedFields.holdable {fields others : List (Option String × Json)}
    : RearrangedFields fields others → ∀ depth, holdableFields depth fields = true → holdableFields depth others = true
  | .nil, _, h => h
  | .cons hitem hitems, depth, h => by
    rw [holdableFields, Bool.and_eq_true, Bool.and_eq_true] at h ⊢
    exact ⟨⟨h.1.1, hitem.holdable _ h.1.2⟩, hitems.holdable _ h.2⟩

end

end Json

namespace Ending

open Json (FitsInt32)

def InRange : Ending → Prop
  | stopped _ code => ∀ i ∈ code, FitsInt32 i
  | exited code => FitsInt32 code
  | crashed signal => ∀ i ∈ signal, FitsInt32 i
  | startFailed _ | backendError _ => True
  | terminated code signal => (∀ i ∈ code, FitsInt32 i) ∧ ∀ i ∈ signal, FitsInt32 i

theorem reads_optionalInt {o : Option Int} (h : ∀ i ∈ o, FitsInt32 i)
    : Json.Reads (Json.option? Json.int32?) (.ofOption .ofInt o) o :=
  Json.reads_option (fun _ => by simp [Json.ofInt]) fun i hi => Json.reads_int32 (h i hi)

theorem reads_fields {e : Ending} (h : e.InRange) : Json.Reads (ofFields? e.kind) (.record e.fields) e := by
  intro other hother
  cases e with
  | stopped forced code =>
    rcases Json.shaped?_two (by decide) .refused .null hother with ⟨a, b, hshaped, ha, hb⟩
    simp only [kind, ofFields?, hshaped, Option.bind_eq_bind, Option.bind_some, Json.reads_bool forced a ha,
      reads_optionalInt h b hb, Option.pure_def]
  | exited code =>
    rcases Json.shaped?_one .refused hother with ⟨a, hshaped, ha⟩
    simp only [kind, ofFields?, hshaped, Option.bind_eq_bind, Option.bind_some, Json.reads_int32 h a ha,
      Option.pure_def]
  | crashed signal =>
    rcases Json.shaped?_one .null hother with ⟨a, hshaped, ha⟩
    simp only [kind, ofFields?, hshaped, Option.bind_eq_bind, Option.bind_some, reads_optionalInt h a ha,
      Option.pure_def]
  | startFailed message | backendError message =>
    rcases Json.shaped?_one .refused hother with ⟨a, hshaped, ha⟩
    simp only [kind, ofFields?, hshaped, Option.bind_eq_bind, Option.bind_some, Json.reads_string message a ha,
      Option.pure_def]
  | terminated code signal =>
    rcases Json.shaped?_two (by decide) .null .null hother with ⟨a, b, hshaped, ha, hb⟩
    simp only [kind, ofFields?, hshaped, Option.bind_eq_bind, Option.bind_some, reads_optionalInt h.1 a ha,
      reads_optionalInt h.2 b hb, Option.pure_def]

theorem representable_of_fitsInt32 {i : Int} (h : FitsInt32 i) : (Json.Number.ofInt i).representable = true := by
  refine Json.Number.representable_ofInt ?_
  rw [FitsInt32] at h
  omega

theorem holdable_optionalInt {o : Option Int} (h : ∀ i ∈ o, FitsInt32 i) (depth : Nat)
    : holdable depth (.ofOption .ofInt o) = true := by
  cases o with
  | none => rfl
  | some i => exact representable_of_fitsInt32 (h i rfl)

theorem holdable_fields {e : Ending} (h : e.InRange) (depth : Nat)
    : ∀ field ∈ e.fields, holdable depth field.2 = true := by
  cases e with
  | stopped forced code => simp [fields, holdable, holdable_optionalInt h]
  | exited code => simpa [fields, Json.ofInt, holdable] using representable_of_fitsInt32 h
  | crashed signal => simp [fields, holdable_optionalInt h]
  | startFailed message | backendError message => simp [fields, holdable]
  | terminated code signal => simp [fields, holdable_optionalInt h.1, holdable_optionalInt h.2]

theorem holdable_toJson {e : Ending} (h : e.InRange) (depth : Nat) : holdable (depth + 1) e.toJson = true := by
  have hfields := holdable_fields h depth
  rw [toJson, Json.record, holdable, Json.holdableFields_iff.mpr]
  . rfl
  . simp only [List.map_cons, List.forall_mem_cons, List.forall_mem_map, Option.isSome_some, true_and,
      Nat.add_sub_cancel]
    exact ⟨rfl, hfields⟩

theorem kind_not_mem_fields (e : Ending)
    : some "kind" ∉ (e.fields.map fun field => (some field.1, field.2)).map Prod.fst := by
  cases e <;> simp [fields]

theorem reads {e : Ending} (h : e.InRange) {levels : Nat} (hlevels : levels < depthLimit)
    : Json.Reads (ofJsonBelow? levels) e.toJson e := by
  intro other hother
  rcases Json.rearranged_object hother with ⟨-, -, others, rfl, -⟩
  rcases Json.rearranged_take e.kind_not_mem_fields hother with ⟨_, ⟨⟩, hvalues, hrest⟩
  have hdepth : depthLimit - levels = depthLimit - levels - 1 + 1 := by omega
  have hholdable : holdable (depthLimit - levels) (.object others) = true := by
    rw [hdepth]
    exact hother.holdable _ (holdable_toJson h _)
  simp only [ofJsonBelow?, hholdable, if_true, hvalues]
  exact reads_fields h _ hrest

theorem fitsInt32_of_optionalInt {json : Json} {o : Option Int} (h : json.option? Json.int32? = some o)
    : ∀ i ∈ o, FitsInt32 i :=
  Json.forall_of_option? (fun _ _ => Json.fitsInt32_of_int32?) h

theorem inRange_of_ofFields? {kind : String} {json : Json} {e : Ending} (h : ofFields? kind json = some e)
    : e.InRange := by
  unfold ofFields? at h
  split at h
  case h_7 => cases h
  all_goals
    simp only [Option.bind_eq_bind, Option.bind_eq_some_iff] at h
    rcases h with ⟨values, -, h⟩
    split at h
    case h_2 => cases h
    simp only [Option.bind_eq_some_iff, Option.pure_def, Option.some.injEq] at h
  . rcases h with ⟨forced, -, code, hcode, rfl⟩
    exact fitsInt32_of_optionalInt hcode
  . rcases h with ⟨code, hcode, rfl⟩
    exact Json.fitsInt32_of_int32? hcode
  . rcases h with ⟨signal, hsignal, rfl⟩
    exact fitsInt32_of_optionalInt hsignal
  . rcases h with ⟨message, -, rfl⟩
    trivial
  . rcases h with ⟨message, -, rfl⟩
    trivial
  . rcases h with ⟨code, hcode, signal, hsignal, rfl⟩
    exact ⟨fitsInt32_of_optionalInt hcode, fitsInt32_of_optionalInt hsignal⟩

theorem inRange_of_ofJsonBelow? {levels : Nat} {json : Json} {e : Ending} (h : ofJsonBelow? levels json = some e)
    : e.InRange := by
  unfold ofJsonBelow? at h
  split at h
  . split at h
    . split at h
      . exact inRange_of_ofFields? h
      . cases h
    . exact inRange_of_ofFields? h
    . cases h
  . cases h

theorem wellFormed_toJson (e : Ending) : e.toJson.WellFormed := by
  refine Json.wellFormed_record ?_
  cases e <;> simp [fields, Json.wellFormed_ofOption]

def form : JsonForm Ending := ⟨toJson, ofJson?, InRange⟩

theorem consistent : form.Consistent where
  wellFormed := wellFormed_toJson
  reads _ h := reads h (by decide)
  inRange _ _ := inRange_of_ofJsonBelow?

end Ending

end BoxRegistry

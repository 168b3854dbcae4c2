import BoxRegistry.Json.Fields
import BoxRegistry.Proofs.Json.Parse
import Mathlib.Data.List.Nodup

/-!
This module contains what may be done to a JSON value without it meaning anything else to those who take records from
it: the fields of its objects may be in any order, and there may be more of them.
-/

namespace BoxRegistry.Json

def isSimple : Json → Bool
  | .null | .bool _ | .string _ => true
  | .number _ | .unpaired | .array _ | .object _ => false

def Foreign (fields : List (Option String × Json)) (field : Option String × Json) : Prop :=
  field.1 ≠ none ∧ field.1 ∉ fields.map Prod.fst ∧ field.2.isSimple = true

mutual

/--
A value with the fields of its objects put into any order, and with foreign fields put in at any place.
-/
inductive Rearranged : Json → Json → Prop where
  | same (json : Json) : Rearranged json json
  | array {items others : List Json} (h : RearrangedItems items others) : Rearranged (.array items) (.array others)
  | object {fields kept extra others : List (Option String × Json)} (hkept : RearrangedFields fields kept)
      (hextra : ∀ field ∈ extra, Foreign fields field) (hperm : others.Perm (kept ++ extra))
      : Rearranged (.object fields) (.object others)

inductive RearrangedItems : List Json → List Json → Prop where
  | nil : RearrangedItems [] []
  | cons {item other : Json} {items others : List Json} (h : Rearranged item other) (hs : RearrangedItems items others)
      : RearrangedItems (item :: items) (other :: others)

inductive RearrangedFields : List (Option String × Json) → List (Option String × Json) → Prop where
  | nil : RearrangedFields [] []
  | cons {k : Option String} {item other : Json} {fields others : List (Option String × Json)}
      (h : Rearranged item other) (hs : RearrangedFields fields others)
      : RearrangedFields ((k, item) :: fields) ((k, other) :: others)

end

theorem RearrangedItems.refl : (items : List Json) → RearrangedItems items items
  | [] => .nil
  | item :: items => .cons (.same item) (refl items)

theorem RearrangedFields.refl : (fields : List (Option String × Json)) → RearrangedFields fields fields
  | [] => .nil
  | (_, item) :: fields => .cons (.same item) (refl fields)

@[simp]
theorem rearrangedItems_nil {others : List Json} : RearrangedItems [] others ↔ others = [] := by
  constructor
  . rintro ⟨⟩
    rfl
  . rintro rfl
    exact .nil

@[simp]
theorem rearrangedItems_cons {item : Json} {items others : List Json}
    : RearrangedItems (item :: items) others
        ↔
      ∃ other rest, others = other :: rest ∧ item.Rearranged other ∧ RearrangedItems items rest := by
  constructor
  . rintro (_ | ⟨h, hs⟩)
    exact ⟨_, _, rfl, h, hs⟩
  . rintro ⟨other, rest, rfl, h, hs⟩
    exact .cons h hs

theorem eq_of_rearranged_string {text : String} {json : Json} (h : (string text).Rearranged json)
    : json = .string text := by
  cases h
  rfl

theorem rearranged_array {items : List Json} {json : Json} (h : (array items).Rearranged json)
    : ∃ others, json = .array others ∧ RearrangedItems items others := by
  cases h with
  | same => exact ⟨items, rfl, .refl items⟩
  | array h => exact ⟨_, rfl, h⟩

theorem rearranged_object {fields : List (Option String × Json)} {json : Json} (h : (object fields).Rearranged json)
    : ∃ kept extra others, json = .object others ∧ RearrangedFields fields kept
        ∧ (∀ field ∈ extra, Foreign fields field) ∧ others.Perm (kept ++ extra) := by
  cases h with
  | same => exact ⟨fields, [], fields, rfl, .refl fields, by simp, by simp⟩
  | object hkept hextra hperm => exact ⟨_, _, _, rfl, hkept, hextra, hperm⟩

theorem eq_null_of_rearranged {json : Json} (h : json.Rearranged .null) : json = .null := by
  cases h
  rfl

theorem RearrangedFields.keys {fields others : List (Option String × Json)} : (h : RearrangedFields fields others) →
    others.map Prod.fst = fields.map Prod.fst
  | .nil => rfl
  | .cons _ hs => congrArg (_ :: ·) hs.keys

theorem RearrangedFields.values {fields others : List (Option String × Json)} : (h : RearrangedFields fields others) →
    RearrangedItems (fields.map Prod.snd) (others.map Prod.snd)
  | .nil => .nil
  | .cons h hs => .cons h hs.values

section WellFormed

theorem wellFormed_of_isSimple {json : Json} (h : json.isSimple = true) : json.WellFormed := by
  cases json <;> simp_all [isSimple, WellFormed]

theorem wellFormedFields_iff {fields : List (Option String × Json)}
    : WellFormedFields fields ↔ ∀ field ∈ fields, field.2.WellFormed := by
  induction fields with
  | nil => simp [WellFormedFields]
  | cons field fields ih => simp [WellFormedFields, ih]

theorem wellFormedItems_iff {items : List Json} : WellFormedItems items ↔ ∀ item ∈ items, item.WellFormed := by
  induction items with
  | nil => simp [WellFormedItems]
  | cons item items ih => simp [WellFormedItems, ih]

@[simp]
theorem wellFormed_string (text : String) : (string text).WellFormed := trivial

@[simp]
theorem wellFormed_bool (b : Bool) : (bool b).WellFormed := trivial

@[simp]
theorem wellFormed_ofInt (i : Int) : (ofInt i).WellFormed := by
  intro d hd
  cases hd

@[simp]
theorem wellFormed_ofNat (n : Nat) : (ofNat n).WellFormed := wellFormed_ofInt n

theorem wellFormed_ofOption {encode : α → Json} (h : ∀ a, (encode a).WellFormed) (o : Option α)
    : (ofOption encode o).WellFormed := by
  cases o with
  | none => trivial
  | some a => exact h a

theorem wellFormed_array {items : List Json} (h : ∀ item ∈ items, item.WellFormed) : (array items).WellFormed :=
  wellFormedItems_iff.mpr h

theorem wellFormed_record {fields : List (String × Json)} (h : ∀ field ∈ fields, field.2.WellFormed)
    : (record fields).WellFormed := by
  refine wellFormedFields_iff.mpr fun field hfield => ?_
  rcases List.mem_map.mp hfield with ⟨entry, hentry, rfl⟩
  exact h entry hentry

mutual

theorem Rearranged.wellFormed {json other : Json} : json.Rearranged other → json.WellFormed → other.WellFormed
  | .same _, hwell => hwell
  | .array h, hwell => h.wellFormed hwell
  | .object hkept hextra hperm, hwell => by
    refine wellFormedFields_iff.mpr fun field hfield => ?_
    rcases List.mem_append.mp (hperm.mem_iff.mp hfield) with hold | hnew
    . exact wellFormedFields_iff.mp (hkept.wellFormed hwell) field hold
    . exact wellFormed_of_isSimple (hextra field hnew).2.2

theorem RearrangedItems.wellFormed {items others : List Json}
    : RearrangedItems items others → WellFormedItems items → WellFormedItems others
  | .nil, hwell => hwell
  | .cons h hs, hwell => ⟨h.wellFormed hwell.1, hs.wellFormed hwell.2⟩

theorem RearrangedFields.wellFormed {fields others : List (Option String × Json)}
    : RearrangedFields fields others → WellFormedFields fields → WellFormedFields others
  | .nil, hwell => hwell
  | .cons h hs, hwell => ⟨h.wellFormed hwell.1, hs.wellFormed hwell.2⟩

end

end WellFormed

section Fields

variable {fields kept extra others : List (Option String × Json)} {k : String} {item : Json}

theorem valuesOf_cons (name : String) (field : Option String × Json)
    : valuesOf name (field :: fields)
        =
      if field.1 = some name then field.2 :: valuesOf name fields else valuesOf name fields := by
  by_cases h : field.1 = some name <;> simp [valuesOf, h]

theorem valuesOf_append (name : String)
    : valuesOf name (fields ++ others) = valuesOf name fields ++ valuesOf name others := by
  simp [valuesOf]

theorem valuesOf_eq_nil {name : String} (h : some name ∉ fields.map Prod.fst) : valuesOf name fields = [] := by
  simp only [valuesOf, List.map_eq_nil_iff, List.filter_eq_nil_iff, beq_iff_eq]
  intro field hfield hkey
  exact h (List.mem_map.mpr ⟨field, hfield, hkey⟩)

theorem valuesOf_eq_singleton {name : String} (hnodup : (fields.map Prod.fst).Nodup) (h : (some name, item) ∈ fields)
    : valuesOf name fields = [item] := by
  induction fields with
  | nil => cases h
  | cons field fields ih =>
    rw [List.map_cons, List.nodup_cons] at hnodup
    rw [valuesOf_cons]
    rcases List.mem_cons.mp h with rfl | hrest
    . rw [if_pos rfl, valuesOf_eq_nil hnodup.1]
    . have hne : field.1 ≠ some name := by
        rintro hkey
        exact hnodup.1 (hkey ▸ List.mem_map_of_mem hrest)
      rw [if_neg hne, ih hnodup.2 hrest]

theorem valuesOf_rearranged {name : String} (hnodup : (fields.map Prod.fst).Nodup)
    (hkept : RearrangedFields fields kept) (hextra : ∀ field ∈ extra, Foreign fields field)
    (hperm : others.Perm (kept ++ extra)) (h : (some name, item) ∈ kept)
    : valuesOf name others = [item] := by
  have hkey : some name ∈ fields.map Prod.fst := by
    rw [← hkept.keys]
    exact List.mem_map_of_mem h
  have hforeign : some name ∉ extra.map Prod.fst := by
    intro hmem
    rcases List.mem_map.mp hmem with ⟨field, hfield, heq⟩
    exact (hextra field hfield).2.1 (heq ▸ hkey)
  have hvalues : (valuesOf name others).Perm (valuesOf name (kept ++ extra)) := (hperm.filter _).map _
  rw [valuesOf_append, valuesOf_eq_nil hforeign, List.append_nil,
    valuesOf_eq_singleton (hkept.keys ▸ hnodup) h] at hvalues
  exact List.perm_singleton.mp hvalues

theorem rearranged_take (hk : some k ∉ fields.map Prod.fst)
    (h : (object ((some k, item) :: fields)).Rearranged (object others))
    : ∃ other, item.Rearranged other ∧ valuesOf k others = [other]
        ∧ (object fields).Rearranged (object (others.filter fun field => field.1 != some k)) := by
  rcases rearranged_object h with ⟨kept, extra, _, ⟨⟩, hkept, hextra, hperm⟩
  cases hkept with
  | cons hitem hkept =>
  rename_i other kept
  have hforeign : ∀ field ∈ extra, Foreign fields field := fun field hfield =>
    ⟨(hextra field hfield).1, fun hmem => (hextra field hfield).2.1 (List.mem_cons_of_mem _ hmem),
      (hextra field hfield).2.2⟩
  have hkeep : ∀ field ∈ kept ++ extra, (field.1 != some k) = true := by
    intro field hfield
    rw [bne_iff_ne]
    rintro hkey
    rcases List.mem_append.mp hfield with hold | hnew
    . exact hk (hkey ▸ hkept.keys ▸ List.mem_map_of_mem hold)
    . exact (hextra field hnew).2.1 (hkey ▸ List.mem_cons_self)
  have hvalues : (valuesOf k others).Perm (valuesOf k ((some k, other) :: (kept ++ extra))) :=
    (hperm.filter _).map _
  have hnone : valuesOf k (kept ++ extra) = [] := by
    rw [valuesOf, List.filter_eq_nil_iff.mpr, List.map_nil]
    intro field hfield
    simpa using hkeep field hfield
  rw [valuesOf_cons, if_pos rfl, hnone] at hvalues
  refine ⟨other, hitem, List.perm_singleton.mp hvalues, .object hkept hforeign ?_⟩
  have hfilter := hperm.filter fun field => field.1 != some k
  rwa [List.cons_append, List.filter_cons_of_neg (by simp), List.filter_eq_self.mpr hkeep] at hfilter

end Fields

section Shapes

variable {shape : Shape} {fields kept others : List (Option String × Json)}

theorem mapM_shape (hnames : shape.map (some ·.1) = fields.map Prod.fst) (hkept : RearrangedFields fields kept)
    (hvalues : ∀ name item, (some name, item) ∈ kept → valuesOf name others = [item])
    : (shape.mapM fun (name, absence) =>
          match valuesOf name others, absence with
          | [value], _ => some (some value)
          | [], .null => some (some .null)
          | [], .default => some none
          | _, _ => none)
        =
      some (kept.map (some ·.2)) := by
  induction shape generalizing fields kept with
  | nil =>
    rw [List.map_nil, eq_comm, List.map_eq_nil_iff] at hnames
    subst hnames
    cases hkept
    rfl
  | cons entry shape ih =>
    rcases entry with ⟨name, absence⟩
    cases hkept with
    | nil => cases hnames
    | cons h hs =>
      rw [List.map_cons, List.map_cons, List.cons.injEq] at hnames
      rcases hnames with ⟨rfl, hnames⟩
      have hrest := ih hnames hs fun name item hmem => hvalues name item (List.mem_cons_of_mem _ hmem)
      simp only [List.mapM_cons, hvalues name _ List.mem_cons_self, hrest, List.map_cons]
      rfl

theorem shaped?_rearranged (shape : Shape) {fields : List (String × Json)} {json : Json}
    (hnames : shape.map Prod.fst = fields.map Prod.fst) (hnodup : (shape.map Prod.fst).Nodup)
    (h : (record fields).Rearranged json)
    : ∃ values, json.shaped? shape = some (values.map some) ∧ RearrangedItems (fields.map Prod.snd) values := by
  rcases rearranged_object h with ⟨kept, extra, others, rfl, hkept, hextra, hperm⟩
  have hkeys : (fields.map fun field => (some field.1, field.2)).map Prod.fst = (fields.map Prod.fst).map some := by
    simp
  have hsome : (others.all fun field => field.1.isSome) = true := by
    rw [List.all_eq_true]
    intro field hfield
    rcases List.mem_append.mp (hperm.mem_iff.mp hfield) with hold | hnew
    . have hmem : field.1 ∈ (fields.map Prod.fst).map some := by
        rw [← hkeys, ← hkept.keys]
        exact List.mem_map_of_mem hold
      rcases List.mem_map.mp hmem with ⟨name, -, hname⟩
      rw [← hname]
      rfl
    . exact Option.isSome_iff_ne_none.mpr (hextra field hnew).1
  have hnodup' : ((fields.map fun field => (some field.1, field.2)).map Prod.fst).Nodup := by
    rw [hkeys, ← hnames]
    exact hnodup.map fun _ _ => Option.some.inj
  refine ⟨kept.map Prod.snd, ?_, by simpa [List.map_map, Function.comp_def] using hkept.values⟩
  have hshape : shape.map (some ·.1) = (fields.map fun field => (some field.1, field.2)).map Prod.fst := by
    rw [hkeys, ← hnames, List.map_map]
    rfl
  rw [shaped?, if_pos hsome, List.map_map]
  exact mapM_shape hshape hkept fun name item hmem => valuesOf_rearranged hnodup' hkept hextra hperm hmem

theorem shaped?_one {k : String} {x json : Json} (absence : Absence) (h : (record [(k, x)]).Rearranged json)
    : ∃ a, json.shaped? [(k, absence)] = some [some a] ∧ x.Rearranged a := by
  rcases shaped?_rearranged [(k, absence)] rfl (List.nodup_singleton k) h with ⟨values, hshaped, hvalues⟩
  simp only [List.map_cons, List.map_nil, rearrangedItems_cons, rearrangedItems_nil] at hvalues
  rcases hvalues with ⟨a, _, rfl, ha, rfl⟩
  exact ⟨a, hshaped, ha⟩

theorem shaped?_two {k k' : String} {x y json : Json} (hne : k ≠ k') (absence absence' : Absence)
    (h : (record [(k, x), (k', y)]).Rearranged json)
    : ∃ a b, json.shaped? [(k, absence), (k', absence')] = some [some a, some b] ∧ x.Rearranged a ∧ y.Rearranged b := by
  rcases shaped?_rearranged [(k, absence), (k', absence')] rfl (by simp [hne]) h with ⟨values, hshaped, hvalues⟩
  simp only [List.map_cons, List.map_nil, rearrangedItems_cons, rearrangedItems_nil] at hvalues
  rcases hvalues with ⟨a, _, rfl, ha, b, _, rfl, hb, rfl⟩
  exact ⟨a, b, hshaped, ha, hb⟩

end Shapes

def Reads (decode : Json → Option α) (json : Json) (a : α) : Prop :=
  ∀ other, json.Rearranged other → decode other = some a

section Reads

variable {decode : Json → Option α}

theorem reads_string (text : String) : Reads string? (.string text) text := by
  intro other hother
  rw [eq_of_rearranged_string hother]
  rfl

theorem reads_bool (b : Bool) : Reads bool? (.bool b) b := by
  rintro _ ⟨⟩
  rfl

theorem reads_within {low high i : Int} (h : low ≤ i ∧ i ≤ high) : Reads (intWithin? low high) (ofInt i) i := by
  rintro _ ⟨⟩
  simp only [intWithin?, ofInt, Number.int?_ofInt, Option.bind_eq_bind, Option.bind_some, if_pos h]

def FitsInt32 (i : Int) : Prop :=
  -2147483648 ≤ i ∧ i ≤ 2147483647

theorem reads_int32 {i : Int} (h : FitsInt32 i) : Reads int32? (ofInt i) i :=
  reads_within h

theorem reads_unsigned {bits n : Nat} (h : n < 2 ^ bits) : Reads (unsigned? bits) (ofNat n) n := by
  intro other hother
  have hrange : (0 : Int) ≤ n ∧ (n : Int) ≤ Int.pow 2 bits - 1 := by
    have hpow : ((2 ^ bits : Nat) : Int) = Int.pow 2 bits := Int.natCast_pow 2 bits
    omega
  rw [unsigned?, reads_within hrange other hother]
  rfl

theorem reads_option {encode : α → Json} {o : Option α} (hnull : ∀ a, encode a ≠ .null)
    (h : ∀ a ∈ o, Reads decode (encode a) a) : Reads (option? decode) (ofOption encode o) o := by
  intro other hother
  cases o with
  | none =>
    cases hother
    rfl
  | some a =>
    have hread := h a rfl other hother
    unfold option?
    split
    . exact absurd (eq_null_of_rearranged hother) (hnull a)
    . rw [hread]
      rfl

theorem reads_list {encode : α → Json} {as : List α} (h : ∀ a ∈ as, Reads decode (encode a) a)
    : Reads (list? decode) (.array (as.map encode)) as := by
  intro other hother
  rcases rearranged_array hother with ⟨others, rfl, hothers⟩
  clear hother
  rw [list?]
  induction as generalizing others with
  | nil =>
    cases hothers
    rfl
  | cons a as ih =>
    rcases rearrangedItems_cons.mp hothers with ⟨other, others, rfl, hhead, hrest⟩
    rw [List.mapM_cons, h a List.mem_cons_self other hhead,
      ih (fun a ha => h a (List.mem_cons_of_mem _ ha)) others hrest]
    rfl

theorem reads_pair (entry : String × String) : Reads pair? (.array [.string entry.1, .string entry.2]) entry := by
  intro other hother
  rcases rearranged_array hother with ⟨others, rfl, hothers⟩
  simp only [rearrangedItems_cons, rearrangedItems_nil] at hothers
  rcases hothers with ⟨_, _, rfl, ⟨⟩, _, _, rfl, ⟨⟩, rfl⟩
  rfl

end Reads

end BoxRegistry.Json

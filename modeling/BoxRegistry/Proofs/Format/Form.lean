import BoxRegistry.Proofs.Json.Rearranged

/-!
This module contains what it means that the values of a type survive being written as JSON texts and being read again,
and what has to be known of the JSON form of a type for that.
-/

namespace BoxRegistry

namespace Json

theorem bounds_of_intWithin? {low high i : Int} {json : Json} (h : json.intWithin? low high = some i)
    : low ≤ i ∧ i ≤ high := by
  unfold intWithin? at h
  split at h
  . simp only [Option.bind_eq_bind, Option.bind_eq_some_iff] at h
    rcases h with ⟨j, -, h⟩
    split at h
    . next hbounds =>
      cases h
      exact hbounds
    . cases h
  . cases h

theorem fitsInt32_of_int32? {i : Int} {json : Json} (h : json.int32? = some i) : FitsInt32 i :=
  bounds_of_intWithin? h

theorem lt_of_unsigned? {bits n : Nat} {json : Json} (h : json.unsigned? bits = some n) : n < 2 ^ bits := by
  rcases Option.map_eq_some_iff.mp h with ⟨i, hi, rfl⟩
  have hbounds := bounds_of_intWithin? hi
  have hpow : ((2 ^ bits : Nat) : Int) = Int.pow 2 bits := Int.natCast_pow 2 bits
  omega

theorem forall_of_option? {decode : Json → Option α} {p : α → Prop} (hp : ∀ json a, decode json = some a → p a)
    {json : Json} {o : Option α} (h : json.option? decode = some o) : ∀ a ∈ o, p a := by
  rintro a rfl
  unfold option? at h
  split at h
  . cases h
  . rcases Option.map_eq_some_iff.mp h with ⟨b, hb, heq⟩
    cases heq
    exact hp _ a hb

end Json

structure JsonForm (α : Type) where
  toJson : α → Json
  ofJson? : Json → Option α
  InRange : α → Prop

namespace JsonForm

variable {α : Type}

def write (form : JsonForm α) (a : α) : String :=
  (form.toJson a).compact

def read? (form : JsonForm α) (text : String) : Option α :=
  Json.parse? text >>= form.ofJson?

def rewrite? (form : JsonForm α) (text : String) : Option String :=
  (form.read? text).map form.write

/--
A value is read off the text that is written of it. It is still read, off any text for it, after the fields of its
objects were put into another order and foreign fields were put in. What is read is in range, and a text that was
rewritten once is rewritten as it is.
-/
structure Faithful (form : JsonForm α) : Prop where
  returns : ∀ a, form.InRange a → form.read? (form.write a) = some a
  rearranged : ∀ a json, form.InRange a → (form.toJson a).Rearranged json →
    form.read? json.compact = some a ∧ ∀ text, Json.parse? text = some json → form.read? text = some a
  inRange : ∀ text a, form.read? text = some a → form.InRange a
  idempotent : ∀ text rewritten, form.rewrite? text = some rewritten → form.rewrite? rewritten = some rewritten

structure Consistent (form : JsonForm α) : Prop where
  wellFormed : ∀ a, (form.toJson a).WellFormed
  reads : ∀ a, form.InRange a → Json.Reads form.ofJson? (form.toJson a) a
  inRange : ∀ json a, form.ofJson? json = some a → form.InRange a

variable {form : JsonForm α}

theorem read?_of_parse? {text : String} {json : Json} (h : Json.parse? text = some json)
    : form.read? text = form.ofJson? json := by
  rw [read?, h]
  rfl

theorem Consistent.read?_compact (h : form.Consistent) {a : α} {json : Json} (ha : form.InRange a)
    (hjson : (form.toJson a).Rearranged json) : form.read? json.compact = some a := by
  rw [read?_of_parse? (Json.parse?_compact (hjson.wellFormed (h.wellFormed a)))]
  exact h.reads a ha json hjson

theorem Consistent.inRange_of_read? (h : form.Consistent) {text : String} {a : α} (hread : form.read? text = some a)
    : form.InRange a := by
  rcases Option.bind_eq_some_iff.mp hread with ⟨json, -, hjson⟩
  exact h.inRange json a hjson

theorem Consistent.faithful (h : form.Consistent) : form.Faithful where
  returns a ha := h.read?_compact ha (.same _)
  rearranged a json ha hjson := by
    refine ⟨h.read?_compact ha hjson, fun text hparse => ?_⟩
    rw [read?_of_parse? hparse]
    exact h.reads a ha json hjson
  inRange _ _ := h.inRange_of_read?
  idempotent text rewritten hrewrite := by
    rcases Option.map_eq_some_iff.mp hrewrite with ⟨a, hread, rfl⟩
    rw [rewrite?, show form.read? (form.write a) = some a from h.read?_compact (h.inRange_of_read? hread) (.same _)]
    rfl

end JsonForm

end BoxRegistry

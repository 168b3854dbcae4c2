import BoxRegistry.Proofs.Registry.Removal
import Mathlib.Data.List.Forall2

namespace BoxRegistry

namespace Registry

def listed (table : List (Spec × Record × Bool)) : List (Slot × Record) :=
  (table.zipIdx.filter fun (row, _) => !row.2.2).map fun (row, slot) => (slot, row.2.1)

theorem listing_eq (r : Registry) : r.listing = listed r.table := by
  simp only [listing, listed, table, List.zipIdx_map, List.filter_map, List.map_map]
  rfl

theorem listed_take_succ {table : List (Spec × Record × Bool)} {slot : Slot} {row : Spec × Record × Bool}
    (h : table[slot]? = some row)
    : listed (table.take (slot + 1)) =
      if row.2.2 then listed (table.take slot) else listed (table.take slot) ++ [(slot, row.2.1)] := by
  have hlt : slot < table.length := (List.getElem?_eq_some_iff.mp h).1
  have hlength : (table.take slot).length = slot := List.length_take_of_le (Nat.le_of_lt hlt)
  unfold listed
  rw [List.take_add_one, h, Option.toList_some, List.zipIdx_append, List.filter_append, List.map_append, hlength]
  cases hremoved : row.2.2 <;> simp [hremoved]

theorem length_specs (r : Registry) : r.specs.length = r.boxes.length := by
  simp [specs]

variable {limits : Limits} {allowed : Registry → Event → Prop} {r : Registry} {slot : Slot}

theorem length_after (h : Reachable limits (fun _ _ => True) r) (es : List Event)
    : r.boxes.length ≤ (r.after es).boxes.length := by
  rw [← length_specs, ← length_specs]
  exact (specs_grow h es).length_le

theorem spec_after (h : Reachable limits (fun _ _ => True) r) {b : Box} (hb : r.boxes[slot]? = some b) (es : List Event)
    : ∃ b', (r.after es).boxes[slot]? = some b' ∧ b'.spec = b.spec := by
  rcases exists_cell? hb with ⟨c, hc, rfl⟩
  rcases cell_after h hc es with ⟨c', hc', hspec⟩
  exact ⟨c'.box, (cell?_eq_some.mp hc').1, hspec⟩

def Shows (r : Registry) (copy : Slot × Record) (s : Snapshot) : Prop :=
  ∃ b usage, r.boxes[copy.1]? = some b ∧ s = .of b.spec copy.2 usage

theorem describe_shows {b : Box} (hb : r.boxes[slot]? = some b) (record : Record) (reading : Option Usage)
    : ∃ usage, (r.describe slot record reading).1 = some (.of b.spec record usage) := by
  unfold describe
  rw [hb]
  dsimp only
  split <;> exact ⟨_, rfl⟩

theorem lt_of_mem_listing {copy : Slot × Record} (h : copy ∈ r.listing) : ∃ b, r.boxes[copy.1]? = some b := by
  rcases List.mem_map.mp h with ⟨⟨b, slot⟩, hb, rfl⟩
  exact ⟨b, List.mem_zipIdx_iff_getElem?.mp (List.mem_of_mem_filter hb)⟩

section Instant

theorem mem_listing {record : Record}
    : (slot, record) ∈ r.listing ↔ ∃ b, r.boxes[slot]? = some b ∧ b.removed = false ∧ b.record = record := by
  simp only [listing, List.mem_map, List.mem_filter, List.mem_zipIdx_iff_getElem?, Prod.exists, Prod.mk.injEq,
    Bool.not_eq_true']
  constructor
  . rintro ⟨b, s, ⟨hb, hlisted⟩, rfl, rfl⟩
    exact ⟨b, hb, hlisted, rfl⟩
  . rintro ⟨b, hb, hlisted, rfl⟩
    exact ⟨b, slot, ⟨hb, hlisted⟩, rfl, rfl⟩

theorem slots_of_listing (r : Registry) : (r.listing.map Prod.fst).Pairwise (· < ·) := by
  have hslots : (r.boxes.zipIdx.map Prod.snd).Pairwise (· < ·) := by
    rw [List.zipIdx_map_snd]
    exact List.pairwise_lt_range' ..
  simp only [listing, List.map_map]
  exact hslots.sublist (List.filter_sublist.map Prod.snd)

def listedIds (r : Registry) : List BoxId :=
  r.registered.map fun b => b.spec.id

theorem ids_of_listing (r : Registry)
    : r.listing.map (fun copy => (r.boxes[copy.1]?).map fun b => b.spec.id) = r.listedIds.map some := by
  have hboxes : (r.boxes.zipIdx.filter fun entry => !entry.1.removed).map Prod.fst = r.registered := by
    have hfst : r.boxes.zipIdx.map Prod.fst = r.boxes := List.zipIdx_map_fst 0 r.boxes
    conv_rhs => rw [registered, ← hfst, List.filter_map]
    rfl
  rw [listedIds, ← hboxes, listing, List.map_map, List.map_map, List.map_map]
  apply List.map_congr_left
  rintro ⟨b, slot⟩ hentry
  have hb : r.boxes[slot]? = some b := List.mem_zipIdx_iff_getElem?.mp (List.mem_of_mem_filter hentry)
  simp [hb]

theorem count_eq (r : Registry) : r.count = r.listing.length := by
  have hlength := congrArg List.length r.ids_of_listing
  simp only [List.length_map, listedIds] at hlength
  exact hlength.symm

theorem ids_of_shows {snapshots : List Snapshot} (h : List.Forall₂ r.Shows r.listing snapshots)
    : snapshots.map Snapshot.id = r.listedIds := by
  apply List.map_injective_iff.mpr (Option.some_injective BoxId)
  rw [← ids_of_listing, List.map_map]
  generalize r.listing = copies at h
  induction h with
  | nil => rfl
  | cons hshows _ ih =>
    rcases hshows with ⟨b, usage, hb, rfl⟩
    simp [hb, ih, Snapshot.of]

theorem ordered_listedIds (h : Reachable limits allowed r) : (r.listedIds.map BoxId.text).Pairwise (· < ·) := by
  have hordered := (indexed_of_reachable h).ordered
  rw [specs, List.pairwise_map] at hordered
  rw [listedIds, registered, List.map_map, List.pairwise_map]
  exact hordered.sublist List.filter_sublist

/--
A listing is complete. It shows the boxes that are registered, each once and as it is, in the order in which they
were created, which is the order of their ids.
-/
structure Complete (r : Registry) : Prop where
  mem : ∀ slot record, (slot, record) ∈ r.listing ↔
    ∃ b, r.boxes[slot]? = some b ∧ b.removed = false ∧ b.record = record
  slots : (r.listing.map Prod.fst).Pairwise (· < ·)
  ids : (r.listedIds.map BoxId.text).Pairwise (· < ·)
  count : r.count = r.listing.length

theorem complete_of_reachable (h : Reachable limits allowed r) : r.Complete where
  mem _ _ := mem_listing
  slots := slots_of_listing r
  ids := ordered_listedIds h
  count := count_eq r

end Instant

section Later

theorem not_listed_of_removed (h : Reachable limits (fun _ _ => True) r) {b : Box} (hb : r.boxes[slot]? = some b)
    (hremoved : b.removed = true) (es : List Event)
    : b.spec.id ∉ (r.after es).listedIds := by
  intro hmem
  rcases exists_cell? hb with ⟨c, hc, rfl⟩
  rcases removed_after h hc hremoved es with ⟨c', hc', hagrees⟩
  have hbox := (cell?_eq_some.mp hc').1
  rcases List.mem_map.mp hmem with ⟨other, hother, hid⟩
  rcases mem_registered.mp hother with ⟨s, hs, hlisted⟩
  have hlater : Reachable limits (fun _ _ => True) (r.after es) := h.after fun _ _ _ => trivial
  have hspec : (r.after es).specs[slot]? = some c'.box.spec := by simp [specs, hbox]
  have hspec' : (r.after es).specs[s]? = some other.spec := by simp [specs, hs]
  have hslot : slot = s := by
    apply (indexed_of_reachable hlater).slot_eq_of_specs hspec hspec'
    rw [hagrees.spec, hid]
  subst hslot
  rw [hs] at hbox
  rw [Option.some.inj hbox, hagrees.removed, hremoved] at hlisted
  cases hlisted

def rows (r : Registry) : List (BoxId × Bool) :=
  r.boxes.map fun b => (b.spec.id, b.removed)

theorem listedIds_eq (r : Registry)
    : r.listedIds = r.rows.filterMap fun row => if row.2 then none else some row.1 := by
  simp only [listedIds, registered, rows, List.filterMap_map]
  rw [← List.filterMap_eq_map, List.filterMap_filter]
  congr 1
  funext b
  cases hremoved : b.removed <;> simp [hremoved]

theorem listedIds_grow (h : Reachable limits (fun _ _ => True) r) (es : List Event)
    (hkept : ∀ (slot : Slot) b, r.boxes[slot]? = some b → b.removed = false →
      ∃ b', (r.after es).boxes[slot]? = some b' ∧ b'.removed = false)
    : r.listedIds <+: (r.after es).listedIds := by
  rw [listedIds_eq, listedIds_eq]
  apply List.IsPrefix.filterMap
  rw [List.prefix_iff_getElem?]
  intro i hi
  have hlt : i < r.boxes.length := by simpa [rows] using hi
  have hb := List.getElem?_eq_getElem hlt
  rcases exists_cell? hb with ⟨c, hc, hbox⟩
  have hlater : ∃ b', (r.after es).boxes[i]? = some b' ∧ b'.spec = r.boxes[i].spec ∧ b'.removed = r.boxes[i].removed := by
    cases hremoved : r.boxes[i].removed with
    | true =>
      rcases removed_after h hc (by rw [hbox, hremoved]) es with ⟨c', hc', hagrees⟩
      exact ⟨c'.box, (cell?_eq_some.mp hc').1, by rw [hagrees.spec, hbox], by rw [hagrees.removed, hbox, hremoved]⟩
    | false =>
      rcases hkept i _ hb hremoved with ⟨b', hb', hlisted⟩
      rcases spec_after h hb es with ⟨b'', hb'', hspec⟩
      rw [hb'] at hb''
      obtain rfl := Option.some.inj hb''
      exact ⟨b', hb', hspec, hlisted⟩
  rcases hlater with ⟨b', hb', hspec, hremoved⟩
  simp [rows, hb', hspec, hremoved]

/--
How a listing compares with a later one. Ids that were taken out do not come back, and if none is taken out in the
meantime the later listing goes on where the earlier one ends.
-/
structure Continues (r r' : Registry) : Prop where
  gone : ∀ (slot : Slot) b, r.boxes[slot]? = some b → b.removed = true → b.spec.id ∉ r'.listedIds
  grows : (∀ (slot : Slot) b, r.boxes[slot]? = some b → b.removed = false →
    ∃ b', r'.boxes[slot]? = some b' ∧ b'.removed = false) → r.listedIds <+: r'.listedIds

theorem continues_after (h : Reachable limits (fun _ _ => True) r) (es : List Event) : r.Continues (r.after es) where
  gone _ _ hb hremoved := not_listed_of_removed h hb hremoved es
  grows hkept := listedIds_grow h es hkept

end Later

end Registry

end BoxRegistry

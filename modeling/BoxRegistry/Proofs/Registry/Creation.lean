import BoxRegistry.Proofs.BoxId.Form
import BoxRegistry.Proofs.Registry.Listing
import BoxRegistry.Proofs.Registry.Refusals
import Mathlib.Data.List.DropRight

namespace BoxRegistry

open Time (Moment)

namespace Text

def trim (text : String) : String :=
  String.ofList ((dropBlanks text.toList).rdropWhile isBlankChar)

theorem isBlank_iff {text : String} : isBlank text = true ↔ trim text = "" := by
  have hempty : trim text = "" ↔ ∀ c ∈ dropBlanks text.toList, isBlankChar c = true := by
    rw [← List.rdropWhile_eq_nil_iff, trim, ← String.toList_inj, String.toList_ofList]
    rfl
  simp only [hempty, isBlank, dropBlanks, List.all_eq_true]
  constructor
  . intro hall c hc
    exact hall c ((List.dropWhile_suffix _).subset hc)
  . intro hrest c hc
    -- A character is among those that are dropped at the front, or it is left there.
    rw [← List.takeWhile_append_dropWhile (p := isBlankChar) (l := text.toList)] at hc
    rcases List.mem_append.mp hc with hfront | hback
    . exact List.mem_takeWhile_imp hfront
    . exact hrest c hback

theorem isBlank_eq_false_iff {text : String} : isBlank text = false ↔ trim text ≠ "" := by
  rw [ne_eq, ← isBlank_iff, Bool.not_eq_true]

end Text

namespace Request

variable {request : Request} {granted : Resources}

structure Proper (request : Request) : Prop where
  image : Text.trim request.image ≠ ""
  name : ∀ name, request.name = some name → Text.trim name ≠ ""
  unlike : ∀ name, request.name = some name → ¬(name.utf8ByteSize = 26 ∧ ∀ c ∈ name.toList, BoxId.IsBase32 c)
  cpus : request.cpus ≠ some 0
  memory : request.memoryMib ≠ some 0

instance : Decidable request.Proper :=
  decidable_of_iff
    (Text.trim request.image ≠ "" ∧ (∀ name ∈ request.name, Text.trim name ≠ "" ∧ ¬BoxId.isValid name) ∧
      request.cpus ≠ some 0 ∧ request.memoryMib ≠ some 0)
    ⟨fun ⟨himage, hname, hcpus, hmemory⟩ =>
        ⟨himage, fun name h => (hname name h).1, fun name h => mt BoxId.isValid_iff.mpr (hname name h).2, hcpus, hmemory⟩,
      fun h =>
        ⟨h.image, fun name hname => ⟨h.name name hname, mt BoxId.isValid_iff.mp (h.unlike name hname)⟩, h.cpus, h.memory⟩⟩

theorem proper_iff : request.Proper ↔ ¬request.Improper := by
  constructor
  . intro hproper himproper
    cases himproper with
    | image blank => exact hproper.image (Text.isBlank_iff.mp blank)
    | name named wrong =>
      rcases wrong with hblank | hvalid
      . exact hproper.name _ named (Text.isBlank_iff.mp hblank)
      . exact hproper.unlike _ named (BoxId.isValid_iff.mp hvalid)
    | cpus none => exact hproper.cpus none
    | memory none => exact hproper.memory none
  . intro himproper
    constructor
    case image => exact fun hblank => himproper (.image (Text.isBlank_iff.mpr hblank))
    case name => exact fun _ hname hblank => himproper (.name hname (.inl (Text.isBlank_iff.mpr hblank)))
    case unlike => exact fun _ hname hform => himproper (.name hname (.inr (BoxId.isValid_iff.mpr hform)))
    case cpus => exact fun hnone => himproper (.cpus hnone)
    case memory => exact fun hnone => himproper (.memory hnone)

theorem checkName_of_proper (h : request.Proper) : checkName request.name = .ok () := by
  cases hname : request.name with
  | none => rfl
  | some name =>
    have hblank : Text.isBlank name = false := Text.isBlank_eq_false_iff.mpr (h.name name hname)
    have hform := mt BoxId.isValid_iff.mp (h.unlike name hname)
    simp [checkName, hblank, hform]

theorem getD_ne_zero {o : Option Nat} (h : o ≠ some 0) {n : Nat} (hn : n ≠ 0) : o.getD n ≠ 0 := by
  cases o with
  | none => exact hn
  | some m =>
    rintro rfl
    exact h rfl

def wanted (request : Request) : Resources :=
  ⟨request.cpus.getD 1, request.memoryMib.getD 512⟩

theorem resolve_eq_ok_iff : request.resolve = .ok granted ↔ request.Proper ∧ granted = request.wanted := by
  constructor
  . intro hresolve
    rcases granted_of_resolve hresolve with ⟨hcpus, hmemory⟩
    refine ⟨proper_iff.mpr (proper_of_resolve hresolve), ?_⟩
    cases granted
    cases hcpus
    cases hmemory
    rfl
  . rintro ⟨hproper, rfl⟩
    have himage := Text.isBlank_eq_false_iff.mpr hproper.image
    have hcpus : request.cpus.getD Resources.default.cpus ≠ 0 := getD_ne_zero hproper.cpus (by decide)
    have hmemory : request.memoryMib.getD Resources.default.memoryMib ≠ 0 := getD_ne_zero hproper.memory (by decide)
    simp only [resolve, himage, checkName_of_proper hproper, hcpus, hmemory, bind, Except.bind, pure, Except.pure]
    rfl

def spec (request : Request) (id : BoxId) (now : Moment) : Spec :=
  { id, name := request.name, image := request.image, cpus := request.cpus.getD 1,
    memoryMib := request.memoryMib.getD 512, args := request.args, env := request.env, createdAt := now }

theorem ofRequest_of_proper (h : request.Proper) (id : BoxId) (now : Moment)
    : Spec.ofRequest id request now = .ok (request.spec id now) := by
  simp only [Spec.ofRequest, resolve_eq_ok_iff.mpr ⟨h, rfl⟩]
  rfl

end Request

namespace Registry

variable {limits : Limits} {r r' : Registry} {request : Request} {now : Moment} {clock chance : Nat}

/--
A registry accepts a request that is proper and whose name none of the registered boxes has.
-/
structure Accepts (r : Registry) (request : Request) : Prop where
  proper : request.Proper
  free : ∀ b ∈ r.registered, ∀ name, request.name = some name → b.spec.name ≠ some name

instance : Decidable (r.Accepts request) :=
  decidable_of_iff
    (request.Proper ∧ ∀ b ∈ r.registered, ∀ name ∈ request.name, b.spec.name ≠ some name)
    ⟨fun ⟨hproper, hfree⟩ => ⟨hproper, hfree⟩, fun h => ⟨h.proper, h.free⟩⟩

/--
A registry is what another one becomes when a box with some spec is created. The box is the last one, and it is found
by its id and by its name, which led nowhere before.
-/
structure Adds (r r' : Registry) (spec : Spec) : Prop where
  boxes : r'.boxes = r.boxes ++ [.new spec]
  listing : r'.listing = r.listing ++ [(r.boxes.length, .new spec.createdAt)]
  latest : ∀ b ∈ r.boxes, b.spec.id.text < spec.id.text
  found : ∀ key, key = spec.id.text ∨ spec.name = some key →
    r.lookup key = .error (.notFound key) ∧ r'.lookup key = .ok r.boxes.length
  others : ∀ key, ¬(key = spec.id.text ∨ spec.name = some key) → r'.lookup key = r.lookup key
  names : ∀ name id, r'.names.lookup name = some id ↔
    r.names.lookup name = some id ∨ spec.name = some name ∧ id = spec.id
  counters : r'.counters = { r.counters with created := r.counters.created + 1 }
  rest : r'.limits = r.limits ∧ r'.tasks = r.tasks ∧ r'.nextTask = r.nextTask

section Accepted

theorem not_accepts_iff
    : ¬r.Accepts request ↔
      request.Improper ∨ ∃ b ∈ r.registered, ∃ name, request.name = some name ∧ b.spec.name = some name := by
  constructor
  . intro haccepts
    by_contra hnone
    rw [not_or] at hnone
    apply haccepts
    constructor
    case proper => exact Request.proper_iff.mpr hnone.1
    case free => exact fun b hb name hname hspec => hnone.2 ⟨b, hb, name, hname, hspec⟩
  . rintro (himproper | ⟨b, hb, name, hname, hspec⟩) haccepts
    . exact Request.proper_iff.mp haccepts.proper himproper
    . exact haccepts.free b hb name hname hspec

theorem isTaken_of_accepts (h : r.Indexed) (haccepts : r.Accepts request) : r.isTaken request.name = false := by
  cases hname : request.name with
  | none => rfl
  | some name =>
    cases hlookup : r.names.lookup name with
    | none => simp [isTaken, hlookup]
    | some id =>
      rcases (lookup_names h).mp hlookup with ⟨slot, spec, ⟨b, hb, hlisted, rfl⟩, -, hspec⟩
      exact absurd hspec (haccepts.free b (mem_registered.mpr ⟨slot, hb, hlisted⟩) name hname)

theorem create_of_accepts (h : r.Indexed) (haccepts : r.Accepts request) {number : Nat} {ids : IdSource}
    (hdraw : r.ids.draw? clock chance = some (number, ids))
    : r.create request now clock chance =
      .ok (.of (request.spec (.ofNumber number) now) (.new now) none, r.add (request.spec (.ofNumber number) now) ids) := by
  simp only [create, Request.resolve_eq_ok_iff.mpr ⟨haccepts.proper, rfl⟩, isTaken_of_accepts h haccepts, hdraw, bind,
    Except.bind]
  rfl

theorem create_exhausted (h : r.Indexed) (haccepts : r.Accepts request) (hdraw : r.ids.draw? clock chance = none)
    : r.create request now clock chance = .error idsExhausted := by
  simp only [create, Request.resolve_eq_ok_iff.mpr ⟨haccepts.proper, rfl⟩, isTaken_of_accepts h haccepts, hdraw, bind,
    Except.bind]
  rfl

end Accepted

section Add

theorem listing_add (r : Registry) (spec : Spec) (ids : IdSource)
    : (r.add spec ids).listing = r.listing ++ [(r.boxes.length, .new spec.createdAt)] := by
  simp [listing, add, List.zipIdx_append, Box.new]

theorem lookup_add (h : r.Indexed) {spec : Spec} {ids : IdSource} (hadd : (r.add spec ids).Indexed) (key : String)
    : (r.add spec ids).lookup key = if spec.answersTo key then .ok r.boxes.length else r.lookup key := by
  split
  . next hfits =>
    exact (lookup_eq_ok_iff hadd).mpr ⟨spec, (lists_add ..).mpr (.inr ⟨rfl, rfl⟩), hfits⟩
  . next hother =>
    cases hlookup : r.lookup key with
    | ok slot =>
      rcases (lookup_eq_ok_iff h).mp hlookup with ⟨spec', hspec', hfits⟩
      exact (lookup_eq_ok_iff hadd).mpr ⟨spec', (lists_add ..).mpr (.inl hspec'), hfits⟩
    | error f =>
      cases hlater : (r.add spec ids).lookup key with
      | error f' => rw [lookup_eq_error hlookup, lookup_eq_error hlater]
      | ok slot =>
        rcases (lookup_eq_ok_iff hadd).mp hlater with ⟨spec', hspec', hfits⟩
        rcases (lists_add ..).mp hspec' with hspec' | ⟨-, rfl⟩
        . rw [(lookup_eq_ok_iff h).mpr ⟨spec', hspec', hfits⟩] at hlookup
          cases hlookup
        . exact absurd hfits hother

theorem lookup_of_added (h : r.Indexed) {spec : Spec} {ids : IdSource} (hadd : (r.add spec ids).Indexed) {key : String}
    (hfits : spec.answersTo key = true)
    : r.lookup key = .error (.notFound key) := by
  cases hlookup : r.lookup key with
  | error f => rw [lookup_eq_error hlookup]
  | ok slot =>
    rcases (lookup_eq_ok_iff h).mp hlookup with ⟨spec', hspec', hfits'⟩
    have hslot := (lookup_eq_ok_iff hadd).mpr ⟨spec', (lists_add ..).mpr (.inl hspec'), hfits'⟩
    rw [lookup_add h hadd, if_pos hfits] at hslot
    rcases hspec' with ⟨b, hb, -⟩
    rw [← Except.ok.inj hslot] at hb
    exact absurd (List.getElem?_eq_some_iff.mp hb).1 (Nat.lt_irrefl _)

theorem adds_of_add (h : r.Indexed) {spec : Spec} {ids : IdSource} (hadd : (r.add spec ids).Indexed)
    : Adds r (r.add spec ids) spec := by
  have hfits : ∀ key, spec.answersTo key = true ↔ key = spec.id.text ∨ spec.name = some key := by
    intro key
    rw [Spec.answersTo, Bool.or_eq_true, decide_eq_true_eq, decide_eq_true_eq, eq_comm]
  constructor
  case boxes => rfl
  case listing => exact listing_add r spec ids
  case latest =>
    intro b hb
    have hordered := hadd.ordered
    rw [specs_add, List.pairwise_append] at hordered
    exact hordered.2.2 b.spec (List.mem_map_of_mem hb) spec List.mem_cons_self
  case found =>
    intro key hkey
    rw [lookup_add h hadd, if_pos ((hfits key).mpr hkey)]
    exact ⟨lookup_of_added h hadd ((hfits key).mpr hkey), rfl⟩
  case others =>
    intro key hkey
    rw [lookup_add h hadd, if_neg (mt (hfits key).mp hkey)]
  case names =>
    intro name id
    simp only [lookup_names h, lookup_names hadd, lists_add]
    constructor
    . rintro ⟨slot, spec', hspec' | ⟨-, rfl⟩, hid, hname⟩
      . exact .inl ⟨slot, spec', hspec', hid, hname⟩
      . exact .inr ⟨hname, hid.symm⟩
    . rintro (⟨slot, spec', hspec', hid, hname⟩ | ⟨hname, hid⟩)
      . exact ⟨slot, spec', .inl hspec', hid, hname⟩
      . exact ⟨_, spec, .inr ⟨rfl, rfl⟩, hid.symm, hname⟩
  case counters => rfl
  case rest => exact ⟨rfl, rfl, rfl⟩

end Add

section Decided

theorem create_isOk_iff (h : r.Indexed) (hdraw : r.ids.draw? clock chance ≠ none)
    : (∃ out, r.create request now clock chance = .ok out) ↔ r.Accepts request := by
  constructor
  . rintro ⟨out, hcreate⟩
    by_contra haccepts
    rcases create_refused h (not_accepts_iff.mp haccepts) now clock chance with ⟨reason, herror⟩
    rw [herror] at hcreate
    cases hcreate
  . intro haccepts
    rcases Option.ne_none_iff_exists'.mp hdraw with ⟨⟨number, ids⟩, hdrawn⟩
    exact ⟨_, create_of_accepts h haccepts hdrawn⟩

theorem step_of_create_error {f : Fault} (h : r.create request now clock chance = .error f)
    : (r.step (.create request now clock chance)).1 = r := by
  simp only [step, h]

theorem step_of_create_ok {snapshot : Snapshot} (h : r.create request now clock chance = .ok (snapshot, r'))
    : (r.step (.create request now clock chance)).1 = r' := by
  simp only [step, h]

theorem created_of_create_ok (h : Reachable limits (fun _ _ => True) r) {snapshot : Snapshot}
    (hcreate : r.create request now clock chance = .ok (snapshot, r'))
    : ∃ id, (∃ number ids, r.ids.draw? clock chance = some (number, ids) ∧ id = .ofNumber number) ∧
      Spec.ofRequest id request now = .ok (request.spec id now) ∧ Adds r r' (request.spec id now) ∧
      snapshot = .of (request.spec id now) (.new now) none := by
  rcases create_eq_ok hcreate with ⟨granted, number, ids, hresolve, -, hdraw, rfl, rfl⟩
  rcases Request.resolve_eq_ok_iff.mp hresolve with ⟨hproper, rfl⟩
  have hadd : Registry.Indexed (r.add (request.spec (.ofNumber number) now) ids) := by
    have hlater := indexed_of_reachable (h.step (e := .create request now clock chance) trivial)
    rw [step_of_create_ok hcreate] at hlater
    exact hlater
  exact ⟨.ofNumber number, ⟨number, ids, hdraw, rfl⟩, Request.ofRequest_of_proper hproper _ _,
    adds_of_add (indexed_of_reachable h) hadd, rfl⟩

/--
The creation of a box is decided by its request and by the names that are taken, and it is all or nothing. If it
succeeds, the table has one more box, which is as the request says, and everything else is as it was. If it fails,
nothing has changed. Whatever happens later comes to the same as if it had not been tried, and a request is accepted
then exactly if it is proper and its name is free at that time, whether or not it is the name of the one that failed.
-/
theorem creation_is_all_or_nothing (h : Reachable limits (fun _ _ => True) r) (request : Request) (now : Moment)
    (clock chance : Nat)
    : let created := (r.step (.create request now clock chance)).1
      (r.ids.draw? clock chance ≠ none →
        ((∃ out, r.create request now clock chance = .ok out) ↔ r.Accepts request)) ∧
      (∀ snapshot r', r.create request now clock chance = .ok (snapshot, r') → r' = created ∧
        ∃ id, (∃ number ids, r.ids.draw? clock chance = some (number, ids) ∧ id = .ofNumber number) ∧
          Spec.ofRequest id request now = .ok (request.spec id now) ∧ Adds r created (request.spec id now) ∧
          snapshot = .of (request.spec id now) (.new now) none ∧ snapshot.status = .created) ∧
      ∀ f, r.create request now clock chance = .error f →
        ((¬r.Accepts request ∧ ∃ reason, f = .invalidSpec reason) ∨ (r.Accepts request ∧ f = idsExhausted)) ∧
        created = r ∧
        ∀ es (request' : Request) now' clock' chance', (r.after es).ids.draw? clock' chance' ≠ none →
          ((∃ out, (created.after es).create request' now' clock' chance' = .ok out) ↔
            (r.after es).Accepts request') := by
  intro created
  have hindexed := indexed_of_reachable h
  refine ⟨create_isOk_iff hindexed, ?_, ?_⟩
  . intro snapshot r' hcreate
    have hstep : created = r' := step_of_create_ok hcreate
    rcases created_of_create_ok h hcreate with ⟨id, hdrawn, hspec, hadds, rfl⟩
    rw [hstep]
    exact ⟨rfl, id, hdrawn, hspec, hadds, rfl, rfl⟩
  . intro f hcreate
    have hstep : created = r := step_of_create_error hcreate
    refine ⟨?_, hstep, ?_⟩
    . by_cases haccepts : r.Accepts request
      . cases hdraw : r.ids.draw? clock chance with
        | none =>
          rw [create_exhausted hindexed haccepts hdraw] at hcreate
          exact .inr ⟨haccepts, (Except.error.inj hcreate).symm⟩
        | some drawn =>
          rw [create_of_accepts hindexed haccepts hdraw] at hcreate
          cases hcreate
      . rcases create_refused hindexed (not_accepts_iff.mp haccepts) now clock chance with ⟨reason, herror⟩
        rw [herror] at hcreate
        exact .inl ⟨haccepts, reason, (Except.error.inj hcreate).symm⟩
    . intro es request' now' clock' chance' hdraw
      rw [hstep]
      have hlater : Reachable limits (fun _ _ => True) (r.after es) := h.after fun _ _ _ => trivial
      exact create_isOk_iff (indexed_of_reachable hlater) hdraw

theorem creation_is_all_or_nothing_nameInUse
    : let r := ({} : Registry).after takeOverName
      (∃ reason, r.create { image := "alpine", name := some "web" } ⟨0, 0⟩ 1 0 = .error (.invalidSpec reason)) ∧
        ∃ snapshot r', r.create { image := "alpine", name := some "db", cpus := some 2 } ⟨0, 0⟩ 1 0 = .ok (snapshot, r') ∧
          snapshot.cpus = 2 ∧ snapshot.memoryMib = 512 ∧ r'.boxes.length = 3 ∧ r'.lookup "db" = .ok 2 ∧
          r'.lookup "web" = .ok 1 := by
  intro r
  have hreachable : Reachable {} (fun _ _ => True) r := Reachable.start.after fun _ _ _ => trivial
  have hdraw : r.ids.draw? 1 0 ≠ none := by decide +kernel
  have hlength : r.boxes.length = 2 := by decide +kernel
  have hweb : r.lookup "web" = .ok 1 := by decide +kernel
  constructor
  . rcases creation_is_all_or_nothing hreachable { image := "alpine", name := some "web" } ⟨0, 0⟩ 1 0 with
      ⟨hiff, -, herror⟩
    have htaken : ¬r.Accepts { image := "alpine", name := some "web" } := by decide +kernel
    cases hcreate : r.create { image := "alpine", name := some "web" } ⟨0, 0⟩ 1 0 with
    | ok out => exact absurd ((hiff hdraw).mp ⟨out, hcreate⟩) htaken
    | error f =>
      rcases (herror f hcreate).1 with ⟨-, reason, rfl⟩ | ⟨haccepts, -⟩
      . exact ⟨reason, rfl⟩
      . exact absurd haccepts htaken
  . rcases creation_is_all_or_nothing hreachable { image := "alpine", name := some "db", cpus := some 2 } ⟨0, 0⟩ 1 0 with
      ⟨hiff, hcreated, -⟩
    have haccepts : r.Accepts { image := "alpine", name := some "db", cpus := some 2 } := by decide +kernel
    rcases (hiff hdraw).mpr haccepts with ⟨⟨snapshot, r'⟩, hcreate⟩
    rcases hcreated snapshot r' hcreate with ⟨rfl, id, -, -, hadds, rfl, -⟩
    refine ⟨_, _, hcreate, rfl, rfl, ?_, ?_, ?_⟩
    . rw [hadds.boxes, List.length_append, hlength]
      rfl
    . rw [(hadds.found "db" (.inr rfl)).2, hlength]
    . by_cases hkey : "web" = id.text ∨ some "db" = some "web"
      . rw [(hadds.found "web" hkey).1] at hweb
        cases hweb
      . rw [hadds.others "web" hkey, hweb]

end Decided

end Registry

end BoxRegistry

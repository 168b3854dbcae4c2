import BoxRegistry.Format.Records
import BoxRegistry.Proofs.Format.Ending
import BoxRegistry.Proofs.Time.Rfc3339

namespace BoxRegistry

open Json (FitsInt32 Reads)

section Scalars

theorem Status.reads (s : Status) : Reads Status.ofJson? s.toJson s := by
  intro other hother
  rw [Json.eq_of_rearranged_string hother]
  cases s <;> decide

theorem BoxId.reads (id : BoxId) : Reads BoxId.ofJson? id.toJson id := by
  intro other hother
  rw [Json.eq_of_rearranged_string hother]
  rfl

theorem Time.Moment.reads {m : Time.Moment} (h : m.Expressible) : Reads Time.Moment.ofJson? m.toJson m := by
  intro other hother
  rw [Json.eq_of_rearranged_string hother, Time.Moment.ofJson?, Json.string?, Option.bind_eq_bind, Option.bind_some]
  exact Time.Rfc3339.parse?_render h

theorem Time.Moment.expressible_of_ofJson? {json : Json} {m : Time.Moment} (h : Time.Moment.ofJson? json = some m)
    : m.Expressible := by
  rcases Option.bind_eq_some_iff.mp h with ⟨text, -, hparse⟩
  exact Time.Rfc3339.expressible_of_parse? hparse

theorem reads_texts (texts : List String) : Reads textsOfJson? (.ofStrings texts) texts :=
  Json.reads_list fun text _ => Json.reads_string text

theorem reads_env (env : List (String × String)) : Reads envOfJson? (envToJson env) env :=
  Json.reads_list fun entry _ => Json.reads_pair entry

theorem reads_name (name : Option String) : Reads (Json.option? Json.string?) (.ofOption .string name) name :=
  Json.reads_option (fun _ => by simp) fun text _ => Json.reads_string text

theorem reads_optionalNat {bits : Nat} {o : Option Nat} (h : ∀ n ∈ o, n < 2 ^ bits)
    : Reads (Json.option? (Json.unsigned? bits)) (.ofOption .ofNat o) o :=
  Json.reads_option (fun _ => by simp [Json.ofNat, Json.ofInt]) fun n hn => Json.reads_unsigned (h n hn)

theorem reads_optionalMoment {o : Option Time.Moment} (h : ∀ m ∈ o, m.Expressible)
    : Reads (Json.option? Time.Moment.ofJson?) (.ofOption Time.Moment.toJson o) o :=
  Json.reads_option (fun _ => by simp [Time.Moment.toJson]) fun m hm => Time.Moment.reads (h m hm)

theorem lt_of_optionalNat {bits : Nat} {json : Json} {o : Option Nat} (h : json.option? (Json.unsigned? bits) = some o)
    : ∀ n ∈ o, n < 2 ^ bits :=
  Json.forall_of_option? (fun _ _ => Json.lt_of_unsigned?) h

theorem expressible_of_optionalMoment {json : Json} {o : Option Time.Moment}
    (h : json.option? Time.Moment.ofJson? = some o) : ∀ m ∈ o, m.Expressible :=
  Json.forall_of_option? (fun _ _ => Time.Moment.expressible_of_ofJson?) h

theorem wellFormed_texts (texts : List String) : (Json.ofStrings texts).WellFormed :=
  Json.wellFormed_array (by simp)

theorem wellFormed_env (env : List (String × String)) : (envToJson env).WellFormed := by
  refine Json.wellFormed_array fun item hitem => ?_
  rcases List.mem_map.mp hitem with ⟨entry, -, rfl⟩
  exact Json.wellFormed_array (by simp)

theorem wellFormed_status (s : Status) : s.toJson.WellFormed := trivial

theorem wellFormed_id (id : BoxId) : id.toJson.WellFormed := trivial

theorem wellFormed_moment (m : Time.Moment) : m.toJson.WellFormed := trivial

end Scalars

namespace ProcessEnd

structure InRange (e : ProcessEnd) : Prop where
  code : ∀ i ∈ e.code, FitsInt32 i
  signal : ∀ i ∈ e.signal, FitsInt32 i

theorem reads {e : ProcessEnd} (h : e.InRange) : Reads ofJson? e.toJson e := by
  intro other hother
  rcases Json.shaped?_two (by decide) .null .null hother with ⟨a, b, hshaped, ha, hb⟩
  simp only [ofJson?, hshaped, Option.bind_eq_bind, Option.bind_some, Ending.reads_optionalInt h.code a ha,
    Ending.reads_optionalInt h.signal b hb, Option.pure_def]

theorem inRange_of_ofJson? {json : Json} {e : ProcessEnd} (h : ofJson? json = some e) : e.InRange := by
  simp only [ofJson?, Option.bind_eq_bind, Option.bind_eq_some_iff] at h
  rcases h with ⟨values, -, h⟩
  split at h
  . simp only [Option.bind_eq_some_iff, Option.pure_def, Option.some.injEq] at h
    rcases h with ⟨code, hcode, signal, hsignal, rfl⟩
    exact ⟨Ending.fitsInt32_of_optionalInt hcode, Ending.fitsInt32_of_optionalInt hsignal⟩
  . cases h

def form : JsonForm ProcessEnd := ⟨toJson, ofJson?, InRange⟩

theorem consistent : form.Consistent where
  wellFormed e := Json.wellFormed_record (by simp [Json.wellFormed_ofOption])
  reads _ := reads
  inRange _ _ := inRange_of_ofJson?

end ProcessEnd

namespace Request

structure InRange (r : Request) : Prop where
  cpus : ∀ n ∈ r.cpus, n < 2 ^ 8
  memoryMib : ∀ n ∈ r.memoryMib, n < 2 ^ 32

theorem reads {r : Request} (h : r.InRange) : Reads ofJson? r.toJson r := by
  intro other hother
  rcases Json.shaped?_rearranged shape rfl (by decide) hother with ⟨values, hshaped, hvalues⟩
  simp only [List.map_cons, List.map_nil, Json.rearrangedItems_cons, Json.rearrangedItems_nil] at hvalues
  rcases hvalues with ⟨image, _, rfl, himage, name, _, rfl, hname, cpus, _, rfl, hcpus, memory, _, rfl, hmemory,
    args, _, rfl, hargs, env, _, rfl, henv, rfl⟩
  simp only [ofJson?, hshaped, List.map_cons, List.map_nil, Option.bind_eq_bind, Option.bind_some, Option.getD_some,
    Json.reads_string _ image himage, reads_name _ name hname, reads_optionalNat h.cpus cpus hcpus,
    reads_optionalNat h.memoryMib memory hmemory, reads_texts _ args hargs, reads_env _ env henv, Option.pure_def]

theorem inRange_of_ofJson? {json : Json} {r : Request} (h : ofJson? json = some r) : r.InRange := by
  simp only [ofJson?, Option.bind_eq_bind, Option.bind_eq_some_iff] at h
  rcases h with ⟨values, -, h⟩
  split at h
  . simp only [Option.bind_eq_some_iff, Option.pure_def, Option.some.injEq] at h
    rcases h with ⟨image, -, name, -, cpus, hcpus, memory, hmemory, args, -, env, -, rfl⟩
    exact ⟨lt_of_optionalNat hcpus, lt_of_optionalNat hmemory⟩
  . cases h

def form : JsonForm Request := ⟨toJson, ofJson?, InRange⟩

theorem consistent : form.Consistent where
  wellFormed r := Json.wellFormed_record (by simp [Json.wellFormed_ofOption, wellFormed_texts, wellFormed_env])
  reads _ := reads
  inRange _ _ := inRange_of_ofJson?

end Request

namespace LaunchOrder

structure InRange (o : LaunchOrder) : Prop where
  cpus : o.cpus < 2 ^ 8
  memoryMib : o.memoryMib < 2 ^ 32

theorem reads {o : LaunchOrder} (h : o.InRange) : Reads ofJson? o.toJson o := by
  intro other hother
  rcases Json.shaped?_rearranged shape rfl (by decide) hother with ⟨values, hshaped, hvalues⟩
  simp only [List.map_cons, List.map_nil, Json.rearrangedItems_cons, Json.rearrangedItems_nil] at hvalues
  rcases hvalues with ⟨id, _, rfl, hid, image, _, rfl, himage, cpus, _, rfl, hcpus, memory, _, rfl, hmemory,
    args, _, rfl, hargs, env, _, rfl, henv, rfl⟩
  simp only [ofJson?, hshaped, List.map_cons, List.map_nil, Option.bind_eq_bind, Option.bind_some,
    BoxId.reads _ id hid, Json.reads_string _ image himage, Json.reads_unsigned h.cpus cpus hcpus,
    Json.reads_unsigned h.memoryMib memory hmemory, reads_texts _ args hargs, reads_env _ env henv, Option.pure_def]

theorem inRange_of_ofJson? {json : Json} {o : LaunchOrder} (h : ofJson? json = some o) : o.InRange := by
  simp only [ofJson?, Option.bind_eq_bind, Option.bind_eq_some_iff] at h
  rcases h with ⟨values, -, h⟩
  split at h
  . simp only [Option.bind_eq_some_iff, Option.pure_def, Option.some.injEq] at h
    rcases h with ⟨id, -, image, -, cpus, hcpus, memory, hmemory, args, -, env, -, rfl⟩
    exact ⟨Json.lt_of_unsigned? hcpus, Json.lt_of_unsigned? hmemory⟩
  . cases h

def form : JsonForm LaunchOrder := ⟨toJson, ofJson?, InRange⟩

theorem consistent : form.Consistent where
  wellFormed o := Json.wellFormed_record (by simp [wellFormed_id, wellFormed_texts, wellFormed_env])
  reads _ := reads
  inRange _ _ := inRange_of_ofJson?

end LaunchOrder

namespace Spec

structure InRange (s : Spec) : Prop where
  cpus : s.cpus < 2 ^ 8
  memoryMib : s.memoryMib < 2 ^ 32
  createdAt : s.createdAt.Expressible

theorem reads {s : Spec} (h : s.InRange) : Reads ofJson? s.toJson s := by
  intro other hother
  rcases Json.shaped?_rearranged shape rfl (by decide) hother with ⟨values, hshaped, hvalues⟩
  simp only [List.map_cons, List.map_nil, Json.rearrangedItems_cons, Json.rearrangedItems_nil] at hvalues
  rcases hvalues with ⟨id, _, rfl, hid, name, _, rfl, hname, image, _, rfl, himage, cpus, _, rfl, hcpus,
    memory, _, rfl, hmemory, args, _, rfl, hargs, env, _, rfl, henv, created, _, rfl, hcreated, rfl⟩
  simp only [ofJson?, hshaped, List.map_cons, List.map_nil, Option.bind_eq_bind, Option.bind_some,
    BoxId.reads _ id hid, reads_name _ name hname, Json.reads_string _ image himage,
    Json.reads_unsigned h.cpus cpus hcpus, Json.reads_unsigned h.memoryMib memory hmemory, reads_texts _ args hargs,
    reads_env _ env henv, Time.Moment.reads h.createdAt created hcreated, Option.pure_def]

theorem inRange_of_ofJson? {json : Json} {s : Spec} (h : ofJson? json = some s) : s.InRange := by
  simp only [ofJson?, Option.bind_eq_bind, Option.bind_eq_some_iff] at h
  rcases h with ⟨values, -, h⟩
  split at h
  . simp only [Option.bind_eq_some_iff, Option.pure_def, Option.some.injEq] at h
    rcases h with ⟨id, -, name, -, image, -, cpus, hcpus, memory, hmemory, args, -, env, -, created, hcreated, rfl⟩
    exact ⟨Json.lt_of_unsigned? hcpus, Json.lt_of_unsigned? hmemory, Time.Moment.expressible_of_ofJson? hcreated⟩
  . cases h

def form : JsonForm Spec := ⟨toJson, ofJson?, InRange⟩

theorem consistent : form.Consistent where
  wellFormed s := Json.wellFormed_record
    (by simp [wellFormed_id, Json.wellFormed_ofOption, wellFormed_texts, wellFormed_env, wellFormed_moment])
  reads _ := reads
  inRange _ _ := inRange_of_ofJson?

end Spec

namespace Record

structure InRange (r : Record) : Prop where
  pid : ∀ n ∈ r.pid, n < 2 ^ 32
  startedAt : ∀ m ∈ r.startedAt, m.Expressible
  endedAt : ∀ m ∈ r.endedAt, m.Expressible
  ending : ∀ e ∈ r.ending, e.InRange
  lastUpdated : r.lastUpdated.Expressible

theorem reads {r : Record} (h : r.InRange) : Reads ofJson? r.toJson r := by
  intro other hother
  have hending : Reads (Json.option? (Ending.ofJsonBelow? 1)) (.ofOption Ending.toJson r.ending) r.ending :=
    Json.reads_option (fun _ => by simp [Ending.toJson, Json.record])
      fun e he => Ending.reads (h.ending e he) (by decide)
  rcases Json.shaped?_rearranged shape rfl (by decide) hother with ⟨values, hshaped, hvalues⟩
  simp only [List.map_cons, List.map_nil, Json.rearrangedItems_cons, Json.rearrangedItems_nil] at hvalues
  rcases hvalues with ⟨status, _, rfl, hstatus, pid, _, rfl, hpid, started, _, rfl, hstarted, ended, _, rfl, hended,
    reason, _, rfl, hreason, updated, _, rfl, hupdated, rfl⟩
  simp only [ofJson?, hshaped, List.map_cons, List.map_nil, Option.bind_eq_bind, Option.bind_some,
    Status.reads _ status hstatus, reads_optionalNat h.pid pid hpid, reads_optionalMoment h.startedAt started hstarted,
    reads_optionalMoment h.endedAt ended hended, hending reason hreason,
    Time.Moment.reads h.lastUpdated updated hupdated, Option.pure_def]

theorem inRange_of_ofJson? {json : Json} {r : Record} (h : ofJson? json = some r) : r.InRange := by
  simp only [ofJson?, Option.bind_eq_bind, Option.bind_eq_some_iff] at h
  rcases h with ⟨values, -, h⟩
  split at h
  . simp only [Option.bind_eq_some_iff, Option.pure_def, Option.some.injEq] at h
    rcases h with ⟨status, -, pid, hpid, started, hstarted, ended, hended, reason, hreason, updated, hupdated, rfl⟩
    exact {
      pid := lt_of_optionalNat hpid
      startedAt := expressible_of_optionalMoment hstarted
      endedAt := expressible_of_optionalMoment hended
      ending := Json.forall_of_option? (fun _ _ => Ending.inRange_of_ofJsonBelow?) hreason
      lastUpdated := Time.Moment.expressible_of_ofJson? hupdated }
  . cases h

def form : JsonForm Record := ⟨toJson, ofJson?, InRange⟩

theorem consistent : form.Consistent where
  wellFormed r := Json.wellFormed_record
    (by simp [wellFormed_status, Json.wellFormed_ofOption, Ending.wellFormed_toJson, wellFormed_moment])
  reads _ := reads
  inRange _ _ := inRange_of_ofJson?

end Record

/--
Whatever is recorded about boxes survives being written and being read.
-/
theorem records_round_trip
    : Request.form.Faithful ∧ Spec.form.Faithful ∧ Record.form.Faithful ∧ Ending.form.Faithful
        ∧ ProcessEnd.form.Faithful ∧ LaunchOrder.form.Faithful :=
  ⟨Request.consistent.faithful, Spec.consistent.faithful, Record.consistent.faithful, Ending.consistent.faithful,
    ProcessEnd.consistent.faithful, LaunchOrder.consistent.faithful⟩

end BoxRegistry

import BoxRegistry.Proofs.Registry.Event
import BoxRegistry.Simulation.Caller

namespace BoxRegistry

namespace Registry

def Event.Calm : Event → Prop
  | create .. => False
  | begin _ op => ∃ grace, op = .stop grace
  | turn .. | reply .. | describe .. => True

theorem lt_of_slotOf? {r : Registry} {id : String} {slot : Slot} (h : r.slotOf? id = some slot)
    : slot < r.boxes.length := by
  rw [slotOf?, List.findIdx?_eq_some_iff_getElem] at h
  exact h.1

theorem lt_of_lookup {r : Registry} {key : String} {slot : Slot} (h : r.lookup key = .ok slot)
    : slot < r.boxes.length := by
  unfold lookup at h
  cases hid : r.slotOf? key with
  | some slot' =>
    rw [hid] at h
    obtain rfl : slot' = slot := Except.ok.inj h
    exact lt_of_slotOf? hid
  | none =>
    rw [hid] at h
    cases hname : r.slotNamed? key with
    | none =>
      rw [hname] at h
      cases h
    | some slot' =>
      rw [hname] at h
      obtain rfl : slot' = slot := Except.ok.inj h
      simp only [slotNamed?, bind, Option.bind_eq_some_iff] at hname
      rcases hname with ⟨id, -, slot'', hslot, b, -, hif⟩
      split at hif
      . cases hif
        exact lt_of_slotOf? hslot
      . cases hif

end Registry

namespace Simulation

def Waiting.isTurn : Waiting → Bool
  | .shutdown | .closing _ => true
  | _ => false

namespace World

variable {β ε : Type} {w w' w'' : World β ε}

/--
What becomes of a world whose registry is informed of events that are about no task, and only of calm ones once the
service is closed. Samples may have been taken for that.
-/
def Informed (w w' : World β ε) : Prop :=
  ∃ es sampler, w' = { w with service := { w.service with registry := w.service.registry.after es }, sampler } ∧
    ∀ e ∈ es, e.task? = none ∧ (w.service.closed = true → e.Calm)

section Informed

theorem Informed.refl (w : World β ε) : Informed w w := ⟨[], w.sampler, rfl, by simp⟩

theorem Informed.trans (h : Informed w w') (h' : Informed w' w'') : Informed w w'' := by
  rcases h with ⟨es, sampler, rfl, hes⟩
  rcases h' with ⟨es', sampler', rfl, hes'⟩
  refine ⟨es ++ es', sampler', by rw [Registry.after_append], ?_⟩
  intro e he
  rcases List.mem_append.mp he with hmem | hmem
  . exact hes e hmem
  . exact hes' e hmem

theorem informed_describe (w : World β ε) (slot : Slot) (record : Record) (reading : Option Usage)
    : Informed w { w with service := { w.service with
        registry := (w.service.registry.describe slot record reading).2 } } :=
  ⟨[.describe slot record reading], w.sampler, rfl, by simp [Registry.Event.task?, Registry.Event.Calm]⟩

theorem informed_expose (w : World β ε) (slot : Slot) (record : Record) : Informed w (w.expose slot record).1 := by
  unfold expose
  split
  . exact informed_describe w slot record none
  . exact ⟨[], _, rfl, by simp⟩

theorem informed_exposeAll (w : World β ε) (entries : List (Slot × Record)) : Informed w (w.exposeAll entries).1 := by
  induction entries generalizing w with
  | nil => exact .refl w
  | cons entry entries ih => exact (informed_expose w entry.1 entry.2).trans (ih _)

theorem informed_develop (w : World β ε) (e : Exposure) : Informed w (w.develop e).1 := by
  unfold develop
  split
  . exact informed_describe w e.slot e.record e.reading
  . exact .refl w

theorem informed_developAll (w : World β ε) (es : List Exposure) : Informed w (w.developAll es).1 := by
  induction es generalizing w with
  | nil => exact .refl w
  | cons e es ih => exact (informed_develop w e).trans (ih _)

theorem informed_create (w : World β ε) (request : Request) : Informed w (w.create request).1 := by
  unfold create Service.create Service.gate
  cases hclosed : w.service.closed with
  | true => exact .refl w
  | false =>
    simp only [Bool.false_eq_true, if_false, bind, Except.bind, pure, Except.pure]
    cases hcreate : w.service.registry.create request w.now (idClock w.service.registry.boxes.length) idChance with
    | error f => exact .refl w
    | ok out =>
      refine ⟨[.create request w.now (idClock w.service.registry.boxes.length) idChance], w.sampler, ?_, ?_⟩
      . simp [Registry.step, hcreate, hclosed]
      . simp [Registry.Event.task?, hclosed]

end Informed

def Inquires (w : World β ε) (out : World β ε × Waiting) : Prop :=
  Informed w out.1 ∧ out.2.isTurn = false

section Inquires

theorem isTurn_judge (w : World β ε) (key : String) (status : Status) (deadline : Nat) (s : Snapshot)
    : (w.judge key status deadline s).isTurn = false := by
  unfold judge
  split
  . rfl
  . split <;> rfl

theorem inquires_look (w : World β ε) (key : String) (status : Status) (deadline : Nat)
    : Inquires w (w.look key status deadline) := by
  unfold look
  split
  . exact ⟨.refl w, rfl⟩
  . next slot record _ =>
    dsimp only
    split
    . exact ⟨informed_expose w slot record, isTurn_judge _ key status deadline _⟩
    . exact ⟨informed_expose w slot record, rfl⟩

end Inquires

variable [Engine β ε]

inductive Begins (w : World β ε) (id : CallerId) : Wish → World β ε × Waiting → Prop where
  | asks {wish : Wish} {out : World β ε × Waiting} (inquires : Inquires w out) : Begins w id wish out
  | operates {key : Key} {op : Operation} (slot : Slot) (opened : w.service.closed = false) :
    Begins w id (.operate key op)
      (w.update ({ w.service with registry := w.service.registry.after [.begin slot op] },
        (w.service.registry.begin slot op).2.2), .operation (w.service.registry.begin slot op).1)
  | stopsAll {grace : Time.Span} (waiting : Waiting) (aside : waiting.isTurn = false) :
    Begins w id (.stopAll grace)
      (w.update ({ w.service with registry := (Service.stopAll w.service.registry grace).2.1 },
        (Service.stopAll w.service.registry grace).2.2), waiting)
  | shutsDown (grace : Time.Span) : Begins w id (.shutdown grace) (w.takeTurn id (w.service.shutdown id grace))

inductive Resumes (w : World β ε) (id : CallerId) : Waiting → World β ε × Waiting → Prop where
  | asks {waiting : Waiting} {out : World β ε × Waiting} (inquires : Inquires w out) : Resumes w id waiting out
  | turns : Resumes w id .shutdown (w.takeTurn id (w.service.turn id))
  | closes (pending : Pending) : Resumes w id (.closing pending) (w.advance id (.closing pending))

theorem begins_operate (w : World β ε) (id : CallerId) (key : Key) (op : Operation)
    : Begins w id (.operate key op) (w.operate (key.resolve w.service.registry) op) := by
  cases hclosed : w.service.closed with
  | true =>
    have hgate : w.service.gate = .error Service.isClosed := by simp [Service.gate, hclosed]
    simp only [operate, Service.begin, hgate, bind, Except.bind]
    exact .asks ⟨.refl w, rfl⟩
  | false =>
    have hgate : w.service.gate = .ok () := by simp [Service.gate, hclosed]
    simp only [operate, Service.begin, hgate, bind, Except.bind, pure, Except.pure]
    cases hlookup : w.service.registry.lookup (key.resolve w.service.registry) with
    | error f => exact .asks ⟨.refl w, rfl⟩
    | ok slot =>
      have hstep : w.service.registry.after [.begin slot op] = (w.service.registry.begin slot op).2.1 := by
        simp [Registry.step, Registry.lt_of_lookup hlookup]
      have hbegins : Begins w id (.operate key op) _ := .operates slot hclosed
      rwa [hstep] at hbegins

theorem begins (w : World β ε) (id : CallerId) (wish : Wish) : Begins w id wish (w.beginWish id wish) := by
  have hrefl (outcome : Outcome) : Inquires w (w, .finished outcome w.clock) := ⟨.refl w, rfl⟩
  cases wish with
  | create request name => exact .asks ⟨informed_create w _, rfl⟩
  | operate key op => exact begins_operate w id key op
  | «exists» key =>
    simp only [beginWish]
    split <;> exact .asks (hrefl _)
  | get key =>
    simp only [beginWish]
    split
    . exact .asks (hrefl _)
    . next slot record _ => split <;> exact .asks ⟨informed_expose w slot record, rfl⟩
  | list =>
    simp only [beginWish]
    split
    . exact .asks (hrefl _)
    . next entries _ => split <;> exact .asks ⟨informed_exposeAll w entries, rfl⟩
  | shutdown grace => exact .shutsDown grace
  | isShutdown => exact .asks (hrefl _)
  | stopAll grace =>
    simp only [beginWish]
    split <;> exact .stopsAll _ rfl
  | count => exact .asks (hrefl _)
  | seek key status span => exact .asks (inquires_look w _ status _)
  | rest span =>
    simp only [beginWish]
    split <;> exact .asks ⟨.refl w, rfl⟩

theorem resumes (w : World β ε) (id : CallerId) (waiting : Waiting)
    : Resumes w id waiting (w.advance id waiting) := by
  cases waiting with
  | operation task =>
    simp only [advance]
    split <;> exact .asks ⟨.refl w, rfl⟩
  | tasks tasks =>
    simp only [advance]
    split <;> exact .asks ⟨.refl w, rfl⟩
  | shutdown => exact .turns
  | closing pending => exact .closes pending
  | snapshot e =>
    simp only [advance]
    split <;> exact .asks ⟨informed_develop w e, rfl⟩
  | snapshots es =>
    simp only [advance]
    split <;> exact .asks ⟨informed_developAll w es, rfl⟩
  | seeking key status deadline e =>
    simp only [advance]
    split
    . exact .asks ⟨informed_develop w e, isTurn_judge _ key status deadline _⟩
    . exact .asks ⟨informed_develop w e, rfl⟩
  | resting key status deadline due =>
    simp only [advance]
    split
    . exact .asks (inquires_look w key status deadline)
    . exact .asks ⟨.refl w, rfl⟩
  | time due =>
    simp only [advance]
    split <;> exact .asks ⟨.refl w, rfl⟩
  | finished outcome clock => exact .asks ⟨.refl w, rfl⟩

end World

end Simulation

end BoxRegistry

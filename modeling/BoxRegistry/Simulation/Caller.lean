import BoxRegistry.Simulation.World

/-!
This module contains the callers of a service in a world of its own. All callers of one step begin at
the same instant, in their order, and are then looked at whenever nothing else is left to do. A caller
may give up after some time; what it has begun goes on without it.
-/

namespace BoxRegistry.Simulation

inductive KeyForm where
  | full
  | short
  | lower
  | cut
  | padded
deriving DecidableEq, Repr, Inhabited

inductive Key where
  | text (text : String)
  | ofBox (slot : Slot) (form : KeyForm)
deriving DecidableEq, Repr, Inhabited

namespace KeyForm

def write (form : KeyForm) (id : BoxId) : String :=
  match form with
  | full => id.text
  | short => id.short?.getD id.text
  | lower => String.ofList (id.text.toList.map Char.toLower)
  | cut => String.ofList id.text.toList.dropLast
  | padded => id.text ++ " "

def named : List (String × KeyForm) :=
  [("short", short), ("lower", lower), ("cut", cut), ("pad", padded)]

def suffix (form : KeyForm) : String :=
  match named.find? fun entry => entry.2 = form with
  | some (name, _) => ":" ++ name
  | none => ""

end KeyForm

namespace Key

def placeholder (slot : Slot) (form : KeyForm) : String :=
  "<b" ++ toString slot ++ form.suffix ++ ">"

def resolve (r : Registry) : Key → String
  | text key => key
  | ofBox slot form =>
    match r.boxes[slot]? with
    | some b => form.write b.spec.id
    | none => placeholder slot form

end Key

inductive Wish where
  -- Create a box, with a name that is given as a key if there is one.
  | create (request : Request) (name : Option Key)
  | operate (key : Key) (op : Operation)
  | exists (key : Key)
  | get (key : Key)
  | list
  | shutdown (grace : Time.Span)
  | isShutdown
  | stopAll (grace : Time.Span)
  | count
  -- Get a box again and again until it has a status or a time is over.
  | seek (key : Key) (status : Status) (span : Time.Span)
  | rest (span : Nat)
deriving Inhabited

inductive Outcome where
  | done
  | fault (fault : Fault)
  | cancelled
  | flag (value : Bool)
  | number (value : Nat)
  -- A box was created; whether its id has the form of one and is above all before.
  | created (snapshot : Snapshot) (increasing : Bool)
  | snapshot (snapshot : Snapshot)
  | snapshots (snapshots : List Snapshot)
  -- The caller broke off, with a message if it is its own.
  | panicked (message : String)
deriving Inhabited

namespace Outcome

def ofUnit : Except Fault Unit → Outcome
  | .ok _ => done
  | .error f => fault f

end Outcome

structure Exposure where
  slot : Slot
  record : Record
  reading : Option Usage
  due : Nat
  sampling : Bool
  result : Option Snapshot := none
deriving Inhabited

inductive Waiting where
  | operation (task : TaskId)
  | tasks (tasks : List TaskId)
  | shutdown
  | closing (pending : Pending)
  | snapshot (exposure : Exposure)
  | snapshots (exposures : List Exposure)
  -- One snapshot of a box that is to have a status before a deadline.
  | seeking (key : String) (status : Status) (deadline : Nat) (exposure : Exposure)
  | resting (key : String) (status : Status) (deadline : Nat) (due : Nat)
  | time (due : Nat)
  | finished (outcome : Outcome) (clock : Nat)
deriving Inhabited

def Waiting.readings : Waiting → List Nat
  | .snapshot e | .seeking _ _ _ e => [e.due]
  | .snapshots es => (es.filter fun e => e.result.isNone).map Exposure.due
  | _ => []

structure Caller where
  id : CallerId
  began : Nat
  patience : Option Nat
  waiting : Waiting
deriving Inhabited

namespace Caller

def outcome? (c : Caller) : Option (Outcome × Nat) :=
  match c.waiting with
  | .finished outcome clock => some (outcome, clock - c.began)
  | _ => none

def dues (c : Caller) : List Nat :=
  match c.waiting with
  | .finished .. => []
  | waiting =>
    let own :=
      match waiting with
      | .closing pending => pending.due?.toList
      | .resting _ _ _ due | .time due => [due]
      | waiting => waiting.readings
    own ++ c.patience.toList

end Caller

namespace World

variable {β ε : Type} [Engine β ε]

def expose (w : World β ε) (slot : Slot) (record : Record) : World β ε × Exposure :=
  match Box.sampledPid? record with
  | none =>
    let (snapshot, registry) := w.service.registry.describe slot record none
    ({ w with service := { w.service with registry } },
      { slot, record, reading := none, due := w.clock, sampling := false, result := snapshot })
  | some pid =>
    let limit := w.service.registry.limits.sample.ticks
    let (sampler, span, reading) := w.sampler.sample limit pid
    ({ w with sampler }, { slot, record, reading, due := w.clock + span, sampling := true })

def exposeAll (w : World β ε) : List (Slot × Record) → World β ε × List Exposure
  | [] => (w, [])
  | (slot, record) :: rest =>
    let (w, e) := w.expose slot record
    let (w, es) := exposeAll w rest
    (w, e :: es)

def develop (w : World β ε) (e : Exposure) : World β ε × Exposure :=
  if e.result.isNone ∧ e.due ≤ w.clock then
    let (result, registry) := w.service.registry.describe e.slot e.record e.reading
    ({ w with service := { w.service with registry } }, { e with result })
  else (w, e)

def developAll (w : World β ε) : List Exposure → World β ε × List Exposure
  | [] => (w, [])
  | e :: es =>
    let (w, e) := w.develop e
    let (w, es) := developAll w es
    (w, e :: es)

def seekInterval : Nat := 10

def judge (w : World β ε) (key : String) (status : Status) (deadline : Nat) (s : Snapshot) : Waiting :=
  if s.status = status then .finished (.snapshot s) w.clock
  else if deadline ≤ w.clock then
    .finished (.panicked ("box " ++ key ++ " stuck in " ++ s.status.name ++ " while waiting for " ++
      status.name)) w.clock
  else .resting key status deadline (w.clock + seekInterval)

def look (w : World β ε) (key : String) (status : Status) (deadline : Nat) : World β ε × Waiting :=
  match w.service.get key with
  | .error f => (w, .finished (.panicked ("box should exist: " ++ f.inspect)) w.clock)
  | .ok (slot, record) =>
    let (w, e) := w.expose slot record
    match e.result with
    | some s => (w, w.judge key status deadline s)
    | none => (w, .seeking key status deadline e)

def takeTurn (w : World β ε) (id : CallerId) (change : Service × Turn × List Effect) :
    World β ε × Waiting :=
  let (service, turn, effects) := change
  let w := w.update (service, effects)
  match turn with
  | .wait => (w, .shutdown)
  | .done => (w, .finished .done w.clock)
  | .close =>
    let (backend, pending) := Engine.begin w.backend w.clock .shutdown
    let (backend, pending) := Engine.poll backend w.clock pending
    let w := { w with backend }
    match pending with
    | .replied (.panicked _) =>
      ({ w with service := w.service.abandon id }, .finished (.panicked "") w.clock)
    | .replied _ => ({ w with service := w.service.backendClosed }, .finished .done w.clock)
    | pending => (w, .closing pending)

def operate (w : World β ε) (key : String) (op : Operation) : World β ε × Waiting :=
  match w.service.begin key op with
  | .error f => (w, .finished (.fault f) w.clock)
  | .ok (task, change) => (w.update change, .operation task)

/--
The reading of the clock from which the id of a box is drawn, by the number of boxes before it. It is
far above the reading for the box before, so that the short forms of all ids differ.
-/
def idClock (count : Nat) : Nat :=
  1767225600000 + count * 2048

def idChance : Nat := 0xAAAAAAAAAAAAAAAAAAAA

def create (w : World β ε) (request : Request) : World β ε × Outcome :=
  let count := w.service.registry.boxes.length
  match w.service.create request w.now (idClock count) idChance with
  | .error f => (w, .fault f)
  | .ok (s, service) =>
    let increasing := BoxId.isValid s.id.text &&
      w.service.registry.boxes.all fun b => b.spec.id.text < s.id.text
    ({ w with service }, .created s increasing)

def beginWish (w : World β ε) (id : CallerId) : Wish → World β ε × Waiting
  | .create request name =>
    let name := (name.map fun key => key.resolve w.service.registry) <|> request.name
    let (w, outcome) := w.create { request with name }
    (w, .finished outcome w.clock)
  | .operate key op => w.operate (key.resolve w.service.registry) op
  | .exists key =>
    match w.service.exists? (key.resolve w.service.registry) with
    | .error f => (w, .finished (.fault f) w.clock)
    | .ok found => (w, .finished (.flag found) w.clock)
  | .get key =>
    match w.service.get (key.resolve w.service.registry) with
    | .error f => (w, .finished (.fault f) w.clock)
    | .ok (slot, record) =>
      let (w, e) := w.expose slot record
      match e.result with
      | some s => (w, .finished (.snapshot s) w.clock)
      | none => (w, .snapshot e)
  | .list =>
    match w.service.list with
    | .error f => (w, .finished (.fault f) w.clock)
    | .ok entries =>
      let (w, es) := w.exposeAll entries
      if es.all fun e => e.result.isSome then
        (w, .finished (.snapshots (es.filterMap Exposure.result)) w.clock)
      else (w, .snapshots es)
  | .shutdown grace => w.takeTurn id (w.service.shutdown id grace)
  | .isShutdown => (w, .finished (.flag w.service.closed) w.clock)
  | .stopAll grace =>
    let (tasks, registry, effects) := Service.stopAll w.service.registry grace
    let w := w.update ({ w.service with registry }, effects)
    if tasks.isEmpty then (w, .finished .done w.clock) else (w, .tasks tasks)
  | .count => (w, .finished (.number w.service.registry.count) w.clock)
  | .seek key status span =>
    w.look (key.resolve w.service.registry) status (w.clock + span.ticks)
  | .rest span => if span = 0 then (w, .finished .done w.clock) else (w, .time (w.clock + span))

def advance (w : World β ε) (id : CallerId) : Waiting → World β ε × Waiting
  | .operation task =>
    match w.results.lookup task with
    | some result => (w, .finished (.ofUnit result) w.clock)
    | none => (w, .operation task)
  | .tasks tasks =>
    if tasks.all fun task => (w.results.lookup task).isSome then (w, .finished .done w.clock)
    else (w, .tasks tasks)
  | .shutdown => w.takeTurn id (w.service.turn id)
  | .closing pending =>
    let (backend, pending) := Engine.poll w.backend w.clock pending
    let w := { w with backend }
    match pending with
    | .replied (.panicked _) =>
      ({ w with service := w.service.abandon id }, .finished (.panicked "") w.clock)
    | .replied _ => ({ w with service := w.service.backendClosed }, .finished .done w.clock)
    | pending => (w, .closing pending)
  | .snapshot e =>
    let (w, e) := w.develop e
    match e.result with
    | some s => (w, .finished (.snapshot s) w.clock)
    | none => (w, .snapshot e)
  | .snapshots es =>
    let (w, es) := w.developAll es
    if es.all fun e => e.result.isSome then
      (w, .finished (.snapshots (es.filterMap Exposure.result)) w.clock)
    else (w, .snapshots es)
  | .seeking key status deadline e =>
    let (w, e) := w.develop e
    match e.result with
    | some s => (w, w.judge key status deadline s)
    | none => (w, .seeking key status deadline e)
  | .resting key status deadline due =>
    if due ≤ w.clock then w.look key status deadline
    else (w, .resting key status deadline due)
  | .time due => if due ≤ w.clock then (w, .finished .done w.clock) else (w, .time due)
  | .finished outcome clock => (w, .finished outcome clock)

def giveUp (w : World β ε) (c : Caller) : World β ε × Caller :=
  if c.outcome?.isNone ∧ (c.patience.any fun due => due ≤ w.clock) then
    ({ w with service := w.service.abandon c.id },
      { c with waiting := .finished .cancelled w.clock })
  else (w, c)

def receive (w : World β ε) (id : CallerId) (wish : Wish) (patience : Option Nat) : World β ε × Caller :=
  let (w', waiting) := w.beginWish id wish
  w'.giveUp { id, began := w.clock, patience := patience.map (w.clock + ·), waiting }

def visit (w : World β ε) (c : Caller) : World β ε × Caller :=
  let (w, waiting) := w.advance c.id c.waiting
  w.giveUp { c with waiting }

def visitAll (w : World β ε) : List Caller → World β ε × List Caller
  | [] => (w, [])
  | c :: cs =>
    let (w, c) := w.visit c
    let (w, cs) := visitAll w cs
    (w, c :: cs)

def receiveAll (w : World β ε) (id : CallerId) : List (Wish × Option Nat) → World β ε × List Caller
  | [] => (w, [])
  | (wish, patience) :: wishes =>
    let (w, c) := w.receive id wish patience
    let (w, cs) := receiveAll w (id + 1) wishes
    (w, c :: cs)

def busy (cs : List Caller) : Nat :=
  cs.countP fun c => c.outcome?.isNone

/--
The time to which the clock moves on. While a process is sampled it does not move of itself, so whatever falls due
meanwhile happens when the sample is there or is given up.
-/
def next? (w : World β ε) (cs : List Caller) : Option Nat :=
  let later (dues : List Nat) := (dues.filter fun due => w.clock < due).min?
  later (cs.flatMap fun c => c.waiting.readings) <|> later (w.dues ++ cs.flatMap Caller.dues)

/--
Go on until all callers are done: do what can be done, look at the callers, and once neither brings
anything about let the clock move on. A caller whose time has come is looked at before all else that has
fallen due.
-/
def goOn (jobs : Nat) : Nat → World β ε → List Caller → World β ε × List Caller
  | 0, w, cs => (w, cs)
  | fuel + 1, w, cs =>
    let w := w.settle jobs
    let (w, after) := w.visitAll cs
    if busy after = 0 then (w, after)
    else if busy after < busy cs ∨ !w.ready.isEmpty then goOn jobs fuel w after
    else
      match w.next? after with
      | none => (w, after)
      | some clock =>
        let w := w.moveTo clock
        let (w, after) := w.visitAll after
        goOn jobs fuel w after

def endurance : Nat := 1000000

/--
One step of a world: all callers with a wish begin at one instant of the calendar, each with the time
after which it gives up if there is one. The outcomes come with the milliseconds that they took.
-/
def step (w : World β ε) (now : Time.Moment) (wishes : List (Wish × Option Nat)) :
    World β ε × List (Outcome × Nat) :=
  let (w, callers) := { w with now }.receiveAll 0 wishes
  let (w, callers) := w.goOn endurance endurance callers
  (w.settle endurance, callers.map fun c => c.outcome?.getD (.cancelled, 0))

def tamper (w : World β ε) (now : Time.Moment) (change : World β ε → World β ε) : World β ε :=
  (change { w with now }).settle endurance

def awaitTest (test : World β ε → Bool) : Nat → World β ε → World β ε × Bool
  | 0, w => (w, test w)
  | fuel + 1, w =>
    let w := w.settle endurance
    if test w then (w, true)
    else
      match (w.dues.filter fun due => w.clock < due).min? with
      | none => (w, false)
      | some clock => awaitTest test fuel (w.moveTo clock)

end World

end BoxRegistry.Simulation

import BoxRegistry.Proofs.Registry.Calls

namespace BoxRegistry

open Time (Moment Span)

structure Heard where
  call : Call
  bound : Bound
  reply : Reply
deriving DecidableEq

namespace Heard

def Obeyed (pid : Pid) (grace : Span) (heard : List Heard) : Prop :=
  ⟨.terminate pid false, .within grace, .done⟩ ∈ heard ∧ ∃ how, ⟨.wait pid, .remaining, .ended how⟩ ∈ heard

def Reported (pid : Pid) (heard : List Heard) (how : ProcessEnd) : Prop :=
  ∃ bound, ⟨.wait pid, bound, .ended how⟩ ∈ heard

def Rejected (pid : Pid) (heard : List Heard) (f : Fault) : Prop :=
  ⟨.terminate pid true, .unlimited, .failed f⟩ ∈ heard

/--
What a stop says of the end of a process is what it has heard of it: the process was forced to end if it was killed
since it had not ended in time.
-/
structure Truthful (pid : Pid) (grace : Span) (heard : List Heard) (forced : Bool) (code : Option Int) : Prop where
  obeyed : forced = false ↔ Obeyed pid grace heard
  killed : forced = true → ∃ reply, ⟨.terminate pid true, .unlimited, reply⟩ ∈ heard
  reported : ∀ how, Reported pid heard how → code = how.code
  unreported : (∀ how, ¬Reported pid heard how) → code = none

structure Unheeded (pid : Pid) (heard : List Heard) : Prop where
  unreported : ∀ how, ¬Reported pid heard how
  unrejected : ∀ f, ¬Rejected pid heard f

inductive UpTo (pid : Pid) (grace : Span) : List Heard → Stage → Prop where
  | easing : UpTo pid grace [] (.easing pid (some grace))
  | asking {heard : List Heard} (unheeded : Unheeded pid heard) (length : heard.length ≤ 1) :
    UpTo pid grace heard (.asking pid grace)
  | parting {heard : List Heard} (accepted : ⟨.terminate pid false, .within grace, .done⟩ ∈ heard)
    (unheeded : Unheeded pid heard) (length : heard.length ≤ 2) : UpTo pid grace heard (.parting pid)
  | killing {heard : List Heard} {reply : Reply} (asked : ⟨.terminate pid false, .within grace, reply⟩ ∈ heard)
    (unheeded : Unheeded pid heard) (length : heard.length ≤ 3) : UpTo pid grace heard (.killing pid)
  | confirming {heard : List Heard} {reply : Reply} (killed : ⟨.terminate pid true, .unlimited, reply⟩ ∈ heard)
    (unheeded : Unheeded pid heard) (length : heard.length ≤ 4) : UpTo pid grace heard (.confirming pid)

variable {pid : Pid} {grace : Span} {heard : List Heard} {stage : Stage}

theorem unheeded_nil (pid : Pid) : Unheeded pid [] where
  unreported how h := by simp [Reported] at h
  unrejected f h := by simp [Rejected] at h

theorem UpTo.length_lt (h : UpTo pid grace heard stage) : heard.length < 5 := by
  cases h with
  | easing => decide
  | asking unheeded length => omega
  | parting accepted unheeded length => omega
  | killing asked unheeded length => omega
  | confirming killed unheeded length => omega

theorem UpTo.runs (h : UpTo pid grace heard stage) {op : Operation} {b : Box} (hfits : stage.Fits op b)
    : b.Runs pid := by
  cases h with
  | easing => exact hfits.2.1
  | asking unheeded length => exact hfits.2.1
  | parting accepted unheeded length => exact hfits.2.1
  | killing asked unheeded length => exact hfits.2.1
  | confirming killed unheeded length => exact hfits.2.1

theorem UpTo.call_of_unlimited (h : UpTo pid grace heard stage) {limits : Limits}
    (hbound : stage.bound limits = .unlimited) (spec : Spec)
    : stage.call spec = .resume pid ∨ stage.call spec = .terminate pid true := by
  cases h with
  | easing => exact .inl rfl
  | killing asked unheeded length => exact .inr rfl
  | _ => cases hbound

theorem UpTo.asking_of_resumed {reply : Reply} (h : UpTo pid grace [⟨.resume pid, .unlimited, reply⟩] stage)
    : stage = .asking pid grace := by
  cases h with
  | asking unheeded length => rfl
  | parting accepted unheeded length => simp at accepted
  | killing asked unheeded length => simp at asked
  | confirming killed unheeded length => simp at killed

namespace Unheeded

theorem concat (h : Unheeded pid heard) {x : Heard} (hended : ∀ how, x.call = .wait pid → x.reply ≠ .ended how)
    (hrejected : ∀ f, x.call = .terminate pid true → x.reply ≠ .failed f)
    : Unheeded pid (heard ++ [x]) where
  unreported how := by
    rintro ⟨bound, hmem⟩
    rcases List.mem_append.mp hmem with hmem | hmem
    . exact h.unreported how ⟨bound, hmem⟩
    . obtain rfl := List.mem_singleton.mp hmem
      exact hended how rfl rfl
  unrejected f hmem := by
    rcases List.mem_append.mp hmem with hmem | hmem
    . exact h.unrejected f hmem
    . obtain rfl := List.mem_singleton.mp hmem
      exact hrejected f rfl rfl

theorem eq_of_reported (h : Unheeded pid heard) {bound : Bound} {how how' : ProcessEnd}
    (hreported : Reported pid (heard ++ [⟨.wait pid, bound, .ended how⟩]) how')
    : how' = how := by
  rcases hreported with ⟨bound', hmem⟩
  rcases List.mem_append.mp hmem with hmem | hmem
  . exact absurd ⟨bound', hmem⟩ (h.unreported how')
  . cases List.mem_singleton.mp hmem
    rfl

theorem unrejected_wait (h : Unheeded pid heard) (bound : Bound) (reply : Reply) (f : Fault)
    : ¬Rejected pid (heard ++ [⟨.wait pid, bound, reply⟩]) f := by
  intro hmem
  rcases List.mem_append.mp hmem with hmem | hmem
  . exact h.unrejected f hmem
  . cases List.mem_singleton.mp hmem

theorem truthful (h : Unheeded pid heard) {bound : Bound} {forced : Bool} (how : ProcessEnd)
    (hforced : forced = false ↔ Obeyed pid grace (heard ++ [⟨.wait pid, bound, .ended how⟩]))
    (hkilled : forced = true → ∃ reply, ⟨.terminate pid true, .unlimited, reply⟩ ∈ heard)
    : Truthful pid grace (heard ++ [⟨.wait pid, bound, .ended how⟩]) forced how.code where
  obeyed := hforced
  killed h := (hkilled h).imp fun _ hmem => List.mem_append_left _ hmem
  reported how' hreported := by rw [h.eq_of_reported hreported]
  unreported hnone := absurd ⟨bound, by simp⟩ (hnone how)

theorem not_obeyed_killed (h : Unheeded pid heard) (span : Span) (reply : Reply)
    : ¬Obeyed pid grace (heard ++ [⟨.wait pid, .within span, reply⟩]) := by
  rintro ⟨-, how, hmem⟩
  rcases List.mem_append.mp hmem with hmem | hmem
  . exact h.unreported how ⟨.remaining, hmem⟩
  . cases List.mem_singleton.mp hmem

end Unheeded

end Heard

open Heard

inductive Box.Stops (b : Box) (now : Moment) (pid : Pid) (grace : Span) (heard : List Heard) : Move → Prop where
  | goesOn {stage : Stage} (upTo : UpTo pid grace heard stage) : Stops b now pid grace heard (b.await stage)
  | ends {forced : Bool} {code : Option Int} (truthful : Truthful pid grace heard forced code)
    (unrejected : ∀ f, ¬Rejected pid heard f) :
    Stops b now pid grace heard
      { box := { b with record := b.record.finish now .stopped (.stopped forced code), sample := none },
        deeds := [.release pid, .count (.ended .stopped true)], next := .finish (.ok ()) }
  | givesUp {f : Fault} (disobeyed : ¬Obeyed pid grace heard) (rejected : Rejected pid heard f) :
    Stops b now pid grace heard { b.refuse (.stopFailed f.message) with deeds := [.watch pid] }

namespace Operation

variable {b : Box} {pid : Pid} {grace : Span} {heard : List Heard} {stage : Stage} {reply : Reply}

theorem stops_enter (h : b.Runs pid) (grace : Span)
    : ∃ stage, (stop grace).enter b = { b.await stage with deeds := [.disarm] } ∧ UpTo pid grace [] stage := by
  have happly := Status.apply_stop_eq_ok.mpr ⟨h.active, rfl⟩
  simp only [enter, h.listed, Bool.false_eq_true, if_false, Box.beginStop, Box.withProcess, happly, Box.process, h.pid]
  split
  . exact ⟨_, rfl, .easing⟩
  . exact ⟨_, rfl, .asking (unheeded_nil pid) (by simp)⟩

theorem stops_settleStop (h : b.Runs pid) (now : Moment) {forced : Bool} {code : Option Int}
    (htruthful : Truthful pid grace heard forced code) (hunrejected : ∀ f, ¬Rejected pid heard f)
    : b.Stops now pid grace heard (b.settleStop (.stop grace) now pid forced code) := by
  have hmarked := b.record.markTerminated_eq_ok now (Status.apply_stop_eq_ok.mpr ⟨h.active, rfl⟩) rfl
    (.stopped forced code)
  simp only [Box.settleStop, hmarked]
  exact .ends htruthful hunrejected

section Proceed

variable (hwhole : ∀ message, reply ≠ .panicked message)
include hwhole

theorem stops_asked (hunheeded : Unheeded pid heard) (hlength : heard.length ≤ 1) (limits : Limits) (now : Moment)
    : b.Stops now pid grace (heard ++ [⟨.terminate pid false, .within grace, reply⟩])
      ((stop grace).proceed limits now b (.asking pid grace) reply) := by
  have hnew := hunheeded.concat (x := ⟨.terminate pid false, .within grace, reply⟩) (by simp) (by simp)
  have hmem : ⟨.terminate pid false, .within grace, reply⟩ ∈ heard ++ [⟨.terminate pid false, .within grace, reply⟩] :=
    by simp
  have hkill : b.Stops now pid grace (heard ++ [⟨.terminate pid false, .within grace, reply⟩])
      (b.await (.killing pid)) :=
    .goesOn (.killing hmem hnew (by simp; omega))
  cases reply with
  | panicked message => exact absurd rfl (hwhole message)
  | done => exact .goesOn (.parting hmem hnew (by simp; omega))
  | _ => exact hkill

theorem stops_parted (haccepted : ⟨.terminate pid false, .within grace, .done⟩ ∈ heard) (hunheeded : Unheeded pid heard)
    (hlength : heard.length ≤ 2) (hruns : b.Runs pid) (limits : Limits) (now : Moment)
    : b.Stops now pid grace (heard ++ [⟨.wait pid, .remaining, reply⟩])
      ((stop grace).proceed limits now b (.parting pid) reply) := by
  have hkill : (∀ how, reply ≠ .ended how) → b.Stops now pid grace (heard ++ [⟨.wait pid, .remaining, reply⟩])
      (b.await (.killing pid)) := by
    intro hremained
    have hnew := hunheeded.concat (x := ⟨.wait pid, .remaining, reply⟩) (fun how _ => hremained how) (by simp)
    exact .goesOn (.killing (List.mem_append_left _ haccepted) hnew (by simp; omega))
  cases reply with
  | panicked message => exact absurd rfl (hwhole message)
  | ended how =>
    have hobeyed : Obeyed pid grace (heard ++ [⟨.wait pid, .remaining, .ended how⟩]) :=
      ⟨List.mem_append_left _ haccepted, how, by simp⟩
    exact stops_settleStop hruns now (hunheeded.truthful how (by simp [hobeyed]) (by simp)) (hunheeded.unrejected_wait _ _)
  | _ => exact hkill (by simp)

theorem stops_killed (hunheeded : Unheeded pid heard) (hlength : heard.length ≤ 3) (limits : Limits) (now : Moment)
    : b.Stops now pid grace (heard ++ [⟨.terminate pid true, .unlimited, reply⟩])
      ((stop grace).proceed limits now b (.killing pid) reply) := by
  have hconfirm : (∀ f, reply ≠ .failed f) →
      b.Stops now pid grace (heard ++ [⟨.terminate pid true, .unlimited, reply⟩]) (b.await (.confirming pid)) := by
    intro hkilled
    have hnew := hunheeded.concat (x := ⟨.terminate pid true, .unlimited, reply⟩) (by simp) fun f _ => hkilled f
    have hmem : ⟨.terminate pid true, .unlimited, reply⟩ ∈ heard ++ [⟨.terminate pid true, .unlimited, reply⟩] := by simp
    exact .goesOn (.confirming hmem hnew (by simp; omega))
  cases reply with
  | panicked message => exact absurd rfl (hwhole message)
  | failed f =>
    refine .givesUp ?_ (by simp [Rejected])
    rintro ⟨-, how, hmem⟩
    exact hunheeded.unreported how ⟨.remaining, by simpa using hmem⟩
  | _ => exact hconfirm (by simp)

theorem stops_confirmed {killed : Reply} (hkilled : ⟨.terminate pid true, .unlimited, killed⟩ ∈ heard)
    (hunheeded : Unheeded pid heard) (hruns : b.Runs pid) (limits : Limits) (now : Moment)
    : b.Stops now pid grace (heard ++ [⟨.wait pid, .within limits.killGrace, reply⟩])
      ((stop grace).proceed limits now b (.confirming pid) reply) := by
  have hforced : ¬Obeyed pid grace (heard ++ [⟨.wait pid, .within limits.killGrace, reply⟩]) :=
    hunheeded.not_obeyed_killed limits.killGrace reply
  have hunrejected := hunheeded.unrejected_wait (.within limits.killGrace) reply
  have hnone : (∀ how, reply ≠ .ended how) →
      b.Stops now pid grace (heard ++ [⟨.wait pid, .within limits.killGrace, reply⟩])
        (b.settleStop (.stop grace) now pid true none) := by
    intro hlate
    have hnew := hunheeded.concat (x := ⟨.wait pid, .within limits.killGrace, reply⟩) (fun how _ => hlate how) (by simp)
    have htruthful : Truthful pid grace (heard ++ [⟨.wait pid, .within limits.killGrace, reply⟩]) true none :=
      ⟨by simp [hforced], fun _ => ⟨killed, List.mem_append_left _ hkilled⟩,
        fun how h => absurd h (hnew.unreported how), fun _ => rfl⟩
    exact stops_settleStop hruns now htruthful hunrejected
  cases reply with
  | panicked message => exact absurd rfl (hwhole message)
  | ended how =>
    have htruthful : Truthful pid grace (heard ++ [⟨.wait pid, .within limits.killGrace, .ended how⟩]) true how.code :=
      hunheeded.truthful how (by simp [hforced]) fun _ => ⟨killed, hkilled⟩
    exact stops_settleStop hruns now htruthful hunrejected
  | _ => exact hnone (by simp)

theorem stops_proceed (h : UpTo pid grace heard stage) (hruns : b.Runs pid) (limits : Limits) (now : Moment)
    : b.Stops now pid grace (heard ++ [⟨stage.call b.spec, stage.bound limits, reply⟩])
      ((stop grace).proceed limits now b stage reply) := by
  cases h with
  | easing =>
    have hnew := (unheeded_nil pid).concat (x := ⟨.resume pid, .unlimited, reply⟩) (by simp) (by simp)
    cases reply with
    | panicked message => exact absurd rfl (hwhole message)
    | _ => exact .goesOn (.asking hnew (by simp))
  | asking unheeded length => exact stops_asked hwhole unheeded length limits now
  | parting accepted unheeded length => exact stops_parted hwhole accepted unheeded length hruns limits now
  | killing asked unheeded length => exact stops_killed hwhole unheeded length limits now
  | confirming killed unheeded length => exact stops_confirmed hwhole killed unheeded hruns limits now

end Proceed

end Operation

end BoxRegistry

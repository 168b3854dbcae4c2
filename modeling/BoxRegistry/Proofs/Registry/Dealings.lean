import BoxRegistry.Proofs.Registry.Stages
import BoxRegistry.Registry.Basic

/-!
This module contains what passes between a registry and its backend: what tasks ask for, what they hear, and
which processes are released. It contains the rules of these dealings, and what the dealings at a box are, by
the record of the box.
-/

namespace BoxRegistry

open Time (Moment Span)

/--
Something that passes between the tasks of the box at a place and the backend. What is asked is noted with the
operation it is for, unless it is a watch that asks, and with the status of the box; so is a release.
-/
inductive Dealing where
  | ask (slot : Slot) (task : TaskId) (op : Option Operation) (status : Status) (call : Call) (bound : Bound)
  | hear (slot : Slot) (task : TaskId) (call : Call) (reply : Reply)
  | release (slot : Slot) (status : Status) (pid : Pid)
deriving DecidableEq

def Call.pid? : Call → Option Pid
  | launch _ => none
  | terminate pid _ | wait pid | pause pid | resume pid => some pid

namespace Dealing

def slot : Dealing → Slot
  | ask slot .. | hear slot .. | release slot .. => slot

def pid? : Dealing → Option Pid
  | ask _ _ _ _ call _ => call.pid?
  | release _ _ pid => some pid
  | hear .. => none

def launched? : Dealing → Option Pid
  | hear _ _ (.launch _) (.launched pid) => some pid
  | _ => none

def answersLaunch : Dealing → Bool
  | hear _ _ (.launch _) _ => true
  | _ => false

def isOf (slot : Slot) (task : TaskId) : Dealing → Bool
  | ask s t .. | hear s t .. => s = slot && t = task
  | release .. => false

def Asks (slot : Slot) (pid : Pid) (x : Dealing) : Prop :=
  ∃ task op status call bound, x = ask slot task op status call bound ∧ call.pid? = some pid ∧ status.isActive = true

inductive Unheeded (slot : Slot) (task : TaskId) (grace : Span) (status : Status) (pid : Pid) : List Dealing → Prop where
  | refused {earlier : List Dealing} {reply : Reply} (refused : reply ≠ .done) :
    Unheeded slot task grace status pid (earlier ++
      [ask slot task (some (.stop grace)) status (.terminate pid false) (.within grace),
        hear slot task (.terminate pid false) reply])
  | remained {earlier : List Dealing} {reply : Reply} (remained : ∀ how, reply ≠ .ended how) :
    Unheeded slot task grace status pid (earlier ++
      [ask slot task (some (.stop grace)) status (.terminate pid false) (.within grace),
        hear slot task (.terminate pid false) .done,
        ask slot task (some (.stop grace)) status (.wait pid) .remaining,
        hear slot task (.wait pid) reply])

def Eased (slot : Slot) (task : TaskId) (op : Operation) (status : Status) (pid : Pid) (past : List Dealing) : Prop :=
  status = .paused → ask slot task (some op) .paused (.resume pid) .unlimited ∈ past

inductive Justified (past : List Dealing) : Dealing → Prop where
  | hear {slot : Slot} {task : TaskId} {call : Call} {reply : Reply} : Justified past (.hear slot task call reply)
  | release {slot : Slot} {status : Status} {pid : Pid} (ended : status.isTerminal = true) :
    Justified past (.release slot status pid)
  | launch {slot : Slot} {task : TaskId} {order : LaunchOrder} {bound : Bound} :
    Justified past (.ask slot task (some .start) .created (.launch order) bound)
  | wait {slot : Slot} {task : TaskId} {op : Option Operation} {status : Status} {pid : Pid} {bound : Bound}
    (active : status.isActive = true) :
    Justified past (.ask slot task op status (.wait pid) bound)
  | pause {slot : Slot} {task : TaskId} {pid : Pid} :
    Justified past (.ask slot task (some .pause) .running (.pause pid) .unlimited)
  | resume {slot : Slot} {task : TaskId} {pid : Pid} :
    Justified past (.ask slot task (some .resume) .paused (.resume pid) .unlimited)
  | ease {slot : Slot} {task : TaskId} {op : Operation} {pid : Pid} (stops : op.stops = true) :
    Justified past (.ask slot task (some op) .paused (.resume pid) .unlimited)
  | terminate {slot : Slot} {task : TaskId} {grace : Span} {status : Status} {pid : Pid}
    (active : status.isActive = true) (eased : Eased slot task (.stop grace) status pid past) :
    Justified past (.ask slot task (some (.stop grace)) status (.terminate pid false) (.within grace))
  | kill {slot : Slot} {task : TaskId} {op : Operation} {status : Status} {pid : Pid}
    (active : status.isActive = true) (eased : Eased slot task op status pid past)
    (unheeded : op = .remove true ∨
      ∃ grace, op = .stop grace ∧ Unheeded slot task grace status pid (past.filter (isOf slot task))) :
    Justified past (.ask slot task (some op) status (.terminate pid true) .unlimited)

def Proper (dealt : List Dealing) : Prop :=
  ∀ past x rest, dealt = past ++ x :: rest → x.Justified past

/--
What has passed at the box at a place, by the record of the box. Before a launch has led to a process there are
no dealings with any. Then there are only such that are asked for while the box is active, and when it is over
the process is released and that is the last of it.
-/
inductive Life (slot : Slot) (record : Record) (dealt : List Dealing) : Prop where
  | unlaunched (pidless : record.pid = none) (quiet : ∀ x ∈ dealt, x.pid? = none ∧ x.launched? = none)
    (unanswered : record.status = .created → ∀ x ∈ dealt, x.answersLaunch = false)
  | launched {before after asks ending : List Dealing} {task : TaskId} {order : LaunchOrder} {pid : Pid}
    (eq : dealt = before ++ hear slot task (.launch order) (.launched pid) :: after)
    (quiet : ∀ x ∈ before, x.pid? = none) (once : ∀ x ∈ before ++ after, x.answersLaunch = false)
    (dealings : after.filter (fun x => x.pid?.isSome) = asks ++ ending) (asked : ∀ x ∈ asks, x.Asks slot pid)
    (state : record.pid = some pid ∧ ending = [] ∨
      record.status.isTerminal = true ∧ ending = [release slot record.status pid])

variable {slot : Slot} {record record' : Record} {dealt : List Dealing} {pid : Pid}

theorem launched?_of_not_answersLaunch {x : Dealing} (h : x.answersLaunch = false) : x.launched? = none := by
  unfold launched?
  split
  . cases h
  . rfl

theorem proper_nil : Proper [] := by
  intro past x rest h
  simp at h

theorem Proper.concat (h : Proper dealt) {x : Dealing} (hx : x.Justified dealt) : Proper (dealt ++ [x]) := by
  intro past y rest heq
  -- What is added last is the one in question, or else that one is among the dealings before.
  rcases List.eq_nil_or_concat rest with rfl | ⟨rest', z, rfl⟩
  . have hlast : dealt ++ [x] = past ++ [y] := by simpa using heq
    rcases List.append_inj' hlast rfl with ⟨rfl, hxy⟩
    rwa [← List.singleton_inj.mp hxy]
  . have hinit : dealt ++ [x] = (past ++ y :: rest') ++ [z] := by simpa using heq
    exact h past y rest' (List.append_inj' hinit rfl).1

theorem once_concat {before after : List Dealing} {x : Dealing} (once : ∀ y ∈ before ++ after, y.answersLaunch = false)
    (hx : x.answersLaunch = false)
    : ∀ y ∈ before ++ (after ++ [x]), y.answersLaunch = false := by
  rw [← List.append_assoc, List.forall_mem_append, List.forall_mem_singleton]
  exact ⟨once, hx⟩

namespace Life

theorem concat (h : Life slot record dealt) {x : Dealing} (hpid : x.pid? = none) (hanswer : x.answersLaunch = false)
    : Life slot record (dealt ++ [x]) := by
  cases h with
  | unlaunched pidless quiet unanswered =>
    apply Life.unlaunched pidless
    . rw [List.forall_mem_append, List.forall_mem_singleton]
      exact ⟨quiet, hpid, launched?_of_not_answersLaunch hanswer⟩
    . intro hcreated
      rw [List.forall_mem_append, List.forall_mem_singleton]
      exact ⟨unanswered hcreated, hanswer⟩
  | @launched before after asks ending task order pid eq quiet once dealings asked state =>
    have heq : dealt ++ [x] = before ++ hear slot task (.launch order) (.launched pid) :: (after ++ [x]) := by
      simp [eq]
    exact .launched heq quiet (once_concat once hanswer) (by simp [dealings, hpid]) asked state

theorem launched_of_pid (h : Life slot record dealt) (hpid : record.pid = some pid)
    (hactive : record.status.isActive = true)
    : ∃ before after task order, dealt = before ++ hear slot task (.launch order) (.launched pid) :: after ∧
        (∀ x ∈ before, x.pid? = none) ∧ (∀ x ∈ before ++ after, x.answersLaunch = false) ∧
        ∀ x ∈ after.filter (fun x => x.pid?.isSome), x.Asks slot pid := by
  cases h with
  | unlaunched pidless quiet unanswered =>
    rw [hpid] at pidless
    cases pidless
  | @launched before after asks ending task order pid' eq quiet once dealings asked state =>
    rcases state with ⟨hprocess, rfl⟩ | ⟨hterminal, -⟩
    . rw [hpid] at hprocess
      obtain rfl := Option.some.inj hprocess
      rw [List.append_nil] at dealings
      exact ⟨before, after, task, order, eq, quiet, once, by rwa [dealings]⟩
    . rw [Status.isTerminal_of_isActive hactive] at hterminal
      cases hterminal

theorem ask (h : Life slot record dealt) (hpid : record.pid = some pid) (hactive : record.status.isActive = true)
    {x : Dealing} (hx : x.Asks slot pid)
    : Life slot record (dealt ++ [x]) := by
  rcases h.launched_of_pid hpid hactive with ⟨before, after, task, order, eq, quiet, once, asked⟩
  rcases hx with ⟨t, op, status, call, bound, rfl, hcall, hstatus⟩
  have heq : dealt ++ [.ask slot t op status call bound] =
      before ++ hear slot task (.launch order) (.launched pid) :: (after ++ [.ask slot t op status call bound]) := by
    simp [eq]
  refine .launched heq quiet (once_concat once rfl) (List.append_nil _).symm ?_ (.inl ⟨hpid, rfl⟩)
  rw [List.filter_append, List.forall_mem_append]
  refine ⟨asked, ?_⟩
  intro y hy
  rw [List.mem_singleton.mp (List.mem_filter.mp hy).1]
  exact ⟨t, op, status, call, bound, rfl, hcall, hstatus⟩

theorem turn (h : Life slot record dealt) (hpid : record.pid = some pid) (hactive : record.status.isActive = true)
    (hpid' : record'.pid = some pid)
    : Life slot record' dealt := by
  rcases h.launched_of_pid hpid hactive with ⟨before, after, task, order, eq, quiet, once, asked⟩
  exact .launched eq quiet once (List.append_nil _).symm asked (.inl ⟨hpid', rfl⟩)

theorem ended (h : Life slot record dealt) (hpid : record.pid = some pid) (hactive : record.status.isActive = true)
    (hterminal : record'.status.isTerminal = true)
    : Life slot record' (dealt ++ [release slot record'.status pid]) := by
  rcases h.launched_of_pid hpid hactive with ⟨before, after, task, order, eq, quiet, once, asked⟩
  have heq : dealt ++ [release slot record'.status pid] =
      before ++ hear slot task (.launch order) (.launched pid) :: (after ++ [release slot record'.status pid]) := by
    simp [eq]
  have hfilter : (after ++ [release slot record'.status pid]).filter (fun x => x.pid?.isSome) =
      after.filter (fun x => x.pid?.isSome) ++ [release slot record'.status pid] := by
    simp [List.filter_append, Dealing.pid?]
  exact .launched heq quiet (once_concat once rfl) hfilter asked (.inr ⟨hterminal, rfl⟩)

theorem quiet_of_created (h : Life slot record dealt) (hprocess : record.pid = none)
    (hcreated : record.status = .created)
    : ∀ x ∈ dealt, x.pid? = none ∧ x.answersLaunch = false := by
  cases h with
  | unlaunched pidless quiet unanswered => exact fun x hx => ⟨(quiet x hx).1, unanswered hcreated x hx⟩
  | launched eq quiet once dealings asked state =>
    rcases state with ⟨hpid, -⟩ | ⟨hterminal, -⟩
    . rw [hpid] at hprocess
      cases hprocess
    . rw [hcreated] at hterminal
      cases hterminal

theorem launch (h : Life slot record dealt) (hprocess : record.pid = none) (hcreated : record.status = .created)
    (task : TaskId) (order : LaunchOrder) (hpid : record'.pid = some pid)
    : Life slot record' (dealt ++ [hear slot task (.launch order) (.launched pid)]) := by
  have hquiet := h.quiet_of_created hprocess hcreated
  exact .launched rfl (fun x hx => (hquiet x hx).1) (fun x hx => (hquiet x (by simpa using hx)).2)
    (List.append_nil _).symm (by simp) (.inl ⟨hpid, rfl⟩)

theorem failLaunch (h : Life slot record dealt) (hprocess : record.pid = none) (hcreated : record.status = .created)
    {x : Dealing} (hx : x.pid? = none ∧ x.launched? = none) (hpid : record'.pid = none)
    (hfailed : record'.status ≠ .created)
    : Life slot record' (dealt ++ [x]) := by
  have hquiet := h.quiet_of_created hprocess hcreated
  refine .unlaunched hpid ?_ fun hcreated => absurd hcreated hfailed
  rw [List.forall_mem_append, List.forall_mem_singleton]
  exact ⟨fun y hy => ⟨(hquiet y hy).1, launched?_of_not_answersLaunch (hquiet y hy).2⟩, hx⟩

end Life

end Dealing

end BoxRegistry

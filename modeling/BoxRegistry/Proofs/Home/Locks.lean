import BoxRegistry.Home.Homes
import BoxRegistry.Proofs.Basic

namespace BoxRegistry

namespace Homes

section Handles

variable {φ ι : Type} {h : Homes φ ι} {label label' : String} {n : Nat} {s : OpenService ι}

theorem service?_eq_some
    : h.service? label = some (n, s) ↔ h.handles.lookup label = some n ∧ h.services.lookup n = some s := by
  simp only [service?, Option.bind_eq_bind, Option.pure_def, Option.bind_eq_some_iff, Option.some.injEq,
    Prod.mk.injEq]
  constructor
  . rintro ⟨m, hm, t, ht, rfl, rfl⟩
    exact ⟨hm, ht⟩
  . rintro ⟨hn, hs⟩
    exact ⟨n, hn, s, hs, rfl, rfl⟩

structure Ordered (h : Homes φ ι) : Prop where
  locks : (h.services.map fun entry => entry.2.lock).Nodup
  numbers : (h.services.map (·.1)).Nodup
  below : ∀ entry ∈ h.services, entry.1 < h.next
  labels : (h.handles.map (·.1)).Nodup
  leads : ∀ handle ∈ h.handles, ∃ s, (handle.2, s) ∈ h.services

structure Kept (h : Homes φ ι) : Prop extends Ordered h where
  reached : ∀ entry ∈ h.services, ∃ handle ∈ h.handles, handle.2 = entry.1

theorem kept_start (files : φ) : Kept ({ files } : Homes φ ι) where
  locks := List.nodup_nil
  numbers := List.nodup_nil
  below entry hentry := by cases hentry
  labels := List.nodup_nil
  leads handle hhandle := by cases hhandle
  reached entry hentry := by cases hentry

theorem Ordered.service?_iff (hordered : h.Ordered)
    : h.service? label = some (n, s) ↔ (label, n) ∈ h.handles ∧ (n, s) ∈ h.services := by
  rw [service?_eq_some, lookup_eq_some_iff_mem hordered.labels, lookup_eq_some_iff_mem hordered.numbers]

theorem mem_sweep {entry : Nat × OpenService ι}
    : entry ∈ h.sweep.services ↔ entry ∈ h.services ∧ ∃ handle ∈ h.handles, handle.2 = entry.1 := by
  simp [sweep]

theorem Ordered.sweep (hordered : h.Ordered) : h.sweep.Kept where
  locks := (List.filter_sublist.map _).nodup hordered.locks
  numbers := (List.filter_sublist.map _).nodup hordered.numbers
  below entry hentry := hordered.below entry (mem_sweep.mp hentry).1
  labels := hordered.labels
  leads handle hhandle := by
    rcases hordered.leads handle hhandle with ⟨s, hs⟩
    exact ⟨s, mem_sweep.mpr ⟨hs, handle, hhandle, rfl⟩⟩
  reached entry hentry := (mem_sweep.mp hentry).2

theorem Ordered.service?_sweep (hordered : h.Ordered) (label : String) : h.sweep.service? label = h.service? label := by
  apply Option.ext
  rintro ⟨n, s⟩
  rw [hordered.sweep.service?_iff, hordered.service?_iff, mem_sweep]
  constructor
  . rintro ⟨hhandle, hentry, -⟩
    exact ⟨hhandle, hentry⟩
  . rintro ⟨hhandle, hentry⟩
    exact ⟨hhandle, hentry, _, hhandle, rfl⟩

section Bind

variable (hordered : h.Ordered) (hleads : ∃ s, (n, s) ∈ h.services) (label : String)
include hordered hleads

theorem Ordered.rebind
    : Ordered { h with handles := (label, n) :: h.handles.filter fun handle => handle.1 ≠ label } where
  locks := hordered.locks
  numbers := hordered.numbers
  below := hordered.below
  labels := by
    rw [List.map_cons, List.nodup_cons]
    refine ⟨?_, (List.filter_sublist.map _).nodup hordered.labels⟩
    simp
  leads handle hhandle := by
    rcases List.mem_cons.mp hhandle with rfl | hold
    . exact hleads
    . exact hordered.leads handle (List.mem_filter.mp hold).1

theorem Ordered.bind : (h.bind label n).Kept :=
  (hordered.rebind hleads label).sweep

theorem Ordered.service?_bind_self (s : OpenService ι) (hs : (n, s) ∈ h.services)
    : (h.bind label n).service? label = some (n, s) := by
  have hrebind := hordered.rebind hleads label
  rw [Homes.bind, hrebind.service?_sweep, hrebind.service?_iff]
  exact ⟨List.mem_cons_self, hs⟩

theorem Ordered.service?_bind_ne (hne : label' ≠ label) : (h.bind label n).service? label' = h.service? label' := by
  have hrebind := hordered.rebind hleads label
  have hbeq : (label' == label) = false := by simpa using hne
  rw [Homes.bind, hrebind.service?_sweep]
  simp only [service?, List.lookup_cons, hbeq, lookup_filter_ne, if_neg hne]

end Bind

section Drop

variable (hordered : h.Ordered) (label : String)
include hordered

theorem Ordered.unbind : Ordered { h with handles := h.handles.filter fun handle => handle.1 ≠ label } where
  locks := hordered.locks
  numbers := hordered.numbers
  below := hordered.below
  labels := (List.filter_sublist.map _).nodup hordered.labels
  leads handle hhandle := hordered.leads handle (List.mem_filter.mp hhandle).1

theorem Ordered.drop : (h.drop label).1.Kept :=
  (hordered.unbind label).sweep

theorem Ordered.service?_drop_ne (hne : label' ≠ label) : (h.drop label).1.service? label' = h.service? label' := by
  rw [Homes.drop, (hordered.unbind label).service?_sweep]
  simp only [service?, lookup_filter_ne, if_neg hne]

theorem Ordered.service?_drop_self : (h.drop label).1.service? label = none := by
  rw [Homes.drop, (hordered.unbind label).service?_sweep]
  simp only [service?, lookup_filter_ne, if_true]
  rfl

end Drop

theorem Kept.clone (hkept : h.Kept) {source : String} {h' : Homes φ ι} (hclone : h.clone source label = some h')
    : h'.Kept ∧ h'.service? label = h.service? source ∧ ∀ l, l ≠ label → h'.service? l = h.service? l := by
  simp only [Homes.clone, Option.bind_eq_bind, Option.pure_def, Option.bind_eq_some_iff, Option.some.injEq] at hclone
  rcases hclone with ⟨⟨n, s⟩, hservice, rfl⟩
  have hs := (hkept.service?_iff.mp hservice).2
  refine ⟨hkept.bind ⟨s, hs⟩ label, ?_, ?_⟩
  . rw [hkept.service?_bind_self ⟨s, hs⟩ label s hs, hservice]
  . intro l hl
    exact hkept.service?_bind_ne ⟨s, hs⟩ label hl

theorem Kept.live (hkept : h.Kept) (hlookup : h.handles.lookup label = some n)
    : ∃ s, h.service? label = some (n, s) := by
  have hhandle := (lookup_eq_some_iff_mem hkept.labels).mp hlookup
  rcases hkept.leads _ hhandle with ⟨s, hs⟩
  exact ⟨s, hkept.service?_iff.mpr ⟨hhandle, hs⟩⟩

theorem Kept.eq_of_lock (hkept : h.Kept) {n' : Nat} {s' : OpenService ι} (hs : h.service? label = some (n, s))
    (hs' : h.service? label' = some (n', s')) (hlock : s.lock = s'.lock) : n = n' := by
  have heq := List.inj_on_of_nodup_map hkept.locks (hkept.service?_iff.mp hs).2 (hkept.service?_iff.mp hs').2 hlock
  exact congrArg Prod.fst heq

section ShutDown

variable (hkept : h.Kept) {h' : Homes φ ι} {s' : OpenService ι} (hshut : h.shutDown label = some (h', s'))
include hkept hshut

theorem Kept.services_shutDown
    : ∃ close : Nat × OpenService ι → Nat × OpenService ι, h' = { h with services := h.services.map close } ∧
        ∀ entry ∈ h.services, (close entry).1 = entry.1 ∧ (close entry).2.lock = entry.2.lock := by
  simp only [Homes.shutDown, Option.bind_eq_bind, Option.pure_def, Option.bind_eq_some_iff, Option.some.injEq,
    Prod.mk.injEq] at hshut
  rcases hshut with ⟨⟨n, s⟩, hservice, rfl, rfl⟩
  have hs := (service?_eq_some.mp hservice).2
  refine ⟨_, rfl, ?_⟩
  rintro ⟨m, t⟩ hentry
  dsimp only
  split
  . next heq =>
    subst heq
    have ht := (lookup_eq_some_iff_mem hkept.numbers).mpr hentry
    rw [hs] at ht
    obtain rfl := Option.some.inj ht
    exact ⟨rfl, rfl⟩
  . exact ⟨rfl, rfl⟩

theorem Kept.locks_shutDown
    : h'.services.map (·.1) = h.services.map (·.1) ∧
      h'.services.map (fun entry => entry.2.lock) = h.services.map fun entry => entry.2.lock := by
  rcases hkept.services_shutDown hshut with ⟨close, rfl, hclose⟩
  simp only [List.map_map]
  exact ⟨List.map_congr_left fun entry hentry => (hclose entry hentry).1,
    List.map_congr_left fun entry hentry => (hclose entry hentry).2⟩

theorem Kept.shutDown : h'.Kept := by
  have hlocks := hkept.locks_shutDown hshut
  rcases hkept.services_shutDown hshut with ⟨close, rfl, hclose⟩
  constructor
  . constructor
    . rw [hlocks.2]
      exact hkept.locks
    . rw [hlocks.1]
      exact hkept.numbers
    . intro entry hentry
      rcases List.mem_map.mp hentry with ⟨old, hold, rfl⟩
      rw [(hclose old hold).1]
      exact hkept.below old hold
    . exact hkept.labels
    . intro handle hhandle
      rcases hkept.leads handle hhandle with ⟨s, hs⟩
      refine ⟨(close (handle.2, s)).2, List.mem_map.mpr ⟨_, hs, ?_⟩⟩
      exact Prod.ext (hclose _ hs).1 rfl
  . intro entry hentry
    rcases List.mem_map.mp hentry with ⟨old, hold, rfl⟩
    rw [(hclose old hold).1]
    exact hkept.reached old hold

end ShutDown

end Handles

section Locks

variable {φ ι : Type} [DecidableEq ι] {h : Homes φ ι} {file : ι}

def Holds (h : Homes φ ι) (label : String) (file : ι) : Prop :=
  ∃ n s, h.service? label = some (n, s) ∧ s.lock = file

theorem isLocked_iff_mem : h.isLocked file = true ↔ file ∈ h.services.map fun entry => entry.2.lock := by
  simp [isLocked]

theorem Kept.isLocked_iff (hkept : h.Kept) : h.isLocked file = true ↔ ∃ label, h.Holds label file := by
  rw [isLocked_iff_mem, List.mem_map]
  constructor
  . rintro ⟨⟨n, s⟩, hentry, rfl⟩
    rcases hkept.reached _ hentry with ⟨⟨label, m⟩, hhandle, rfl⟩
    exact ⟨label, m, s, hkept.service?_iff.mpr ⟨hhandle, hentry⟩, rfl⟩
  . rintro ⟨label, n, s, hservice, rfl⟩
    exact ⟨(n, s), (hkept.service?_iff.mp hservice).2, rfl⟩

theorem Kept.isLocked_drop (hkept : h.Kept) {label : String} {n : Nat} {s : OpenService ι}
    (hs : h.service? label = some (n, s))
    : (h.drop label).1.isLocked s.lock = false ↔ ∀ l, l ≠ label → h.handles.lookup l ≠ some n := by
  rw [← Bool.not_eq_true, (hkept.drop label).isLocked_iff, not_exists]
  constructor
  . intro hfree l hl hlookup
    rcases hkept.live hlookup with ⟨s', hs'⟩
    have hsame : s' = s := by
      have hentry := (service?_eq_some.mp hs').2
      rw [(service?_eq_some.mp hs).2] at hentry
      exact (Option.some.inj hentry).symm
    exact hfree l ⟨n, s', by rw [hkept.service?_drop_ne label hl, hs'], by rw [hsame]⟩
  . rintro hlast l ⟨n', s', hs', hlock⟩
    by_cases hl : l = label
    . subst hl
      rw [hkept.service?_drop_self] at hs'
      cases hs'
    . rw [hkept.service?_drop_ne label hl] at hs'
      obtain rfl := hkept.eq_of_lock hs' hs hlock
      exact hlast l hl (service?_eq_some.mp hs').1

def added (h : Homes φ ι) (files : φ) (s : OpenService ι) : Homes φ ι :=
  { h with files, services := h.services ++ [(h.next, s)], next := h.next + 1 }

theorem Ordered.added (hordered : h.Ordered) (files : φ) {s : OpenService ι} (hfree : h.isLocked s.lock = false)
    : (h.added files s).Ordered where
  locks := by
    have hnew : s.lock ∉ h.services.map fun entry => entry.2.lock := by
      rw [← isLocked_iff_mem, hfree]
      simp
    simp only [Homes.added, List.map_append, List.map_cons, List.map_nil]
    exact hordered.locks.append (List.nodup_singleton _) (List.disjoint_singleton.mpr hnew)
  numbers := by
    have hnew : h.next ∉ h.services.map (·.1) := by
      intro hmem
      rcases List.mem_map.mp hmem with ⟨entry, hentry, heq⟩
      exact absurd (hordered.below entry hentry) (by omega)
    simp only [Homes.added, List.map_append, List.map_cons, List.map_nil]
    exact hordered.numbers.append (List.nodup_singleton _) (List.disjoint_singleton.mpr hnew)
  below entry hentry := by
    rcases List.mem_append.mp hentry with hold | hnew
    . exact Nat.lt_succ_of_lt (hordered.below entry hold)
    . rw [List.mem_singleton.mp hnew]
      exact Nat.lt_succ_self _
  labels := hordered.labels
  leads handle hhandle := by
    rcases hordered.leads handle hhandle with ⟨s', hs'⟩
    exact ⟨s', List.mem_append_left _ hs'⟩

end Locks

section Open

variable {φ ι : Type} [FileSystem φ ι] [DecidableEq ι] {h : Homes φ ι} {label : String} {settings : Settings}
  {host : LogHost φ} {file : ι}

structure Ready (h : Homes φ ι) (settings : Settings) (host : LogHost φ) (file : ι) : Prop where
  valid : settings.validate = .ok ()
  opens : ∃ made logged opened, Layout.prepare ⟨settings.home⟩ h.files = (made, .ok ()) ∧
    Layout.setUpLog ⟨settings.home⟩ host made = (logged, .ok ()) ∧
    FileSystem.openFile logged (Layout.lock ⟨settings.home⟩) = .ok (file, opened) ∧
    FileSystem.grants opened file = .ok ()

theorem setUp_of_ready (hready : h.Ready settings host file)
    : ∃ opened, h.setUp settings host = ({ h with files := opened },
        if h.isLocked file then
          .error (.setupFailed ("Another BoxliteRuntime is already using directory: " ++ settings.home))
        else .ok { settings, lock := file }) := by
  rcases hready.opens with ⟨made, logged, opened, hmade, hlogged, hopened, hgrants⟩
  refine ⟨opened, ?_⟩
  simp only [setUp, Settings.check, hready.valid, Except.mapError, hmade, hlogged, acquire, hopened, hgrants]
  rw [show ({ h with files := logged } : Homes φ ι).isLocked file = h.isLocked file from rfl]
  cases h.isLocked file <;> rfl

theorem duringSetup_eq (f : Fault) (context : String) : ∃ reason, f.duringSetup context = .setupFailed reason := by
  cases f <;> exact ⟨_, rfl⟩

inductive SetsUp (h : Homes φ ι) (settings : Settings) (host : LogHost φ) : φ → Except Fault (OpenService ι) → Prop where
  | invalid {reason : String} (wrong : settings.validate ≠ .ok ()) :
    SetsUp h settings host h.files (.error (.setupFailed reason))
  | unprepared {files : φ} {f : Fault} {reason : String} (valid : settings.validate = .ok ())
    (prepares : Layout.prepare ⟨settings.home⟩ h.files = (files, .error f)) :
    SetsUp h settings host files (.error (.setupFailed reason))
  | unlogged {made files : φ} {f : Fault} {reason : String} (valid : settings.validate = .ok ())
    (prepares : Layout.prepare ⟨settings.home⟩ h.files = (made, .ok ()))
    (logs : Layout.setUpLog ⟨settings.home⟩ host made = (files, .error f)) :
    SetsUp h settings host files (.error (.setupFailed reason))
  | unopened {made files : φ} {message reason : String} (valid : settings.validate = .ok ())
    (prepares : Layout.prepare ⟨settings.home⟩ h.files = (made, .ok ()))
    (logs : Layout.setUpLog ⟨settings.home⟩ host made = (files, .ok ()))
    (opens : FileSystem.openFile files (Layout.lock ⟨settings.home⟩) = .error message) :
    SetsUp h settings host files (.error (.setupFailed reason))
  | unlocked {made logged files : φ} {file : ι} {reason : String} (valid : settings.validate = .ok ())
    (prepares : Layout.prepare ⟨settings.home⟩ h.files = (made, .ok ()))
    (logs : Layout.setUpLog ⟨settings.home⟩ host made = (logged, .ok ()))
    (opens : FileSystem.openFile logged (Layout.lock ⟨settings.home⟩) = .ok (file, files))
    (refused : h.isLocked file = true ∨ ∃ message, FileSystem.grants files file = .error message) :
    SetsUp h settings host files (.error (.setupFailed reason))
  | done {made logged files : φ} {file : ι} (valid : settings.validate = .ok ())
    (prepares : Layout.prepare ⟨settings.home⟩ h.files = (made, .ok ()))
    (logs : Layout.setUpLog ⟨settings.home⟩ host made = (logged, .ok ()))
    (opens : FileSystem.openFile logged (Layout.lock ⟨settings.home⟩) = .ok (file, files))
    (free : h.isLocked file = false) :
    SetsUp h settings host files (.ok { settings, lock := file })

theorem setsUp (h : Homes φ ι) (settings : Settings) (host : LogHost φ)
    : ∃ files result, h.setUp settings host = ({ h with files }, result) ∧ h.SetsUp settings host files result := by
  unfold setUp
  cases hvalid : settings.validate with
  | error f =>
    simp only [Settings.check, hvalid, Except.mapError]
    rcases duringSetup_eq f "invalid options" with ⟨reason, hreason⟩
    rw [hreason]
    exact ⟨_, _, rfl, .invalid (by simp [hvalid])⟩
  | ok valid =>
    simp only [Settings.check, hvalid, Except.mapError]
    rcases hmade : Layout.prepare ⟨settings.home⟩ h.files with ⟨made, f | _⟩
    . dsimp only
      rcases duringSetup_eq f ("failed to initialize filesystem at " ++ settings.home) with ⟨reason, hreason⟩
      rw [hreason]
      exact ⟨_, _, rfl, .unprepared hvalid hmade⟩
    . dsimp only
      rcases hlogged : Layout.setUpLog ⟨settings.home⟩ host made with ⟨logged, f | _⟩
      . dsimp only
        rcases duringSetup_eq f "failed to initialize logging" with ⟨reason, hreason⟩
        rw [hreason]
        exact ⟨_, _, rfl, .unlogged hvalid hmade hlogged⟩
      . dsimp only
        unfold acquire
        cases hopened : FileSystem.openFile logged (Layout.lock ⟨settings.home⟩) with
        | error message => exact ⟨_, _, rfl, .unopened hvalid hmade hlogged hopened⟩
        | ok opened =>
          rcases opened with ⟨file, files⟩
          cases hlocked : h.isLocked file with
          | true =>
            simp only [show ({ h with files := logged } : Homes φ ι).isLocked file = true from hlocked, if_true]
            exact ⟨_, _, rfl, .unlocked hvalid hmade hlogged hopened (.inl hlocked)⟩
          | false =>
            simp only [show ({ h with files := logged } : Homes φ ι).isLocked file = false from hlocked]
            cases hgrants : FileSystem.grants files file with
            | error message => exact ⟨_, _, rfl, .unlocked hvalid hmade hlogged hopened (.inr ⟨message, hgrants⟩)⟩
            | ok _ => exact ⟨_, _, rfl, .done hvalid hmade hlogged hopened hlocked⟩

theorem setUp_cases (h : Homes φ ι) (settings : Settings) (host : LogHost φ)
    : ∃ files, (∃ reason, h.setUp settings host = ({ h with files }, .error (.setupFailed reason))) ∨
        ∃ lock, h.setUp settings host = ({ h with files }, .ok { settings, lock }) ∧ h.isLocked lock = false := by
  rcases h.setsUp settings host with ⟨files, result, hsetUp, hsets⟩
  refine ⟨files, ?_⟩
  cases hsets with
  | done valid prepares logs opens free => exact .inr ⟨_, hsetUp, free⟩
  | invalid | unprepared | unlogged | unopened | unlocked => exact .inl ⟨_, hsetUp⟩

theorem openAs_cases (h : Homes φ ι) (label : String) (settings : Settings) (host : LogHost φ)
    : ∃ files, (∃ reason, h.openAs label settings host = ({ h with files }, .error (.setupFailed reason))) ∨
        ∃ lock, h.openAs label settings host =
            ((h.added files { settings, lock }).bind label h.next, .ok { settings, lock }) ∧
          h.isLocked lock = false := by
  rcases h.setUp_cases settings host with ⟨files, ⟨reason, hsetUp⟩ | ⟨lock, hsetUp, hfree⟩⟩
  . exact ⟨files, .inl ⟨reason, by simp only [openAs, hsetUp]⟩⟩
  . exact ⟨files, .inr ⟨lock, by simp only [openAs, hsetUp]; rfl, hfree⟩⟩

theorem openAs_of_ready (hready : h.Ready settings host file) (label : String)
    : if h.isLocked file then ∃ reason, (h.openAs label settings host).2 = .error (.setupFailed reason)
      else (h.openAs label settings host).2 = .ok { settings, lock := file } := by
  rcases setUp_of_ready hready with ⟨opened, hsetUp⟩
  split
  . next hlocked =>
    rw [if_pos hlocked] at hsetUp
    exact ⟨_, by simp only [openAs, hsetUp]; rfl⟩
  . next hfree =>
    rw [if_neg hfree] at hsetUp
    simp only [openAs, hsetUp]

theorem opens_iff_of_ready {file : ι} (hready : h.Ready settings host file) (label : String)
    : (∃ s, (h.openAs label settings host).2 = .ok s ∧ s.lock = file) ↔ h.isLocked file = false := by
  have hopen := openAs_of_ready hready label
  split at hopen
  . next hlocked =>
    rcases hopen with ⟨reason, herror⟩
    simp [herror, hlocked]
  . next hfree => simp [hopen, hfree]

theorem Kept.openAs (hkept : h.Kept) (label : String) (settings : Settings) (host : LogHost φ)
    : (h.openAs label settings host).1.Kept ∧
        ((∃ reason, (h.openAs label settings host).2 = .error (.setupFailed reason) ∧
            ∀ l, (h.openAs label settings host).1.service? l = h.service? l) ∨
          ∃ s, (h.openAs label settings host).2 = .ok s ∧
            (h.openAs label settings host).1.service? label = some (h.next, s) ∧
            ∀ l, l ≠ label → (h.openAs label settings host).1.service? l = h.service? l) := by
  rcases h.openAs_cases label settings host with ⟨files, ⟨reason, hopen⟩ | ⟨lock, hopen, hfree⟩⟩
  . rw [hopen]
    exact ⟨⟨⟨hkept.locks, hkept.numbers, hkept.below, hkept.labels, hkept.leads⟩, hkept.reached⟩,
      .inl ⟨reason, rfl, fun _ => rfl⟩⟩
  . rw [hopen]
    have hadded := hkept.added files (s := { settings, lock }) hfree
    have hs : (h.next, { settings, lock }) ∈ (h.added files { settings, lock }).services := by simp [Homes.added]
    refine ⟨hadded.bind ⟨_, hs⟩ label, .inr ⟨_, rfl, hadded.service?_bind_self ⟨_, hs⟩ label _ hs, ?_⟩⟩
    intro l hl
    rw [hadded.service?_bind_ne ⟨_, hs⟩ label hl]
    apply Option.ext
    rintro ⟨n, s⟩
    rw [hadded.service?_iff, hkept.service?_iff]
    constructor
    . rintro ⟨hhandle, hentry⟩
      -- The number of the new service is that of no handle before.
      rcases List.mem_append.mp hentry with hold | hnew
      . exact ⟨hhandle, hold⟩
      . cases List.mem_singleton.mp hnew
        rcases hkept.leads _ hhandle with ⟨s', hs'⟩
        exact absurd (hkept.below _ hs') (Nat.lt_irrefl _)
    . rintro ⟨hhandle, hentry⟩
      exact ⟨hhandle, List.mem_append_left _ hentry⟩

end Open

inductive Event (φ : Type) where
  | openAs (label : String) (settings : Settings) (host : LogHost φ)
  | clone (source label : String)
  | drop (label : String)
  | shutDown (label : String)
  | change (files : φ)

section Run

variable {φ ι : Type} [FileSystem φ ι] [DecidableEq ι] {h : Homes φ ι}

def step (h : Homes φ ι) : Event φ → Homes φ ι
  | .openAs label settings host => (h.openAs label settings host).1
  | .clone source label => (h.clone source label).getD h
  | .drop label => (h.drop label).1
  | .shutDown label => ((h.shutDown label).map Prod.fst).getD h
  | .change files => { h with files }

def after (h : Homes φ ι) (es : List (Event φ)) : Homes φ ι :=
  es.foldl step h

theorem Kept.step (hkept : h.Kept) (e : Event φ) : (h.step e).Kept := by
  cases e with
  | openAs label settings host => exact (hkept.openAs label settings host).1
  | clone source label =>
    simp only [Homes.step]
    cases hclone : h.clone source label with
    | none => exact hkept
    | some h' => exact (hkept.clone hclone).1
  | drop label => exact hkept.drop label
  | shutDown label =>
    simp only [Homes.step]
    cases hshut : h.shutDown label with
    | none => exact hkept
    | some out => exact hkept.shutDown hshut
  | change files =>
    exact ⟨⟨hkept.locks, hkept.numbers, hkept.below, hkept.labels, hkept.leads⟩, hkept.reached⟩

theorem Kept.after (hkept : h.Kept) (es : List (Event φ)) : (h.after es).Kept := by
  induction es generalizing h with
  | nil => exact hkept
  | cons e es ih => exact ih (hkept.step e)

/--
At most one service has a home, for whatever may come next. Two live services hold different locks. A service that
is ready but for the lock is opened exactly if no live service holds the lock, and no attempt to open one does
anything to those that are live. A lock is free again exactly when the last handle of its service is dropped.
-/
structure Exclusive (h : Homes φ ι) : Prop where
  live : ∀ label n, h.handles.lookup label = some n → ∃ s, h.service? label = some (n, s)
  apart : ∀ label label' n n' s s', h.service? label = some (n, s) → h.service? label' = some (n', s') → n ≠ n' →
    s.lock ≠ s'.lock
  locked : ∀ file, h.isLocked file = true ↔ ∃ label, h.Holds label file
  ready : ∀ label settings host file, h.Ready settings host file →
    ((∃ s, (h.openAs label settings host).2 = .ok s ∧ s.lock = file) ↔ ∀ l, ¬h.Holds l file)
  opened : ∀ label settings host s, (h.openAs label settings host).2 = .ok s →
    (h.openAs label settings host).1.service? label = some (h.next, s) ∧
      ∀ l, l ≠ label → (h.openAs label settings host).1.service? l = h.service? l
  failed : ∀ label settings host f, (h.openAs label settings host).2 = .error f →
    (∃ reason, f = .setupFailed reason) ∧ ∀ l, (h.openAs label settings host).1.service? l = h.service? l
  cloned : ∀ source label h', h.clone source label = some h' →
    h'.service? label = h.service? source ∧ ∀ l, l ≠ label → h'.service? l = h.service? l
  dropped : ∀ label n s, h.service? label = some (n, s) →
    ((h.drop label).1.isLocked s.lock = false ↔ ∀ l, l ≠ label → h.handles.lookup l ≠ some n) ∧
      ∀ l, l ≠ label → (h.drop label).1.service? l = h.service? l
  shut : ∀ label h' s, h.shutDown label = some (h', s) → ∀ file, h'.isLocked file = h.isLocked file

theorem Kept.opens_iff (hkept : h.Kept) {settings : Settings} {host : LogHost φ} {file : ι}
    (hready : h.Ready settings host file) (label : String)
    : (∃ s, (h.openAs label settings host).2 = .ok s ∧ s.lock = file) ↔ ∀ l, ¬h.Holds l file := by
  rw [opens_iff_of_ready hready label, ← not_exists, ← hkept.isLocked_iff, Bool.not_eq_true]

theorem Kept.exclusive (hkept : h.Kept) : h.Exclusive where
  live _ _ := hkept.live
  apart _ _ _ _ _ _ hs hs' hne hlock := hne (hkept.eq_of_lock hs hs' hlock)
  locked _ := hkept.isLocked_iff
  ready label _ _ _ hready := hkept.opens_iff hready label
  opened label settings host s hok := by
    rcases (hkept.openAs label settings host).2 with ⟨reason, herror, -⟩ | ⟨s', hok', hself, hothers⟩
    . rw [hok] at herror
      cases herror
    . rw [hok] at hok'
      rw [Except.ok.inj hok']
      exact ⟨hself, hothers⟩
  failed label settings host f herror := by
    rcases (hkept.openAs label settings host).2 with ⟨reason, herror', hsame⟩ | ⟨s, hok, -⟩
    . rw [herror] at herror'
      exact ⟨⟨reason, Except.error.inj herror'⟩, hsame⟩
    . rw [herror] at hok
      cases hok
  cloned _ _ _ hclone := (hkept.clone hclone).2
  dropped label _ _ hs := ⟨hkept.isLocked_drop hs, fun _ hl => hkept.service?_drop_ne label hl⟩
  shut label h' s hshut file := by
    rw [Bool.eq_iff_iff, isLocked_iff_mem, isLocked_iff_mem, (hkept.locks_shutDown hshut).2]

/--
A home has at most one service at a time, whatever is done with the services of a host and whatever happens to its
files.
-/
theorem one_service_per_home (files : φ) (es : List (Event φ)) : (({ files } : Homes φ ι).after es).Exclusive :=
  ((kept_start files).after es).exclusive

end Run

end Homes

end BoxRegistry

import BoxRegistry.Proofs.Home.FileTree
import BoxRegistry.Proofs.Home.Locks
import Mathlib.Logic.Function.Iterate

namespace BoxRegistry

class FileView (φ : Type) (ι : outParam Type) where
  locate : φ → String → Option ι
  entry? : φ → ι → Option Entry

instance : FileView FileTree Place where
  locate files path := (files.resolve path).toOption
  entry? files place := files.entry? place

namespace FileView

variable {φ ι : Type} [FileView φ ι] {homes homes' : String → Prop} {files files' files'' : φ} {path : String} {place : ι}

def IsDirectory (files : φ) (path : String) : Prop :=
  ∃ place, locate files path = some place ∧ entry? files place = some .directory

def IsLog (home : String) (files : φ) (place : ι) : Prop :=
  ∃ suffix : String, '/' ∉ suffix.toList ∧
    locate files (Path.join (Layout.logs ⟨home⟩) (Layout.logFileName ++ suffix)) = some place

structure Grows (homes : String → Prop) (files files' : φ) : Prop where
  leads : ∀ path place, locate files path = some place → locate files' path = some place
  directory : ∀ place, entry? files place = some .directory → entry? files' place = some .directory
  file : ∀ place text, entry? files place = some (.file text) →
    ∃ text', entry? files' place = some (.file text') ∧ (text' = text ∨ ∃ home, homes home ∧ IsLog home files' place)

theorem Grows.refl (homes : String → Prop) (files : φ) : Grows homes files files where
  leads _ _ h := h
  directory _ h := h
  file _ text h := ⟨text, h, .inl rfl⟩

theorem Grows.mono (h : Grows homes files files') (hhomes : ∀ home, homes home → homes' home)
    : Grows homes' files files' where
  leads := h.leads
  directory := h.directory
  file place text hentry := by
    rcases h.file place text hentry with ⟨text', hentry', hsame | ⟨home, hhome, hlog⟩⟩
    . exact ⟨text', hentry', .inl hsame⟩
    . exact ⟨text', hentry', .inr ⟨home, hhomes home hhome, hlog⟩⟩

theorem Grows.isLog (h : Grows homes files files') {home : String} (hlog : IsLog home files place)
    : IsLog home files' place := by
  rcases hlog with ⟨suffix, hsuffix, hlocate⟩
  exact ⟨suffix, hsuffix, h.leads _ _ hlocate⟩

theorem Grows.trans (h : Grows homes files files') (h' : Grows homes files' files'') : Grows homes files files'' where
  leads path place hlocate := h'.leads path place (h.leads path place hlocate)
  directory place hentry := h'.directory place (h.directory place hentry)
  file place text hentry := by
    rcases h.file place text hentry with ⟨text', hentry', hsame⟩
    rcases h'.file place text' hentry' with ⟨text'', hentry'', hsame'⟩
    refine ⟨text'', hentry'', ?_⟩
    rcases hsame' with rfl | hlog
    . exact hsame.imp_right fun ⟨home, hhome, hlog⟩ => ⟨home, hhome, h'.isLog hlog⟩
    . exact .inr hlog

theorem Grows.isDirectory (h : Grows homes files files') (hdirectory : IsDirectory files path)
    : IsDirectory files' path := by
  rcases hdirectory with ⟨place, hlocate, hentry⟩
  exact ⟨place, h.leads path place hlocate, h.directory place hentry⟩

end FileView

open FileView (IsDirectory IsLog Grows locate entry?)

/--
What is known of the file system of a host. To make directories and to open files adds to it and changes nothing else. A
directory that was made is there, and it is not made again. A file that was opened is where its path leads.
-/
structure Reliable (φ : Type) {ι : Type} [FileSystem φ ι] [FileView φ ι] : Prop where
  makes : ∀ (files : φ) path, Grows (fun _ => False) files (FileSystem.makeAll files path).1
  made : ∀ (files : φ) path, (FileSystem.makeAll files path).2 = .ok () → path ≠ "" →
    IsDirectory (FileSystem.makeAll files path).1 path
  again : ∀ (files : φ) path, IsDirectory files path → FileSystem.makeAll files path = (files, .ok ())
  opens : ∀ (files : φ) path file files', FileSystem.openFile files path = .ok (file, files') →
    Grows (fun _ => False) files files'
  opened : ∀ (files : φ) path file files', FileSystem.openFile files path = .ok (file, files') →
    locate files' path = some file ∧ ∃ text, entry? files' file = some (.file text)

def LogHost.Careful {φ ι : Type} [FileView φ ι] (host : LogHost φ) : Prop :=
  ∀ files home, Grows (· = home) files (host.openLog files (Layout.logs ⟨home⟩) Layout.logFileName).1

section Tree

open FileTree (Extends)

theorem locate_eq_some {t : FileTree} {path : String} {place : Place}
    : locate t path = some place ↔ t.resolve path = .ok place := by
  show (t.resolve path).toOption = some place ↔ _
  cases t.resolve path <;> simp [Except.toOption]

theorem FileTree.Extends.grows {t t' : FileTree} (h : t.Extends t') (homes : String → Prop) : Grows homes t t' where
  leads _ _ hlocate := locate_eq_some.mpr (h.resolve (locate_eq_some.mp hlocate))
  directory place := h.entry? place .directory
  file place text hentry := ⟨text, h.entry? place _ hentry, .inl rfl⟩

theorem FileTree.isDirectory_iff_view {t : FileTree} {path : String} : IsDirectory t path ↔ t.isDirectory path = true := by
  rw [isDirectory_iff]
  simp only [IsDirectory, locate_eq_some]
  rfl

theorem FileTree.reliable : Reliable FileTree where
  makes t path := (t.extends_makeAll path).grows _
  made t path hok hpath := isDirectory_iff_view.mpr (isDirectory_makeAll (mapError_eq_ok_iff.mp hok) hpath)
  again t path hdirectory := by
    have hagain := makeAll_of_isDirectory (isDirectory_iff_view.mp hdirectory)
    simp only [FileSystem.makeAll, hagain]
    rfl
  opens t path file t' hopen := (openFile_eq_ok (mapError_eq_ok_iff.mp hopen)).1.grows _
  opened t path file t' hopen := by
    rcases openFile_eq_ok (mapError_eq_ok_iff.mp hopen) with ⟨-, hresolve, hentry⟩
    exact ⟨locate_eq_some.mpr hresolve, hentry⟩

theorem FileTree.not_isLog_lock {t : FileTree} {home home' : String} {place : Place}
    (h : t.resolve (Layout.lock ⟨home⟩) = .ok place)
    : ¬IsLog home' t place := by
  rintro ⟨suffix, hsuffix, hlocate⟩
  have hlock : place.getLast? = some Layout.lockName :=
    getLast?_of_resolve h (getLast?_parts_join home (by decide +kernel)) (by decide)
  have hslash : '/' ∉ (Layout.logFileName ++ suffix).toList := by
    rw [String.toList_append, List.mem_append]
    exact fun hmem => hmem.elim (by decide +kernel) hsuffix
  -- The names do not even begin with the same character.
  have hne : ∀ s : String, s.toList.head? ≠ some 'b' → Layout.logFileName ++ suffix ≠ s := by
    rintro s hs rfl
    apply hs
    rw [String.toList_append]
    rfl
  have hlog : place.getLast? = some (Layout.logFileName ++ suffix) := by
    apply getLast?_of_resolve (locate_eq_some.mp hlocate) (getLast?_parts_join _ hslash)
    simp only [List.mem_cons, List.not_mem_nil, or_false, not_or]
    exact ⟨hne "" (by decide +kernel), hne "." (by decide +kernel), hne ".." (by decide +kernel)⟩
  rw [hlock] at hlog
  exact hne Layout.lockName (by decide +kernel) (Option.some.inj hlog).symm

end Tree

section Prepare

theorem join_ne_nil {base name : String} (h : name ≠ "") : Path.join base name ≠ "" := by
  unfold Path.join
  split
  . exact h
  . split <;> simp [h]

namespace Layout

variable {φ ι : Type} [FileSystem φ ι] {files : φ} {l : Layout}

theorem prepare_cases (l : Layout) (files : φ)
    : (∃ message, (FileSystem.makeAll files l.home).2 = .error message ∧
        l.prepare files = ((FileSystem.makeAll files l.home).1, .error (.storage ("failed to create home: " ++ message)))) ∨
      ((FileSystem.makeAll files l.home).2 = .ok () ∧
        (l.prepare files).1 = (FileSystem.makeAll (FileSystem.makeAll files l.home).1 l.logs).1 ∧
        ((l.prepare files).2 = .ok () ↔ (FileSystem.makeAll (FileSystem.makeAll files l.home).1 l.logs).2 = .ok ())) := by
  unfold prepare
  rcases hhome : FileSystem.makeAll files l.home with ⟨made, message | _⟩
  . exact .inl ⟨message, rfl, rfl⟩
  . refine .inr ⟨rfl, ?_⟩
    dsimp only
    rcases hlogs : FileSystem.makeAll made l.logs with ⟨made', message | _⟩
    . exact ⟨rfl, by simp⟩
    . exact ⟨rfl, by simp⟩

variable [FileView φ ι]

theorem grows_prepare (h : Reliable φ) (l : Layout) (files : φ) : Grows (fun _ => False) files (l.prepare files).1 := by
  have hhome := h.makes files l.home
  rcases l.prepare_cases files with ⟨message, -, heq⟩ | ⟨-, heq, -⟩
  . rw [heq]
    exact hhome
  . rw [heq]
    exact hhome.trans (h.makes _ _)

theorem isDirectory_prepare (h : Reliable φ) (hhome : l.home ≠ "") (hok : (l.prepare files).2 = .ok ())
    : IsDirectory (l.prepare files).1 l.home ∧ IsDirectory (l.prepare files).1 l.logs := by
  rcases l.prepare_cases files with ⟨message, -, heq⟩ | ⟨hmade, heq, hiff⟩
  . rw [heq] at hok
    cases hok
  . rw [heq]
    refine ⟨(h.makes _ _).isDirectory (h.made files l.home hmade hhome), ?_⟩
    exact h.made _ l.logs (hiff.mp hok) (join_ne_nil (by decide))

theorem prepare_again (h : Reliable φ) (hhome : IsDirectory files l.home) (hlogs : IsDirectory files l.logs)
    : l.prepare files = (files, .ok ()) := by
  simp only [prepare, h.again files l.home hhome, h.again files l.logs hlogs]

theorem prepare_iterate (h : Reliable φ) (hhome : IsDirectory files l.home) (hlogs : IsDirectory files l.logs) (n : Nat)
    : (fun files => (l.prepare files).1)^[n] files = files :=
  Function.iterate_fixed (by rw [prepare_again h hhome hlogs]) n

theorem grows_setUpLog {φ ι : Type} [FileView φ ι] {host : LogHost φ} (hcareful : host.Careful) (home : String)
    (files : φ)
    : Grows (· = home) files (setUpLog ⟨home⟩ host files).1 := by
  have hlog := hcareful files home
  unfold setUpLog
  split
  . exact .refl _ files
  . split
    . next hopen =>
      rw [hopen] at hlog
      exact hlog
    . next hopen =>
      rw [hopen] at hlog
      exact hlog

end Layout

end Prepare

namespace Settings

theorem validate_eq_ok_iff {s : Settings}
    : s.validate = .ok () ↔ Path.isAbsolute s.home = true ∧ s.limits.start.nanos ≠ 0 ∧ s.limits.sample.nanos ≠ 0 ∧
        s.limits.killGrace.nanos ≠ 0 := by
  have hnone : s.limits.named.find? (fun limit => limit.2.nanos = 0) = none ↔
      s.limits.start.nanos ≠ 0 ∧ s.limits.sample.nanos ≠ 0 ∧ s.limits.killGrace.nanos ≠ 0 := by
    simp [Limits.named]
  rw [← hnone]
  unfold validate
  split
  . next habsolute =>
    cases hfound : s.limits.named.find? fun limit => limit.2.nanos = 0 <;> simp [habsolute]
  . next hrelative => simp [hrelative]

theorem home_ne_nil {s : Settings} (h : s.validate = .ok ()) : s.home ≠ "" := by
  intro hnil
  have habsolute := (validate_eq_ok_iff.mp h).1
  rw [hnil] at habsolute
  cases habsolute

end Settings

namespace Homes

section Stands

variable {φ ι : Type} [FileView φ ι]

structure Stands (l : Layout) (files : φ) (held : ι) : Prop where
  home : IsDirectory files l.home
  logs : IsDirectory files l.logs
  lock : locate files l.lock = some held
  file : ∃ text, entry? files held = some (.file text)

theorem Stands.grows {l : Layout} {files files' : φ} {held : ι} {homes : String → Prop} (h : Stands l files held)
    (hgrows : Grows homes files files')
    : Stands l files' held where
  home := hgrows.isDirectory h.home
  logs := hgrows.isDirectory h.logs
  lock := hgrows.leads _ _ h.lock
  file := by
    rcases h.file with ⟨text, hfile⟩
    rcases hgrows.file held text hfile with ⟨text', hfile', -⟩
    exact ⟨text', hfile'⟩

end Stands

variable {φ ι : Type} [FileSystem φ ι] [DecidableEq ι] {h : Homes φ ι} {label : String} {settings : Settings}
  {host : LogHost φ} {s : OpenService ι}

section SetUp

variable [FileView φ ι]

theorem SetsUp.grows {files : φ} {result : Except Fault (OpenService ι)} (hsets : h.SetsUp settings host files result)
    (hreliable : Reliable φ) (hcareful : host.Careful)
    : Grows (· = settings.home) h.files files := by
  have hnone : ∀ home : String, False → home = settings.home := fun _ => False.elim
  have hprepared : ∀ {made result}, Layout.prepare ⟨settings.home⟩ h.files = (made, result) →
      Grows (· = settings.home) h.files made := by
    intro made result heq
    have hgrows := (Layout.grows_prepare hreliable ⟨settings.home⟩ h.files).mono hnone
    rwa [heq] at hgrows
  have hlogged : ∀ {made logged result}, Layout.setUpLog ⟨settings.home⟩ host made = (logged, result) →
      Grows (· = settings.home) made logged := by
    intro made logged result heq
    have hgrows := Layout.grows_setUpLog hcareful settings.home made
    rwa [heq] at hgrows
  have hopened : ∀ {logged files file}, FileSystem.openFile logged (Layout.lock ⟨settings.home⟩) = .ok (file, files) →
      Grows (· = settings.home) logged files :=
    fun heq => (hreliable.opens _ _ _ _ heq).mono hnone
  cases hsets with
  | invalid wrong => exact .refl _ h.files
  | unprepared valid prepares => exact hprepared prepares
  | unlogged valid prepares logs => exact (hprepared prepares).trans (hlogged logs)
  | unopened valid prepares logs opens => exact (hprepared prepares).trans (hlogged logs)
  | unlocked valid prepares logs opens refused =>
    exact ((hprepared prepares).trans (hlogged logs)).trans (hopened opens)
  | done valid prepares logs opens free => exact ((hprepared prepares).trans (hlogged logs)).trans (hopened opens)

theorem SetsUp.stands {files : φ} (hsets : h.SetsUp settings host files (.ok s)) (hreliable : Reliable φ)
    (hcareful : host.Careful)
    : Stands ⟨settings.home⟩ files s.lock := by
  cases hsets with
  | @done made logged _ file valid prepares logs opens free =>
    have hprepared : (Layout.prepare ⟨settings.home⟩ h.files).2 = .ok () := by rw [prepares]
    have hmade := Layout.isDirectory_prepare hreliable (Settings.home_ne_nil valid) hprepared
    have hlogged := Layout.grows_setUpLog hcareful settings.home made
    have hopened := hreliable.opens _ _ _ _ opens
    rw [prepares] at hmade
    rw [logs] at hlogged
    rcases hreliable.opened _ _ _ _ opens with ⟨hlock, hfile⟩
    constructor
    case home => exact hopened.isDirectory (hlogged.isDirectory hmade.1)
    case logs => exact hopened.isDirectory (hlogged.isDirectory hmade.2)
    case lock => exact hlock
    case file => exact hfile

end SetUp

section Open

theorem openAs_eq (h : Homes φ ι) (label : String) (settings : Settings) (host : LogHost φ)
    : (h.openAs label settings host).1.files = (h.setUp settings host).1.files ∧
      (h.openAs label settings host).2 = (h.setUp settings host).2 := by
  unfold openAs
  rcases h.setUp settings host with ⟨h', f | s⟩
  . exact ⟨rfl, rfl⟩
  . exact ⟨rfl, rfl⟩

theorem openAs_of_invalid (hvalid : settings.validate ≠ .ok ())
    : ∃ reason, h.openAs label settings host = (h, .error (.setupFailed reason)) := by
  rcases h.setsUp settings host with ⟨files, result, heq, hsets⟩
  cases hsets with
  | @invalid reason wrong => exact ⟨reason, by simp only [openAs, heq]⟩
  | unprepared valid | unlogged valid | unopened valid | unlocked valid | done valid => exact absurd valid hvalid

theorem openAs_of_error {f : Fault} (herror : (h.openAs label settings host).2 = .error f)
    : ∃ files, (h.openAs label settings host).1 = { h with files } := by
  rcases h.openAs_cases label settings host with ⟨files, ⟨reason, hopen⟩ | ⟨lock, hopen, -⟩⟩
  . exact ⟨files, by rw [hopen]⟩
  . rw [hopen] at herror
    cases herror

/--
An attempt to open a service fails cleanly, or succeeds. It fails in one way only, and without a trace if the settings
are invalid. No lock is held after it that was not held before, so that whoever comes next is refused only because of a
lock that was held already. The files have grown. After a success the home stands, and it can be prepared any number of
times to no effect.
-/
structure Clean [FileView φ ι] (h : Homes φ ι) (label : String) (settings : Settings) (host : LogHost φ) : Prop where
  outcome : (∃ s, (h.openAs label settings host).2 = .ok s) ∨
    ∃ reason, (h.openAs label settings host).2 = .error (.setupFailed reason)
  untouched : (Path.isAbsolute settings.home = false ∨ settings.limits.start.nanos = 0 ∨
      settings.limits.sample.nanos = 0 ∨ settings.limits.killGrace.nanos = 0) →
    ∃ reason, h.openAs label settings host = (h, .error (.setupFailed reason))
  released : ∀ f, (h.openAs label settings host).2 = .error f →
    (∀ file, (h.openAs label settings host).1.isLocked file = h.isLocked file) ∧
      ∀ label' settings' host' file, (h.openAs label settings host).1.Ready settings' host' file →
        ((∃ s, ((h.openAs label settings host).1.openAs label' settings' host').2 = .ok s ∧ s.lock = file) ↔
          h.isLocked file = false)
  grows : Grows (· = settings.home) h.files (h.openAs label settings host).1.files
  stands : ∀ s, (h.openAs label settings host).2 = .ok s →
    Stands ⟨settings.home⟩ (h.openAs label settings host).1.files s.lock
  again : ∀ s, (h.openAs label settings host).2 = .ok s →
    ∀ n, (fun files => (Layout.prepare ⟨settings.home⟩ files).1)^[n] (h.openAs label settings host).1.files =
        (h.openAs label settings host).1.files ∧
      (Layout.prepare ⟨settings.home⟩
        ((fun files => (Layout.prepare ⟨settings.home⟩ files).1)^[n] (h.openAs label settings host).1.files)).2 = .ok ()

theorem clean_openAs [FileView φ ι] (hreliable : Reliable φ) (h : Homes φ ι) (label : String) (settings : Settings)
    (hcareful : host.Careful)
    : h.Clean label settings host := by
  rcases h.openAs_eq label settings host with ⟨hfiles, hresult⟩
  rcases h.setsUp settings host with ⟨files, result, heq, hsets⟩
  rw [heq] at hfiles hresult
  have hstands : ∀ s, (h.openAs label settings host).2 = .ok s →
      Stands ⟨settings.home⟩ (h.openAs label settings host).1.files s.lock := by
    intro s hok
    rw [hresult] at hok
    subst hok
    rw [hfiles]
    exact hsets.stands hreliable hcareful
  constructor
  case outcome =>
    rcases h.openAs_cases label settings host with ⟨files, ⟨reason, hopen⟩ | ⟨lock, hopen, -⟩⟩
    . exact .inr ⟨reason, by rw [hopen]⟩
    . exact .inl ⟨_, by rw [hopen]⟩
  case untouched =>
    intro hwrong
    apply openAs_of_invalid
    intro hvalid
    rcases Settings.validate_eq_ok_iff.mp hvalid with ⟨habsolute, hstart, hsample, hkillGrace⟩
    rw [habsolute] at hwrong
    simp [hstart, hsample, hkillGrace] at hwrong
  case released =>
    intro f herror
    rcases openAs_of_error herror with ⟨files, hopen⟩
    rw [hopen]
    exact ⟨fun _ => rfl, fun label' _ _ _ hready => opens_iff_of_ready hready label'⟩
  case grows =>
    rw [hfiles]
    exact hsets.grows hreliable hcareful
  case stands => exact hstands
  case again =>
    intro s hok n
    have hstands := hstands s hok
    have hsame := Layout.prepare_iterate hreliable hstands.home hstands.logs n
    refine ⟨hsame, ?_⟩
    rw [hsame, Layout.prepare_again hreliable hstands.home hstands.logs]

end Open

section Run

variable [FileView φ ι]

def Event.Own : Event φ → Prop
  | openAs _ _ host => host.Careful
  | change _ => False
  | clone .. | drop _ | shutDown _ => True

def Attempted (es : List (Event φ)) (home : String) : Prop :=
  ∃ label settings host, Event.openAs label settings host ∈ es ∧ settings.home = home

theorem grows_step (hreliable : Reliable φ) (h : Homes φ ι) {e : Event φ} (he : e.Own)
    : Grows (Attempted [e]) h.files (h.step e).files := by
  cases e with
  | openAs label settings host =>
    apply (clean_openAs hreliable h label settings he).grows.mono
    rintro home rfl
    exact ⟨label, settings, host, List.mem_cons_self, rfl⟩
  | clone source label =>
    simp only [step]
    cases hclone : h.clone source label with
    | none => exact .refl _ h.files
    | some h' =>
      rcases Option.bind_eq_some_iff.mp hclone with ⟨service, -, heq⟩
      rw [← Option.some.inj heq]
      exact .refl _ h.files
  | drop label => exact .refl _ h.files
  | shutDown label =>
    simp only [step]
    cases hshut : h.shutDown label with
    | none => exact .refl _ h.files
    | some out =>
      rcases Option.bind_eq_some_iff.mp hshut with ⟨service, -, heq⟩
      rw [← Option.some.inj heq]
      exact .refl _ h.files
  | change files => exact he.elim

theorem grows_after (hreliable : Reliable φ) (h : Homes φ ι) {es : List (Event φ)} (hes : ∀ e ∈ es, e.Own)
    : Grows (Attempted es) h.files (h.after es).files := by
  induction es generalizing h with
  | nil => exact .refl _ h.files
  | cons e es ih =>
    have hstep := grows_step hreliable h (hes e List.mem_cons_self)
    have hrest := ih (h.step e) fun e he => hes e (List.mem_cons_of_mem _ he)
    refine (hstep.mono ?_).trans (hrest.mono ?_)
    . rintro home ⟨label, settings, host, hmem, hhome⟩
      exact ⟨label, settings, host, List.mem_cons.mpr (.inl (List.mem_singleton.mp hmem)), hhome⟩
    . rintro home ⟨label, settings, host, hmem, hhome⟩
      exact ⟨label, settings, host, List.mem_cons_of_mem _ hmem, hhome⟩

/--
All services of a host are opened cleanly. Its files grow whatever its services do, and a home that stood once does so
from then on.
-/
structure Orderly (φ : Type) {ι : Type} [FileSystem φ ι] [DecidableEq ι] [FileView φ ι] : Prop where
  each : ∀ (h : Homes φ ι) label settings host, host.Careful → h.Clean label settings host
  run : ∀ (h : Homes φ ι) es, (∀ e ∈ es, e.Own) → Grows (Attempted es) h.files (h.after es).files
  later : ∀ (h : Homes φ ι) label settings host s es, host.Careful → (h.openAs label settings host).2 = .ok s →
    (∀ e ∈ es, e.Own) → Stands ⟨settings.home⟩ ((h.openAs label settings host).1.after es).files s.lock

theorem orderly_of_reliable (hreliable : Reliable φ) : Orderly φ where
  each h label settings _ hcareful := clean_openAs hreliable h label settings hcareful
  run h _ hes := grows_after hreliable h hes
  later h label settings _ s _ hcareful hok hes :=
    ((clean_openAs hreliable h label settings hcareful).stands s hok).grows (grows_after hreliable _ hes)

end Run

theorem read?_lock_of_grows {homes : String → Prop} {t t' : FileTree} (h : Grows homes t t') {home text : String}
    (hread : t.read? (Layout.lock ⟨home⟩) = some text)
    : t'.read? (Layout.lock ⟨home⟩) = some text := by
  rcases FileTree.read?_eq_some.mp hread with ⟨place, hresolve, hentry⟩
  have hresolve' := locate_eq_some.mp (h.leads _ place (locate_eq_some.mpr hresolve))
  rcases h.file place text hentry with ⟨text', hentry', rfl | ⟨home', -, hlog⟩⟩
  . exact FileTree.read?_eq_some.mpr ⟨place, hresolve', hentry'⟩
  . exact absurd hlog (FileTree.not_isLog_lock hresolve')

/--
A service is opened cleanly or not at all, on any host whose file system does what is known of it, and so on one whose
files are a tree. There no lock file has its text changed, whatever the services of the host do.
-/
theorem services_are_opened_cleanly
    : (∀ (φ ι : Type) [FileSystem φ ι] [DecidableEq ι] [FileView φ ι], Reliable φ → Orderly φ) ∧ Orderly FileTree ∧
      ∀ (h : Homes) es, (∀ e ∈ es, e.Own) → ∀ home text, h.files.read? (Layout.lock ⟨home⟩) = some text →
        (h.after es).files.read? (Layout.lock ⟨home⟩) = some text := by
  have hrule : ∀ (φ ι : Type) [FileSystem φ ι] [DecidableEq ι] [FileView φ ι], Reliable φ → Orderly φ :=
    fun _ _ _ _ _ => orderly_of_reliable
  have htree := hrule FileTree Place FileTree.reliable
  refine ⟨hrule, htree, ?_⟩
  intro h es hes home text hread
  exact read?_lock_of_grows (htree.run h es hes) hread

def daily (day : String) : LogHost FileTree where
  isSet := false
  openLog files dir name :=
    match files.openFile (Path.join dir (name ++ "." ++ day)) with
    | .ok (_, files) => (files, .ok ())
    | .error f => (files, .error f.message)

theorem careful_daily (day : String) : (daily day).Careful := by
  intro t home
  simp only [daily]
  split
  . next hopen => exact (FileTree.openFile_eq_ok hopen).1.grows _
  . exact .refl _ t

theorem services_are_opened_cleanly_leftLock
    : let h : Homes := { files := { entries := [(["srv"], .directory), (["srv", ".lock"], .file "4711")] } }
      let settings : Settings := { home := "/srv" }
      let first := (h.openAs "a" settings (daily "2026-01-01")).1
      (∃ s, (h.openAs "a" settings (daily "2026-01-01")).2 = .ok s) ∧
        first.files.read? "/srv/.lock" = some "4711" ∧ IsDirectory first.files "/srv/logs" ∧
        (∃ reason, (first.openAs "b" settings (daily "2026-01-01")).2 = .error (.setupFailed reason)) ∧
        (∃ reason, (first.openAs "b" { home := "/srv/.lock/x" } (daily "2026-01-01")).2 = .error (.setupFailed reason)) ∧
        ∃ reason, first.openAs "b" { home := "srv" } (daily "2026-01-01") = (first, .error (.setupFailed reason)) := by
  intro h settings first
  rcases services_are_opened_cleanly with ⟨hrule, -, hlock⟩
  have htree := hrule FileTree Place FileTree.reliable
  have hclean := htree.each h "a" settings (daily "2026-01-01") (careful_daily _)
  have hok : (h.openAs "a" settings (daily "2026-01-01")).2.isOk = true := by decide +kernel
  have hsecond : (first.openAs "b" settings (daily "2026-01-01")).2.isOk = false := by decide +kernel
  have hbelow : (first.openAs "b" { home := "/srv/.lock/x" } (daily "2026-01-01")).2.isOk = false := by decide +kernel
  have hrefused : ∀ settings', (first.openAs "b" settings' (daily "2026-01-01")).2.isOk = false →
      ∃ reason, (first.openAs "b" settings' (daily "2026-01-01")).2 = .error (.setupFailed reason) := by
    intro settings' hfailed
    rcases (htree.each first "b" settings' (daily "2026-01-01") (careful_daily _)).outcome with ⟨s, hs⟩ | herror
    . rw [hs] at hfailed
      cases hfailed
    . exact herror
  have hopened : ∃ s, (h.openAs "a" settings (daily "2026-01-01")).2 = .ok s := by
    rcases hclean.outcome with hopened | ⟨reason, herror⟩
    . exact hopened
    . rw [herror] at hok
      cases hok
  have hpaths : Layout.lock ⟨"/srv"⟩ = "/srv/.lock" ∧ Layout.logs ⟨"/srv"⟩ = "/srv/logs" := by decide +kernel
  refine ⟨hopened, ?_, ?_, hrefused settings hsecond, hrefused _ hbelow, ?_⟩
  . rw [← hpaths.1]
    apply hlock h [.openAs "a" settings (daily "2026-01-01")] _ "/srv" "4711" (by decide +kernel)
    intro e he
    rw [List.mem_singleton.mp he]
    exact careful_daily _
  . rcases hopened with ⟨s, hs⟩
    rw [← hpaths.2]
    exact (hclean.stands s hs).logs
  . apply (htree.each first "b" { home := "srv" } (daily "2026-01-01") (careful_daily _)).untouched
    exact .inl (by decide +kernel)

end Homes

end BoxRegistry

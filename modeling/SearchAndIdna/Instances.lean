import SearchAndIdna.SearchFrame

/-!
# Processes that start, forward and show

Any number of processes run `_tWinMain` at once.  `AttemptFastNotify` looks for a
message-only window and sends it the command line; when it returns `false`,
`ShowFrame` runs, whose `InitWidgetDialog` looks again and creates a window when
it finds none.  Every call of Windows is a step of its own, so all orders of the
processes' steps are runs of one automaton.  A handle is not used twice.

* `Event.Enabled`, `Event.apply`: when a step can happen and what it does;
* `SingleInstance`: at most one window, and every running frame has it;
* `single_instance_run`: every run in which `InitWidgetDialog` finds no window and
  creates one beside no other, and what follows the first step that breaks this.
-/

namespace SearchAndIdna

open WString CopyData

namespace Instances

abbrev Pid := Nat

/-- Where a process is in `_tWinMain`. -/
inductive Pc
  | notStarted
  /-- before `FindMessageOnlyWindow` in `AttemptFastNotify` -/
  | starting
  | found (only_window : Hwnd)
  /-- in `SendMessageTimeoutW` -/
  | waiting (only_window : Hwnd)
  /-- returned, without `ShowFrame` -/
  | notified
  /-- in `ShowFrame`, before `FindMessageOnlyWindow` in `InitWidgetDialog` -/
  | showing
  /-- before `CreateMessageOnlyWindow` -/
  | creating
  | inCreateWindow (hwnd : Hwnd)
  /-- behind `InitWidgetDialog` -/
  | running
  | exited
  deriving DecidableEq, Repr

/-- The WM_COPYDATA of one process. -/
inductive Mail
  | unsent
  | pending (only_window : Hwnd) (cds : CopyDataStruct)
  | done (result : LResult)

/-- Where the message still is to be taken. -/
def Mail.target : Mail → Option Hwnd
  | .pending only_window _ => some only_window
  | _ => none

/-- What the target's window procedure returned. -/
def Mail.result : Mail → Option LResult
  | .done result => some result
  | _ => none

/-- One process; the callback and the frame are the only ones there are. -/
structure Proc where
  pc : Pc
  command_line : CommandLine
  mail : Mail
  /-- `ShowFrame` was called. -/
  shown : Bool
  object : MessageWindow Unit Unit

/-- A window of the class: its process, and `none` when it is gone, else whether its
GWLP_USERDATA is the object. -/
structure Window where
  hwnd : Hwnd
  owner : Pid
  userData : Option Bool
  deriving DecidableEq, Repr

/-- A run of `ProcessCopyDataCommand`. -/
structure Handled where
  receiver : Pid
  sender : Pid
  command_line : CommandLine
  deriving DecidableEq

structure Desktop where
  procs : Pid → Proc
  windows : List Window
  handled : List Handled

def Proc.initial : Proc := ⟨.notStarted, .empty, .unsent, false, ⟨none, none, none⟩⟩

def Desktop.initial : Desktop := ⟨fun _ => .initial, [], []⟩

def Window.Live (w : Window) : Prop := w.userData ≠ none

instance : DecidablePred Window.Live := fun w => inferInstanceAs (Decidable (w.userData ≠ none))

namespace Desktop

def setProc (s : Desktop) (p : Pid) (proc : Proc) : Desktop :=
  { s with procs := Function.update s.procs p proc }

def setPc (s : Desktop) (p : Pid) (pc : Pc) : Desktop :=
  s.setProc p { s.procs p with pc := pc }

/-- `ShowFrame` is called. -/
def showFrame (s : Desktop) (p : Pid) : Desktop :=
  s.setProc p { s.procs p with pc := .showing, shown := true }

def setUserData (s : Desktop) (hwnd : Hwnd) (userData : Option Bool) : Desktop :=
  { s with windows := s.windows.map fun w =>
    if w.hwnd = hwnd ∧ w.Live then { w with userData } else w }

/-- The live window with this handle. -/
def window? (s : Desktop) (hwnd : Hwnd) : Option Window :=
  s.windows.find? fun w => w.hwnd = hwnd ∧ w.Live

end Desktop

/-- What a process or Windows does next. -/
inductive Event
  | start (p : Pid) (cmdline : WString)
  /-- `FindMessageOnlyWindow` in `AttemptFastNotify` -/
  | find (p : Pid) (only_window : Option Hwnd)
  /-- `GetWindowThreadProcessId` gives 0 -/
  | noProcess (p : Pid) (only_window : Hwnd)
  /-- the call of `SendMessageTimeoutW` -/
  | send (p : Pid) (only_window : Hwnd)
  /-- the target takes the message of `p` -/
  | deliver (p : Pid) (only_window : Hwnd)
  /-- `SendMessageTimeoutW` returns nonzero, with the target's result -/
  | reply (p : Pid) (only_window : Hwnd) (result : LResult)
  /-- `SendMessageTimeoutW` returns 0: the target is gone, hangs or takes too long -/
  | sendZero (p : Pid) (only_window : Hwnd)
  /-- `FindMessageOnlyWindow` in `InitWidgetDialog` -/
  | initFind (p : Pid) (window : Option Hwnd)
  /-- `CreateMessageOnlyWindow` up to a window without user data -/
  | create (p : Pid) (hwnd : Hwnd)
  /-- `CreateWindowW` fails -/
  | createFailed (p : Pid)
  /-- `WindowProc` takes WM_CREATE -/
  | wmCreate (p : Pid) (hwnd : Hwnd)
  /-- `CreateWindowW` returns -/
  | created (p : Pid) (hwnd : Hwnd)
  /-- `WindowProc` takes WM_DESTROY -/
  | wmDestroy (hwnd : Hwnd)
  | destroyed (hwnd : Hwnd)
  | exit (p : Pid)

/-- `FindWindowExW` may give any live window, and gives one if there is one that is
neither still being created nor already being destroyed. -/
def Desktop.MayFind (s : Desktop) : Option Hwnd → Prop
  | none => ∀ w ∈ s.windows, w.userData ≠ some true
  | some hwnd => s.window? hwnd ≠ none

instance (s : Desktop) : DecidablePred s.MayFind
  | none => inferInstanceAs (Decidable (∀ w ∈ s.windows, w.userData ≠ some true))
  | some hwnd => inferInstanceAs (Decidable (s.window? hwnd ≠ none))

/-- When a step can happen. -/
def Event.Enabled (s : Desktop) : Event → Prop
  | .start p _ => (s.procs p).pc = .notStarted
  | .find p only_window => (s.procs p).pc = .starting ∧ s.MayFind only_window
  | .noProcess p only_window =>
    (s.procs p).pc = .found only_window ∧ s.window? only_window = none
  | .send p only_window => (s.procs p).pc = .found only_window
  | .deliver p only_window =>
    (s.procs p).mail.target = some only_window ∧ s.window? only_window ≠ none
  | .reply p only_window result =>
    (s.procs p).pc = .waiting only_window ∧ (s.procs p).mail.result = some result
  | .sendZero p only_window => (s.procs p).pc = .waiting only_window
  | .initFind p window => (s.procs p).pc = .showing ∧ s.MayFind window
  | .create p hwnd => (s.procs p).pc = .creating ∧ ∀ w ∈ s.windows, w.hwnd ≠ hwnd
  | .createFailed p => (s.procs p).pc = .creating
  | .wmCreate p hwnd => (s.procs p).pc = .inCreateWindow hwnd ∧ s.window? hwnd ≠ none
  | .created p hwnd => (s.procs p).pc = .inCreateWindow hwnd
  | .wmDestroy hwnd => s.window? hwnd ≠ none
  | .destroyed hwnd => s.window? hwnd ≠ none
  | .exit p => (s.procs p).pc ∉ [.notStarted, .notified, .exited]

instance (s : Desktop) (e : Event) : Decidable (e.Enabled s) := by
  cases e <;> unfold Event.Enabled <;> infer_instance

/-- What a step does. -/
def Event.apply (sh : Shell) (s : Desktop) : Event → Desktop
  | .start p cmdline =>
    s.setProc p { s.procs p with
      pc := .starting, command_line := CommandLine.ofPointer sh (some cmdline) }
  | .find p none => s.showFrame p
  | .find p (some only_window) => s.setPc p (.found only_window)
  | .noProcess p _ => s.showFrame p
  | .send p only_window =>
    s.setProc p { s.procs p with
      pc := .waiting only_window
      mail := .pending only_window (copyDataFor (s.procs p).command_line) }
  | .deliver p only_window =>
    match (s.procs p).mail, s.window? only_window with
    | .pending _ cds, some w =>
      match SearchFrame.receive sh (s.procs w.owner).object (w.userData == some true) cds with
      | .ok (result, ran) =>
        { s.setProc p { s.procs p with mail := .done result } with
          handled := s.handled ++ (ran.map (⟨w.owner, p, ·⟩)).toList }
      -- `receive_ok`: never
      | .error _ => s
    | _, _ => s
  | .reply p _ result => if result ≠ 0 then s.setPc p .notified else s.showFrame p
  | .sendZero p _ => s.showFrame p
  | .initFind p none => s.setPc p .creating
  | .initFind p (some _) => s.setPc p .running
  | .create p hwnd =>
    { s.setProc p { s.procs p with
        pc := .inCreateWindow hwnd
        object := ⟨some (), (s.procs p).object.window_, some ()⟩ } with
      windows := s.windows ++ [⟨hwnd, p, some false⟩] }
  | .createFailed p =>
    s.setProc p { s.procs p with pc := .running, object := ⟨some (), none, some ()⟩ }
  | .wmCreate p hwnd =>
    (s.setProc p { s.procs p with
      object := { (s.procs p).object with window_ := some hwnd } }).setUserData hwnd (some true)
  | .created p hwnd =>
    s.setProc p { s.procs p with
      pc := .running, object := { (s.procs p).object with window_ := some hwnd } }
  | .wmDestroy hwnd => s.setUserData hwnd (some false)
  | .destroyed hwnd => s.setUserData hwnd none
  | .exit p =>
    { s.setPc p .exited with
      windows := s.windows.map fun w => if w.owner = p then { w with userData := none } else w }

/-- The processes and Windows, in any order. -/
def system (sh : Shell) : Automaton Desktop Event where
  init := Desktop.initial
  step s e := if e.Enabled s then some (e.apply sh s) else none

theorem step_eq_some {sh : Shell} {s s' : Desktop} {e : Event}
    (h : (system sh).step s e = some s') : e.Enabled s ∧ s' = e.apply sh s := by
  simp only [system] at h
  split at h
  · rename_i he
    exact ⟨he, (Option.some.inj h).symm⟩
  · exact absurd h.symm (Option.some_ne_none _)

/-! ## One process changes -/

namespace Desktop

@[simp] theorem setProc_procs (s : Desktop) (p : Pid) (proc : Proc) (q : Pid) :
    (s.setProc p proc).procs q = if q = p then proc else s.procs q :=
  Function.update_apply s.procs p proc q

@[simp] theorem setPc_procs (s : Desktop) (p : Pid) (pc : Pc) (q : Pid) :
    (s.setPc p pc).procs q = if q = p then { s.procs p with pc } else s.procs q :=
  setProc_procs ..

@[simp] theorem showFrame_procs (s : Desktop) (p q : Pid) :
    (s.showFrame p).procs q =
      if q = p then { s.procs p with pc := .showing, shown := true } else s.procs q :=
  setProc_procs ..

end Desktop

/-! ## One instance -/

def Desktop.Owns (s : Desktop) (p : Pid) : Prop := ∃ w ∈ s.windows, w.owner = p ∧ w.Live

/-- At most one process owns a window, and every frame that is up is the owner's. -/
structure SingleInstance (s : Desktop) : Prop where
  one_owner : ∀ p q, s.Owns p → s.Owns q → p = q
  running_owns : ∀ p, (s.procs p).pc = .running → s.Owns p

/-- `InitWidgetDialog` finds no window, and creates one only while there is none, with
success; a window goes with its process alone. -/
def Orderly (s : Desktop) : Event → Prop
  | .initFind _ window => window = none
  | .create _ _ => ∀ w ∈ s.windows, ¬ w.Live
  | .createFailed _ | .wmDestroy _ | .destroyed _ => False
  | _ => True

instance (s : Desktop) (e : Event) : Decidable (Orderly s e) := by
  cases e <;> unfold Orderly <;> infer_instance

/-- The process has its window, or `CreateWindowW` is about to return it. -/
def Pc.Up : Pc → Prop
  | .running | .inCreateWindow _ => True
  | _ => False

/-- The inductive form. -/
def OneWindow (s : Desktop) : Prop :=
  (∀ p q, s.Owns p → s.Owns q → p = q) ∧ ∀ p, s.Owns p ↔ (s.procs p).pc.Up

theorem OneWindow.of_windows {s s' : Desktop} (h : OneWindow s) (hw : s'.windows = s.windows)
    (hpc : ∀ p, (s'.procs p).pc.Up ↔ (s.procs p).pc.Up) : OneWindow s' := by
  have howns : ∀ p, s'.Owns p ↔ s.Owns p := fun p => by rw [Desktop.Owns, Desktop.Owns, hw]
  refine ⟨fun p q hp hq => h.1 p q ((howns p).mp hp) ((howns q).mp hq), fun p => ?_⟩
  rw [howns, h.2, hpc]

/-- A step of `p` alone, which leaves it with its window or without one. -/
theorem OneWindow.setProc {s : Desktop} (h : OneWindow s) {p : Pid} {proc : Proc}
    (hpc : proc.pc.Up ↔ (s.procs p).pc.Up) : OneWindow (s.setProc p proc) := by
  refine h.of_windows rfl fun q => ?_
  rw [Desktop.setProc_procs]
  split
  · rename_i he
    rw [hpc, he]
  · rfl

theorem OneWindow.setPc_of_eq {s : Desktop} (h : OneWindow s) {p : Pid} {proc : Proc} {pc : Pc}
    (hold : (s.procs p).pc = pc) (hpc : ¬ pc.Up) (hproc : ¬ proc.pc.Up) :
    OneWindow (s.setProc p proc) :=
  h.setProc (iff_of_false hproc (hold ▸ hpc))

theorem OneWindow.setUserData {s : Desktop} (h : OneWindow s) (hwnd : Hwnd) (this : Bool) :
    OneWindow (s.setUserData hwnd (some this)) := by
  have howns : ∀ p, (s.setUserData hwnd (some this)).Owns p ↔ s.Owns p := by
    intro p
    simp only [Desktop.Owns, Desktop.setUserData, List.mem_map]
    constructor
    · rintro ⟨-, ⟨w, hw, rfl⟩, hp, hl⟩
      split at hp
      · rename_i hlive
        exact ⟨w, hw, hp, hlive.2⟩
      · rename_i hnot
        rw [if_neg hnot] at hl
        exact ⟨w, hw, hp, hl⟩
    · rintro ⟨w, hw, hp, hl⟩
      refine ⟨_, ⟨w, hw, rfl⟩, ?_, ?_⟩
      · split <;> exact hp
      · split
        · exact Option.some_ne_none _
        · exact hl
  refine ⟨fun p q hp hq => h.1 p q ((howns p).mp hp) ((howns q).mp hq), fun p => ?_⟩
  rw [howns, h.2]
  rfl

theorem oneWindow_create {s : Desktop} (h : OneWindow s) {p : Pid}
    (hnone : ∀ w ∈ s.windows, ¬ w.Live) {proc : Proc} (hproc : proc.pc.Up) (hwnd : Hwnd) :
    OneWindow { s.setProc p proc with windows := s.windows ++ [⟨hwnd, p, some false⟩] } := by
  have hmine : ∀ q, Desktop.Owns { s.setProc p proc with
      windows := s.windows ++ [⟨hwnd, p, some false⟩] } q ↔ p = q := by
    intro q
    simp only [Desktop.Owns, List.mem_append, List.mem_singleton]
    constructor
    · rintro ⟨w, hw | rfl, hq, hl⟩
      · exact absurd hl (hnone w hw)
      · exact hq
    · rintro rfl
      exact ⟨_, Or.inr rfl, rfl, Option.some_ne_none _⟩
  refine ⟨fun q q' hq hq' => ((hmine q).mp hq).symm.trans ((hmine q').mp hq'), fun q => ?_⟩
  rw [hmine]
  have hprocs : (Desktop.procs { s.setProc p proc with
      windows := s.windows ++ [⟨hwnd, p, some false⟩] } q) = if q = p then proc else s.procs q :=
    Desktop.setProc_procs s p proc q
  by_cases hqp : q = p
  · rw [hprocs, if_pos hqp]
    exact iff_of_true hqp.symm hproc
  · rw [hprocs, if_neg hqp, ← h.2]
    refine iff_of_false (Ne.symm hqp) ?_
    rintro ⟨w, hw, -, hl⟩
    exact hnone w hw hl

theorem oneWindow_exit {s : Desktop} (h : OneWindow s) (p : Pid) :
    OneWindow { s.setPc p .exited with
      windows := s.windows.map fun w => if w.owner = p then { w with userData := none } else w } := by
  have howns : ∀ q, Desktop.Owns { s.setPc p .exited with
      windows := s.windows.map fun w => if w.owner = p then { w with userData := none } else w } q ↔
      q ≠ p ∧ s.Owns q := by
    intro q
    simp only [Desktop.Owns, List.mem_map]
    constructor
    · rintro ⟨-, ⟨w, hw, rfl⟩, hq, hl⟩
      split at hl
      · exact absurd rfl hl
      · rename_i hne
        rw [if_neg hne] at hq
        exact ⟨fun he => hne (hq.trans he), w, hw, hq, hl⟩
    · rintro ⟨hne, w, hw, hq, hl⟩
      refine ⟨w, ⟨w, hw, if_neg fun he => hne (hq.symm.trans he)⟩, hq, hl⟩
  refine ⟨fun q q' hq hq' => h.1 q q' ((howns q).mp hq).2 ((howns q').mp hq').2, fun q => ?_⟩
  rw [howns]
  have hprocs := Desktop.setPc_procs s p .exited q
  by_cases hqp : q = p
  · rw [show (Desktop.procs _ q) = { s.procs p with pc := .exited } from hprocs.trans (if_pos hqp)]
    exact iff_of_false (fun h => h.1 hqp) id
  · rw [show (Desktop.procs _ q) = s.procs q from hprocs.trans (if_neg hqp), ← h.2]
    exact and_iff_right hqp

theorem oneWindow_step {sh : Shell} {s s' : Desktop} {e : Event} (h : OneWindow s)
    (hg : Orderly s e) (hstep : (system sh).step s e = some s') : OneWindow s' := by
  obtain ⟨he, rfl⟩ := step_eq_some hstep
  cases e with
  | start p cmdline => exact h.setPc_of_eq he id id
  | find p only_window =>
    cases only_window with
    | none => exact h.setPc_of_eq he.1 id id
    | some only_window => exact h.setPc_of_eq he.1 id id
  | noProcess p only_window => exact h.setPc_of_eq he.1 id id
  | send p only_window => exact h.setPc_of_eq he id id
  | deliver p only_window =>
    simp only [Event.apply]
    split
    · split
      · rename_i result ran _
        have hkept : OneWindow (s.setProc p { s.procs p with mail := .done result }) :=
          h.setProc Iff.rfl
        exact hkept.of_windows rfl fun _ => Iff.rfl
      · exact h
    · exact h
  | reply p only_window result =>
    simp only [Event.apply]
    split
    · exact h.setPc_of_eq he.1 id id
    · exact h.setPc_of_eq he.1 id id
  | sendZero p only_window => exact h.setPc_of_eq he id id
  | initFind p window =>
    rw [show window = none from hg]
    exact h.setPc_of_eq he.1 id id
  | create p hwnd =>
    refine oneWindow_create h hg ?_ hwnd
    trivial
  | createFailed p => exact hg.elim
  | wmCreate p hwnd =>
    have hobject : OneWindow (s.setProc p { s.procs p with
        object := { (s.procs p).object with window_ := some hwnd } }) := h.setProc Iff.rfl
    exact hobject.setUserData hwnd true
  | created p hwnd =>
    have hup : (s.procs p).pc.Up := by
      rw [show (s.procs p).pc = _ from he]
      trivial
    exact h.setProc (iff_of_true trivial hup)
  | wmDestroy hwnd => exact hg.elim
  | destroyed hwnd => exact hg.elim
  | exit p => exact oneWindow_exit h p

theorem OneWindow.singleInstance {s : Desktop} (h : OneWindow s) : SingleInstance s := by
  refine ⟨h.1, fun p hp => (h.2 p).mpr ?_⟩
  rw [hp]
  trivial

/-- A frame that comes up without a window of its own. -/
theorem not_singleInstance_setProc {s : Desktop} (h : OneWindow s) {p : Pid} {proc : Proc}
    (hold : ¬ (s.procs p).pc.Up) (hproc : proc.pc = .running) :
    ¬ SingleInstance (s.setProc p proc) := by
  intro hsingle
  have hrunning : ((s.setProc p proc).procs p).pc = .running := by
    rw [Desktop.setProc_procs, if_pos rfl, hproc]
  exact hold ((h.2 p).mp (hsingle.running_owns p hrunning))

/-- Any other step of a process leaves two owners, or a frame without a window. -/
theorem not_singleInstance_step {sh : Shell} {s s' : Desktop} {e : Event} (h : OneWindow s)
    (hg : ¬ Orderly s e) (hkept : ∀ hwnd, e ≠ .wmDestroy hwnd ∧ e ≠ .destroyed hwnd)
    (hstep : (system sh).step s e = some s') : ¬ SingleInstance s' := by
  obtain ⟨he, rfl⟩ := step_eq_some hstep
  cases e with
  | initFind p window =>
    cases window with
    | none => exact absurd rfl hg
    | some hwnd => exact not_singleInstance_setProc h (by rw [he.1]; exact id) rfl
  | create p hwnd =>
    obtain ⟨w, hw, hlive⟩ : ∃ w ∈ s.windows, w.Live := by
      by_contra hnone
      exact hg fun w hw hlive => hnone ⟨w, hw, hlive⟩
    intro hsingle
    have hmine : Desktop.Owns ((Event.create p hwnd).apply sh s) p :=
      ⟨⟨hwnd, p, some false⟩, List.mem_append_right _ (List.mem_singleton_self _), rfl,
        Option.some_ne_none _⟩
    have hother : Desktop.Owns ((Event.create p hwnd).apply sh s) w.owner :=
      ⟨w, List.mem_append_left _ hw, rfl, hlive⟩
    have hup := (h.2 w.owner).mp ⟨w, hw, rfl, hlive⟩
    rw [hsingle.one_owner w.owner p hother hmine, he.1] at hup
    exact hup
  | createFailed p =>
    exact not_singleInstance_setProc h (by rw [show (s.procs p).pc = _ from he]; exact id) rfl
  | wmDestroy hwnd => exact absurd rfl (hkept hwnd).1
  | destroyed hwnd => exact absurd rfl (hkept hwnd).2
  | _ => exact absurd trivial hg

/-- **One instance**, in every state of every orderly run, up to the first step of a
process that is not: behind that one there are more, or a frame has none. -/
theorem single_instance_run (sh : Shell) (es : List Event) (s : Desktop)
    (h : (system sh).Run Orderly es s) :
    SingleInstance s ∧ ∀ e s', (system sh).step s e = some s' →
      (∀ hwnd, e ≠ .wmDestroy hwnd ∧ e ≠ .destroyed hwnd) → (SingleInstance s' ↔ Orderly s e) := by
  have hinit : OneWindow (system sh).init := by
    have hnone : ∀ p, ¬ (system sh).init.Owns p := by
      rintro p ⟨w, hw, -⟩
      exact List.not_mem_nil hw
    exact ⟨fun p q hp => absurd hp (hnone p), fun p => iff_of_false (hnone p) id⟩
  have hone : OneWindow s := h.invariant hinit fun _ _ _ => oneWindow_step
  refine ⟨hone.singleInstance, fun e s' hstep hkept => ⟨fun hsingle => ?_, fun hg => ?_⟩⟩
  · by_contra hg
    exact not_singleInstance_step hone hg hkept hstep hsingle
  · exact (oneWindow_step hone hg hstep).singleInstance

/-- One process starts and shows its frame; the next one finds its window and leaves
its command line there. -/
theorem single_instance_run_two :
    ∃ s, (system ⟨id, fun _ => []⟩).Run Orderly
        [.start 1 [], .find 1 none, .initFind 1 none, .create 1 7, .wmCreate 1 7, .created 1 7,
          .start 2 [], .find 2 (some 7), .send 2 7, .deliver 2 7, .reply 2 7 1] s ∧
      (s.procs 1).pc = .running ∧ (s.procs 2).pc = .notified ∧ SingleInstance s :=
  have hrun := Automaton.run_of_replay rfl
  ⟨_, hrun, rfl, rfl, (single_instance_run _ _ _ hrun).1⟩

/-- Both processes look before either creates. -/
theorem two_instances :
    ∃ s, (system ⟨id, fun _ => []⟩).Reaches
        [.start 1 [], .start 2 [], .find 1 none, .find 2 none, .initFind 1 none, .initFind 2 none,
          .create 1 7, .create 2 8, .wmCreate 1 7, .wmCreate 2 8, .created 1 7, .created 2 8] s ∧
      ¬ SingleInstance s := by
  refine ⟨_, Automaton.run_iff_replay.mpr rfl, fun h => ?_⟩
  have howns₁ : Desktop.Owns _ 1 := h.running_owns 1 rfl
  have howns₂ : Desktop.Owns _ 2 := h.running_owns 2 rfl
  exact absurd (h.one_owner 1 2 howns₁ howns₂) (by decide)

end Instances

end SearchAndIdna

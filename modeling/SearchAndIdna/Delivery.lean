import SearchAndIdna.Instances

/-!
# What becomes of a forwarded command line

A process that returns without `ShowFrame` has its command line acted on by the
process that owns the window.  The converse fails by design: when
`SendMessageTimeoutW` gives up, the sender shows its own frame although the
message may still be taken.

* `Move`, `step_move`: all that one step can do to a process and to the commands
  handled for it;
* `Forwarded.move`, `no_start_lost`: no start is lost;
* `Gone`, `gone_step`: a window that is gone does not come back;
* `Unacted.move`, `acted_once`: a start is acted on once, unless its
  `SendMessageTimeoutW` returned 0 while the target was there, or had handled it.
-/

namespace SearchAndIdna

open WString CopyData

namespace Instances

/-- The command lines `ProcessCopyDataCommand` was run on for the sender `p`. -/
def Desktop.handledFor (s : Desktop) (p : Pid) : List CommandLine :=
  (s.handled.filter fun e => e.sender = p).map Handled.command_line

theorem mem_handledFor {s : Desktop} {p : Pid} {c : CommandLine} :
    c ∈ s.handledFor p ↔ ∃ e ∈ s.handled, e.sender = p ∧ e.command_line = c := by
  simp [Desktop.handledFor, and_assoc]

/-- The parser takes `command_line` out of the buffer that `sent` is written to. -/
def Extracted (sh : Shell) (sent command_line : CommandLine) : Prop :=
  processCopyDataMessage sh (copyDataFor sent) (CommandLine.ofPointer sh none) =
    .ok (true, command_line)

/-! ## What a step does to one process -/

/-- In `ShowFrame` behind the second look, or gone. -/
def Pc.Late : Pc → Prop
  | .creating | .inCreateWindow _ | .running | .exited => True
  | _ => False

/-- `ShowFrame` is called. -/
def Proc.showFrame (x : Proc) : Proc := { x with pc := .showing, shown := true }

/-- What the event `e` can do to the process `p` and to the commands handled for it. -/
inductive Move (sh : Shell) (p : Pid) (e : Event) :
    Proc → List CommandLine → Proc → List CommandLine → Prop
  | stay (x : Proc) (l : List CommandLine) (object : MessageWindow Unit Unit) :
      Move sh p e x l { x with object } l
  | start (x : Proc) (l : List CommandLine) (command_line : CommandLine) :
      x.pc = .notStarted → Move sh p e x l { x with pc := .starting, command_line } l
  | found (x : Proc) (l : List CommandLine) (only_window : Hwnd) :
      e = .find p (some only_window) → x.pc = .starting →
      Move sh p e x l { x with pc := .found only_window } l
  | send (x : Proc) (l : List CommandLine) (only_window : Hwnd) :
      x.pc = .found only_window →
      Move sh p e x l
        { x with
          pc := .waiting only_window, mail := .pending only_window (copyDataFor x.command_line) } l
  | rejected (x : Proc) (l : List CommandLine) (only_window : Hwnd) (cds : CopyDataStruct) :
      e = .deliver p only_window → x.mail = .pending only_window cds →
      Move sh p e x l { x with mail := .done 0 } l
  | handled (x : Proc) (l : List CommandLine) (only_window : Hwnd) (cds : CopyDataStruct)
      (command_line : CommandLine) :
      e = .deliver p only_window → x.mail = .pending only_window cds →
      processCopyDataMessage sh cds (CommandLine.ofPointer sh none) = .ok (true, command_line) →
      Move sh p e x l { x with mail := .done 1 } (l ++ [command_line])
  | returned (x : Proc) (l : List CommandLine) (result : LResult) :
      x.mail = .done result → result ≠ 0 → Move sh p e x l { x with pc := .notified } l
  | alone (x : Proc) (l : List CommandLine) :
      (x.pc = .starting ∨ ∃ only_window, x.pc = .found only_window) →
      Move sh p e x l x.showFrame l
  | refused (x : Proc) (l : List CommandLine) (only_window : Hwnd) :
      x.pc = .waiting only_window → x.mail = .done 0 → Move sh p e x l x.showFrame l
  | gaveUp (x : Proc) (l : List CommandLine) (only_window : Hwnd) :
      e = .sendZero p only_window → x.pc = .waiting only_window → Move sh p e x l x.showFrame l
  | late (x : Proc) (l : List CommandLine) (pc : Pc) (object : MessageWindow Unit Unit) :
      pc.Late → Move sh p e x l { x with pc, object } l

theorem Mail.target_eq_some {mail : Mail} {hwnd : Hwnd} (h : mail.target = some hwnd) :
    ∃ cds, mail = .pending hwnd cds := by
  cases mail with
  | pending only_window cds => exact ⟨cds, by rw [Option.some.inj h]⟩
  | unsent => exact absurd h.symm (Option.some_ne_none _)
  | done result => exact absurd h.symm (Option.some_ne_none _)

theorem Mail.result_eq_some {mail : Mail} {result : LResult} (h : mail.result = some result) :
    mail = .done result := by
  cases mail with
  | done result' => rw [Option.some.inj h]
  | unsent => exact absurd h.symm (Option.some_ne_none _)
  | pending only_window cds => exact absurd h.symm (Option.some_ne_none _)

/-- The other processes stay as they are. -/
theorem move_setProc {sh : Shell} {s : Desktop} {e : Event} {q : Pid} {proc : Proc}
    (h : Move sh q e (s.procs q) (s.handledFor q) proc (s.handledFor q)) (p : Pid) :
    Move sh p e (s.procs p) (s.handledFor p) ((s.setProc q proc).procs p) (s.handledFor p) := by
  rw [Desktop.setProc_procs]
  split
  · rename_i he
    exact he ▸ h
  · exact .stay _ _ (s.procs p).object

/-- The target takes a message. -/
theorem move_deliver {sh : Shell} {s : Desktop} {q : Pid} {only_window : Hwnd}
    (he : (Event.deliver q only_window).Enabled s) (p : Pid) :
    Move sh p (.deliver q only_window) (s.procs p) (s.handledFor p)
      (((Event.deliver q only_window).apply sh s).procs p)
      (((Event.deliver q only_window).apply sh s).handledFor p) := by
  obtain ⟨cds, hmail⟩ := Mail.target_eq_some he.1
  obtain ⟨w, hw⟩ := Option.ne_none_iff_exists'.mp he.2
  simp only [Event.apply, hmail, hw]
  rcases SearchFrame.receive_ok sh (s.procs w.owner).object (w.userData == some true) cds with
    hr | ⟨command_line, hr, hparse⟩
  · rw [hr]
    simp only [Option.map_none, Option.toList_none, List.append_nil]
    exact move_setProc (.rejected _ _ only_window cds rfl hmail) p
  · rw [hr]
    simp only [Desktop.setProc_procs, Desktop.handledFor, Option.map_some, Option.toList_some,
      List.filter_append, List.map_append]
    by_cases hp : p = q
    · subst hp
      have hmove : Move sh p (.deliver p only_window) (s.procs p) (s.handledFor p) _ _ :=
        .handled _ _ only_window cds command_line rfl hmail hparse
      simpa [Desktop.handledFor] using hmove
    · have hmove : Move sh p (.deliver q only_window) (s.procs p) (s.handledFor p) _ _ :=
        .stay _ _ (s.procs p).object
      simpa [Desktop.handledFor, hp, Ne.symm hp] using hmove

/-- **What a step can do**, to every process. -/
theorem step_move {sh : Shell} {s s' : Desktop} {e : Event}
    (h : (system sh).step s e = some s') (p : Pid) :
    Move sh p e (s.procs p) (s.handledFor p) (s'.procs p) (s'.handledFor p) := by
  obtain ⟨he, rfl⟩ := step_eq_some h
  cases e with
  | start q cmdline => exact move_setProc (.start _ _ _ he) p
  | find q only_window =>
    cases only_window with
    | none => exact move_setProc (.alone _ _ (Or.inl he.1)) p
    | some only_window => exact move_setProc (.found _ _ only_window rfl he.1) p
  | noProcess q only_window => exact move_setProc (.alone _ _ (Or.inr ⟨only_window, he.1⟩)) p
  | send q only_window => exact move_setProc (.send _ _ only_window he) p
  | deliver q only_window => exact move_deliver he p
  | reply q only_window result =>
    have hmail := Mail.result_eq_some he.2
    simp only [Event.apply]
    split
    · rename_i hne
      exact move_setProc (.returned _ _ result hmail hne) p
    · rename_i hzero
      rw [not_not.mp hzero] at hmail
      exact move_setProc (.refused _ _ only_window he.1 hmail) p
  | sendZero q only_window =>
    simp only [Event.apply, Desktop.showFrame_procs]
    split
    · rename_i hp
      subst hp
      exact .gaveUp _ _ only_window rfl he
    · exact .stay _ _ (s.procs p).object
  | initFind q window =>
    cases window with
    | none => exact move_setProc (.late _ _ .creating (s.procs q).object trivial) p
    | some hwnd => exact move_setProc (.late _ _ .running (s.procs q).object trivial) p
  | create q hwnd => exact move_setProc (.late _ _ (.inCreateWindow hwnd) _ trivial) p
  | createFailed q => exact move_setProc (.late _ _ .running _ trivial) p
  | wmCreate q hwnd => exact move_setProc (.stay _ _ _) p
  | created q hwnd => exact move_setProc (.late _ _ .running _ trivial) p
  | wmDestroy hwnd => exact .stay _ _ (s.procs p).object
  | destroyed hwnd => exact .stay _ _ (s.procs p).object
  | exit q => exact move_setProc (.late _ _ .exited (s.procs q).object trivial) p

/-! ## No start is lost -/

/-- A message on its way is the process's own; when it was answered by other than 0,
and when the process has returned, its command was handled. -/
structure Forwarded (sh : Shell) (x : Proc) (l : List CommandLine) : Prop where
  unsent : x.pc = .notStarted → x.mail = .unsent
  pending : ∀ hwnd cds, x.mail = .pending hwnd cds → cds = copyDataFor x.command_line
  done : ∀ result, x.mail = .done result → result ≠ 0 → ∃ c ∈ l, Extracted sh x.command_line c
  notified : x.pc = .notified → ∃ c ∈ l, Extracted sh x.command_line c

theorem Forwarded.move {sh : Shell} {p : Pid} {e : Event} {x x' : Proc} {l l' : List CommandLine}
    (h : Forwarded sh x l) (hm : Move sh p e x l x' l') : Forwarded sh x' l' := by
  cases hm with
  | stay object => exact ⟨h.unsent, h.pending, h.done, h.notified⟩
  | start command_line hpc =>
    have hmail := h.unsent hpc
    exact ⟨fun _ => hmail, fun _ _ hp => by simp [hmail] at hp, fun _ hd => by simp [hmail] at hd,
      fun hn => by simp at hn⟩
  | found only_window hev hpc =>
    exact ⟨fun hn => by simp at hn, h.pending, h.done, fun hn => by simp at hn⟩
  | send only_window hpc =>
    refine ⟨fun hn => by simp at hn, fun _ _ hp => ?_, fun _ hd => by simp at hd,
      fun hn => by simp at hn⟩
    exact (Mail.pending.inj hp).2.symm
  | rejected only_window cds hev hmail =>
    refine ⟨fun hn => ?_, fun _ _ hp => by simp at hp, fun result hd hne => ?_, h.notified⟩
    · rw [h.unsent hn] at hmail
      simp at hmail
    · exact absurd (Mail.done.inj hd).symm hne
  | handled only_window cds command_line hev hmail hparse =>
    have hmem : ∃ c ∈ l ++ [command_line], Extracted sh x.command_line c :=
      ⟨command_line, by simp, by rw [Extracted, ← h.pending _ _ hmail, hparse]⟩
    refine ⟨fun hn => ?_, fun _ _ hp => by simp at hp, fun _ _ _ => hmem, fun _ => hmem⟩
    rw [h.unsent hn] at hmail
    simp at hmail
  | returned result hmail hne =>
    exact ⟨fun hn => by simp at hn, h.pending, h.done, fun _ => h.done result hmail hne⟩
  | alone hpc => exact ⟨fun hn => by simp [Proc.showFrame] at hn, h.pending, h.done,
      fun hn => by simp [Proc.showFrame] at hn⟩
  | refused only_window hpc hmail => exact ⟨fun hn => by simp [Proc.showFrame] at hn, h.pending,
      h.done, fun hn => by simp [Proc.showFrame] at hn⟩
  | gaveUp only_window hev hpc => exact ⟨fun hn => by simp [Proc.showFrame] at hn, h.pending,
      h.done, fun hn => by simp [Proc.showFrame] at hn⟩
  | late pc object hlate =>
    refine ⟨fun hn => ?_, h.pending, h.done, fun hn => ?_⟩
    · rw [show pc = .notStarted from hn] at hlate
      exact hlate.elim
    · rw [show pc = .notified from hn] at hlate
      exact hlate.elim

theorem forwarded_reaches {sh : Shell} {es : List Event} {s : Desktop}
    (h : (system sh).Reaches es s) (p : Pid) : Forwarded sh (s.procs p) (s.handledFor p) := by
  have hinit : ∀ p, Forwarded sh ((system sh).init.procs p) ((system sh).init.handledFor p) :=
    fun p => ⟨fun _ => rfl, fun _ _ hp => by simp [system, Desktop.initial, Proc.initial] at hp,
      fun _ hd => by simp [system, Desktop.initial, Proc.initial] at hd,
      fun hn => by simp [system, Desktop.initial, Proc.initial] at hn⟩
  exact h.invariant (P := fun s => ∀ p, Forwarded sh (s.procs p) (s.handledFor p)) hinit
    (fun s e s' hs _ hstep p => (hs p).move (step_move hstep p)) p

/-- **No start is lost.**  A process that returned without `ShowFrame` had a command
handled that the parser took out of the very buffer it sent. -/
theorem no_start_lost (sh : Shell) (es : List Event) (s : Desktop) (p : Pid)
    (h : (system sh).Reaches es s) (hreturned : (s.procs p).pc = .notified) :
    ∃ e ∈ s.handled, e.sender = p ∧ Extracted sh (s.procs p).command_line e.command_line := by
  obtain ⟨c, hc, hex⟩ := (forwarded_reaches h p).notified hreturned
  obtain ⟨e, he, hsender, rfl⟩ := mem_handledFor.mp hc
  exact ⟨e, he, hsender, hex⟩

/-- One process starts and shows its frame, the next one forwards its start. -/
theorem no_start_lost_second :
    ∃ s, (system ⟨id, fun _ => []⟩).Reaches
        [.start 1 [], .find 1 none, .initFind 1 none, .create 1 7, .wmCreate 1 7, .created 1 7,
          .start 2 [], .find 2 (some 7), .send 2 7, .deliver 2 7, .reply 2 7 1] s ∧
      ∃ e ∈ s.handled, e.sender = 2 ∧
        Extracted ⟨id, fun _ => []⟩ (s.procs 2).command_line e.command_line :=
  have hrun := Automaton.run_iff_replay.mpr rfl
  ⟨_, hrun, no_start_lost _ _ _ 2 hrun rfl⟩

/-! ## A window that is gone -/

/-- There is a window with this handle, or there was one. -/
def Desktop.Known (s : Desktop) (hwnd : Hwnd) : Prop := ∃ w ∈ s.windows, w.hwnd = hwnd

/-- There was a window with this handle. -/
def Desktop.Gone (s : Desktop) (hwnd : Hwnd) : Prop := s.Known hwnd ∧ s.window? hwnd = none

theorem window?_eq_none {s : Desktop} {hwnd : Hwnd} :
    s.window? hwnd = none ↔ ∀ w ∈ s.windows, w.hwnd = hwnd → ¬ w.Live := by
  simp [Desktop.window?, List.find?_eq_none]

theorem known_of_window? {s : Desktop} {hwnd : Hwnd} (h : s.window? hwnd ≠ none) : s.Known hwnd := by
  obtain ⟨w, hw⟩ := Option.ne_none_iff_exists'.mp h
  have hfound := List.find?_some hw
  simp only [decide_eq_true_eq] at hfound
  exact ⟨w, List.mem_of_find?_eq_some hw, hfound.1⟩

/-- The windows of `s'` are those of `s`, some of which may be gone, and others with new
handles. -/
structure Follows (s s' : Desktop) : Prop where
  kept : ∀ w ∈ s.windows, ∃ w' ∈ s'.windows, w'.hwnd = w.hwnd
  old : ∀ w' ∈ s'.windows, (∃ w ∈ s.windows, w.hwnd = w'.hwnd ∧ (w'.Live → w.Live)) ∨
    ∀ w ∈ s.windows, w.hwnd ≠ w'.hwnd

theorem Follows.of_windows {s s' : Desktop} (h : s'.windows = s.windows) : Follows s s' :=
  ⟨fun w hw => ⟨w, h ▸ hw, rfl⟩, fun w hw => Or.inl ⟨w, h ▸ hw, rfl, id⟩⟩

theorem Follows.of_map {s s' : Desktop} {f : Window → Window} (h : s'.windows = s.windows.map f)
    (hhwnd : ∀ w, (f w).hwnd = w.hwnd) (hlive : ∀ w, (f w).Live → w.Live) : Follows s s' := by
  refine ⟨fun w hw => ⟨f w, ?_, hhwnd w⟩, fun w' hw' => Or.inl ?_⟩
  · rw [h]
    exact List.mem_map_of_mem hw
  · rw [h] at hw'
    obtain ⟨w, hw, rfl⟩ := List.mem_map.mp hw'
    exact ⟨w, hw, (hhwnd w).symm, hlive w⟩

theorem Follows.setUserData (s : Desktop) (hwnd : Hwnd) (userData : Option Bool) :
    Follows s (s.setUserData hwnd userData) := by
  refine .of_map rfl (fun w => ?_) fun w hw => ?_
  · split <;> rfl
  · split at hw
    · rename_i h
      exact h.2
    · exact hw

theorem step_follows {sh : Shell} {s s' : Desktop} {e : Event}
    (h : (system sh).step s e = some s') : Follows s s' := by
  obtain ⟨he, rfl⟩ := step_eq_some h
  cases e with
  | find p only_window => cases only_window <;> exact .of_windows rfl
  | initFind p window => cases window <;> exact .of_windows rfl
  | deliver p only_window =>
    simp only [Event.apply]
    split
    · split <;> exact .of_windows rfl
    · exact .of_windows rfl
  | reply p only_window result =>
    simp only [Event.apply]
    split <;> exact .of_windows rfl
  | create p hwnd =>
    refine ⟨fun w hw => ⟨w, List.mem_append_left _ hw, rfl⟩, fun w' hw' => ?_⟩
    rcases List.mem_append.mp hw' with hw' | hw'
    · exact Or.inl ⟨w', hw', rfl, id⟩
    · rw [List.mem_singleton.mp hw']
      exact Or.inr he.2
  | wmCreate p hwnd =>
    have hset := Follows.setUserData (s.setProc p { s.procs p with
      object := { (s.procs p).object with window_ := some hwnd } }) hwnd (some true)
    exact ⟨hset.kept, hset.old⟩
  | wmDestroy hwnd => exact .setUserData s hwnd (some false)
  | destroyed hwnd => exact .setUserData s hwnd none
  | exit p =>
    refine .of_map rfl (fun w => ?_) fun w hw => ?_
    · split <;> rfl
    · split at hw
      · exact absurd rfl hw
      · exact hw
  | _ => exact .of_windows rfl

theorem Follows.known {s s' : Desktop} (h : Follows s s') {hwnd : Hwnd} (hs : s.Known hwnd) :
    s'.Known hwnd := by
  obtain ⟨w, hw, rfl⟩ := hs
  exact h.kept w hw

theorem Follows.gone {s s' : Desktop} (h : Follows s s') {hwnd : Hwnd} (hs : s.Gone hwnd) :
    s'.Gone hwnd := by
  refine ⟨h.known hs.1, window?_eq_none.mpr fun w' hw' hhwnd hlive => ?_⟩
  rcases h.old w' hw' with ⟨w, hw, hsame, hback⟩ | hnew
  · exact window?_eq_none.mp hs.2 w hw (hsame.trans hhwnd) (hback hlive)
  · obtain ⟨w, hw, hknown⟩ := hs.1
    exact hnew w hw (hknown.trans hhwnd.symm)

/-! ## A start is acted on once -/

/-- Before `SendMessageTimeoutW`. -/
def Pc.Early : Pc → Prop
  | .notStarted | .starting | .found _ => True
  | _ => False

/-- The window that `AttemptFastNotify` has found. -/
def Pc.target : Pc → Option Hwnd
  | .found only_window | .waiting only_window => some only_window
  | _ => none

/-- A process shows its own frame only if its command was not sent, got 0, or can no longer
be taken. -/
structure Unacted (s : Desktop) (x : Proc) (l : List CommandLine) : Prop where
  early : x.pc.Early → x.mail = .unsent ∧ x.shown = false
  waiting : ∀ hwnd, x.pc = .waiting hwnd →
    x.shown = false ∧ (x.mail.target = some hwnd ∨ ∃ result, x.mail = .done result)
  known : ∀ hwnd, x.pc.target = some hwnd → s.Known hwnd
  acted : l ≠ [] ↔ ∃ result, x.mail = .done result ∧ result ≠ 0
  shown : x.shown = true →
    x.mail = .unsent ∨ x.mail = .done 0 ∨ ∃ hwnd, x.mail.target = some hwnd ∧ s.Gone hwnd

theorem Unacted.follows {s s' : Desktop} {x : Proc} {l : List CommandLine} (h : Unacted s x l)
    (hs : Follows s s') : Unacted s' x l := by
  refine ⟨h.early, h.waiting, fun hwnd hp => hs.known (h.known hwnd hp), h.acted, fun hshown => ?_⟩
  exact (h.shown hshown).imp_right fun hmail => hmail.imp_right fun ⟨hwnd, ht, hgone⟩ =>
    ⟨hwnd, ht, hs.gone hgone⟩

theorem Unacted.showFrame {s : Desktop} {x : Proc} {l : List CommandLine} (h : Unacted s x l)
    (hmail : x.mail = .unsent ∨ x.mail = .done 0 ∨
      ∃ hwnd, x.mail.target = some hwnd ∧ s.Gone hwnd) : Unacted s x.showFrame l :=
  ⟨fun hp => hp.elim, fun _ hp => by simp [Proc.showFrame] at hp,
    fun _ hp => by simp [Proc.showFrame, Pc.target] at hp, h.acted, fun _ => hmail⟩

theorem Unacted.nil_of_mail {s : Desktop} {x : Proc} {l : List CommandLine} (h : Unacted s x l)
    (hmail : ∀ result, x.mail = .done result → result = 0) : l = [] := by
  by_contra hne
  obtain ⟨result, hd, hr⟩ := h.acted.mp hne
  exact hr (hmail result hd)

/-- `SendMessageTimeoutW` returns 0 to `p` only if the target is gone and did not handle the
command. -/
def NotAbandoned (p : Pid) (s : Desktop) : Event → Prop
  | .sendZero q hwnd => q = p → s.window? hwnd = none ∧ s.handledFor p = []
  | _ => True

instance (p : Pid) (s : Desktop) : (e : Event) → Decidable (NotAbandoned p s e)
  | .sendZero q hwnd =>
    inferInstanceAs (Decidable (q = p → s.window? hwnd = none ∧ s.handledFor p = []))
  | .start .. | .find .. | .noProcess .. | .send .. | .deliver .. | .reply .. | .initFind ..
  | .create .. | .createFailed .. | .wmCreate .. | .created .. | .wmDestroy .. | .destroyed ..
  | .exit .. => isTrue trivial

theorem Unacted.move {sh : Shell} {p : Pid} {s : Desktop} {e : Event} {x x' : Proc}
    {l l' : List CommandLine} (h : Unacted s x l) (he : e.Enabled s)
    (hg : ∀ hwnd, e = .sendZero p hwnd → s.window? hwnd = none ∧ l = [])
    (hm : Move sh p e x l x' l') : Unacted s x' l' := by
  cases hm with
  | stay object => exact ⟨h.early, h.waiting, h.known, h.acted, h.shown⟩
  | start command_line hpc =>
    have hearly := h.early (by rw [hpc]; trivial)
    exact ⟨fun _ => hearly, fun _ hp => by simp at hp, fun _ hp => by simp [Pc.target] at hp, h.acted,
      h.shown⟩
  | found only_window hev hpc =>
    have hearly := h.early (by rw [hpc]; trivial)
    subst hev
    refine ⟨fun _ => hearly, fun _ hp => by simp at hp, fun hwnd hp => ?_, h.acted, h.shown⟩
    rw [← Option.some.inj hp]
    exact known_of_window? he.2
  | send only_window hpc =>
    obtain ⟨hmail, hshown⟩ := h.early (by rw [hpc]; trivial)
    have hnil := h.nil_of_mail fun result hd => by simp [hmail] at hd
    have hknown := h.known only_window (by rw [hpc]; rfl)
    refine ⟨fun hp => hp.elim, fun hwnd hp => ⟨hshown, Or.inl ?_⟩, fun hwnd hp => ?_, ?_,
      fun hs => by simp [hshown] at hs⟩
    · rw [← Pc.waiting.inj hp]
      rfl
    · rw [← Option.some.inj hp]
      exact hknown
    · simp [hnil]
  | rejected only_window cds hev hmail =>
    have hnil := h.nil_of_mail fun result hd => by simp [hmail] at hd
    refine ⟨fun hp => ?_, fun hwnd hp => ⟨(h.waiting hwnd hp).1, Or.inr ⟨0, rfl⟩⟩, h.known, ?_,
      fun _ => Or.inr (Or.inl rfl)⟩
    · have hearly := (h.early hp).1
      simp [hmail] at hearly
    · simp [hnil]
  | handled only_window cds command_line hev hmail hparse =>
    subst hev
    refine ⟨fun hp => ?_, fun hwnd hp => ⟨(h.waiting hwnd hp).1, Or.inr ⟨1, rfl⟩⟩, h.known, ?_,
      fun hs => ?_⟩
    · have hearly := (h.early hp).1
      simp [hmail] at hearly
    · simp
    · -- the frame is shown and the message is still there, so its target is gone
      rcases h.shown hs with hunsent | hdone | ⟨hwnd, htarget, hgone⟩
      · simp [hmail] at hunsent
      · simp [hmail] at hdone
      · rw [hmail] at htarget
        rw [← Option.some.inj htarget] at hgone
        exact absurd hgone.2 he.2
  | returned result hmail hne =>
    exact ⟨fun hp => hp.elim, fun _ hp => by simp at hp, fun _ hp => by simp [Pc.target] at hp,
      h.acted, h.shown⟩
  | alone hpc =>
    refine h.showFrame (Or.inl (h.early ?_).1)
    rcases hpc with hpc | ⟨only_window, hpc⟩
    · rw [hpc]
      trivial
    · rw [hpc]
      trivial
  | refused only_window hpc hmail => exact h.showFrame (Or.inr (Or.inl hmail))
  | gaveUp only_window hev hpc =>
    obtain ⟨hnone, hnil⟩ := hg only_window hev
    refine h.showFrame (Or.inr ?_)
    rcases (h.waiting only_window hpc).2 with htarget | ⟨result, hmail⟩
    · exact Or.inr ⟨only_window, htarget, h.known only_window (by rw [hpc]; rfl), hnone⟩
    · left
      have hresult : result = 0 := by
        by_contra hne
        exact absurd hnil (h.acted.mpr ⟨result, hmail, hne⟩)
      rw [hmail, hresult]
  | late pc object hlate =>
    refine ⟨fun hp => ?_, fun hwnd hp => ?_, fun hwnd hp => ?_, h.acted, h.shown⟩
    · change pc.Early at hp
      cases pc <;> first | exact hp.elim | exact hlate.elim
    · rw [show pc = .waiting hwnd from hp] at hlate
      exact hlate.elim
    · change pc.target = some hwnd at hp
      cases pc <;> first | exact absurd hp.symm (Option.some_ne_none _) | exact hlate.elim

theorem Move.shown {sh : Shell} {p : Pid} {e : Event} {x x' : Proc} {l l' : List CommandLine}
    (hm : Move sh p e x l x' l') (h : x.shown = true) : x'.shown = true := by
  cases hm <;> first | exact h | rfl

theorem unacted_step {sh : Shell} {p : Pid} {s s' : Desktop} {e : Event}
    (h : Unacted s (s.procs p) (s.handledFor p)) (hg : NotAbandoned p s e)
    (hstep : (system sh).step s e = some s') : Unacted s' (s'.procs p) (s'.handledFor p) :=
  have hzero : ∀ hwnd, e = .sendZero p hwnd → s.window? hwnd = none ∧ s.handledFor p = [] :=
    fun hwnd heq => by
      subst heq
      exact hg rfl
  (h.move (step_eq_some hstep).1 hzero (step_move hstep p)).follows (step_follows hstep)

theorem unacted_reaches {sh : Shell} {es : List Event} {s : Desktop} {p : Pid}
    (h : (system sh).Run (NotAbandoned p) es s) : Unacted s (s.procs p) (s.handledFor p) := by
  have hinit : Unacted (system sh).init ((system sh).init.procs p) ((system sh).init.handledFor p) := by
    refine ⟨fun _ => ⟨rfl, rfl⟩, fun _ hp => ?_, fun _ hp => ?_, ?_, fun _ => Or.inl rfl⟩
    · simp [system, Desktop.initial, Proc.initial] at hp
    · simp [system, Desktop.initial, Proc.initial, Pc.target] at hp
    · simp [system, Desktop.initial, Proc.initial, Desktop.handledFor]
  exact h.invariant (P := fun s => Unacted s (s.procs p) (s.handledFor p)) hinit
    fun s e s' => unacted_step

/-- `ProcessCopyDataCommand` has run, or can still run, on the buffer of `p` in
another process. -/
def ActedElsewhere (sh : Shell) (s : Desktop) (p : Pid) : Prop :=
  ∃ es s', (system sh).replay s es = some s' ∧ ∃ e ∈ s'.handled, e.sender = p ∧ e.receiver ≠ p

/-- **A start is acted on once.**  A process that called `ShowFrame`, and whose
`SendMessageTimeoutW` did not return 0 while its target was there or had handled the
command, is and will be acted on by no other. -/
theorem acted_once (sh : Shell) (es : List Event) (s : Desktop) (p : Pid)
    (h : (system sh).Run (NotAbandoned p) es s) (hshown : (s.procs p).shown = true) :
    ¬ ActedElsewhere sh s p := by
  have hfinal : ∀ s, Unacted s (s.procs p) (s.handledFor p) ∧ (s.procs p).shown = true →
      ∀ es s', (system sh).replay s es = some s' →
        Unacted s' (s'.procs p) (s'.handledFor p) ∧ (s'.procs p).shown = true := by
    intro s hs es s' hreplay
    refine Automaton.replay_invariant
      (P := fun s => Unacted s (s.procs p) (s.handledFor p) ∧ (s.procs p).shown = true)
      (fun s e s' ⟨hu, hsh⟩ hstep => ?_) hs hreplay
    have hg : NotAbandoned p s e := by
      cases e with
      | sendZero q hwnd =>
        -- a process that shows its frame is not in `SendMessageTimeoutW`
        rintro rfl
        rw [(hu.waiting hwnd (step_eq_some hstep).1).1] at hsh
        exact absurd hsh Bool.false_ne_true
      | _ => trivial
    exact ⟨unacted_step hu hg hstep, (step_move hstep p).shown hsh⟩
  rintro ⟨fs, s', hreplay, e, he, hsender, -⟩
  obtain ⟨hu, hsh⟩ := hfinal s ⟨unacted_reaches h, hshown⟩ fs s' hreplay
  have hnil := hu.nil_of_mail fun result hd => by
    rcases hu.shown hsh with hmail | hmail | ⟨hwnd, htarget, -⟩
    · rw [hmail] at hd
      simp at hd
    · rw [hmail] at hd
      exact (Mail.done.inj hd).symm
    · rw [hd] at htarget
      simp [Mail.target] at htarget
  have hmem : e.command_line ∈ s'.handledFor p := mem_handledFor.mpr ⟨e, he, hsender, rfl⟩
  rw [hnil] at hmem
  exact List.not_mem_nil hmem

/-- The window's process exits while the message of the second one is on its way. -/
theorem acted_once_target_gone :
    ∃ s, (system ⟨id, fun _ => []⟩).Run (NotAbandoned 2)
        [.start 1 [], .find 1 none, .initFind 1 none, .create 1 7,
          .start 2 [], .find 2 (some 7), .send 2 7, .exit 1, .sendZero 2 7] s ∧
      (s.procs 2).shown = true ∧ ¬ ActedElsewhere ⟨id, fun _ => []⟩ s 2 :=
  have hrun := Automaton.run_of_replay rfl
  ⟨_, hrun, rfl, acted_once _ _ _ 2 hrun rfl⟩

/-- After 15 seconds the sender shows its own frame; then the message is taken. -/
theorem timed_out_acted_twice :
    ∃ s, (system ⟨id, fun _ => []⟩).Reaches
        [.start 1 [], .find 1 none, .initFind 1 none, .create 1 7, .wmCreate 1 7, .created 1 7,
          .start 2 [], .find 2 (some 7), .send 2 7, .sendZero 2 7] s ∧
      (s.procs 2).shown = true ∧ ActedElsewhere ⟨id, fun _ => []⟩ s 2 := by
  refine ⟨_, Automaton.run_iff_replay.mpr rfl, rfl, [.deliver 2 7], _, rfl, ?_⟩
  exact ⟨⟨1, 2, .empty⟩, by decide, rfl, by decide⟩

end Instances

end SearchAndIdna

import SearchAndIdna.SearchFrame

/-!
# The maximize and the restore button

Both title-bar buttons are served by `SearchFrame::OnBtnMaximize`, which asks
`IsZoomed`, shows the one button by its id and hides the one that was clicked.
`OnSize` changes neither, so a size change that does not come from the buttons
can leave the wrong one visible, and the next click then hides both for good.

* `Placement`, `Frame.showWindow`: the window, as the system keeps it;
* `Frame.onNotify`, `titleBar`: the notify map, and the runs of the frame;
* `step_cases`: what one step can do;
* `Tracks`, `tracks_step`: the visible button tells how the window comes back;
* `buttons_follow`: every run without such a size change, and no other step;
* `hidden_forever`: no click and no size change brings the buttons back.
-/

namespace SearchAndIdna

namespace SearchFrame

def SW_MAXIMIZE : Nat := 3

def SW_MINIMIZE : Nat := 6

/-- The buttons of the layout's title bar. -/
inductive SysBtn
  | close
  | maximize
  | restore
  | minimize
  deriving DecidableEq, Repr

/-- The state of a window; a minimized one keeps whether it comes back maximized. -/
inductive Placement
  | normal
  | zoomed
  | minimized (restoreToMaximized : Bool)
  deriving DecidableEq, Repr

/-- The `wParam` of a WM_SIZE. -/
inductive SizeType
  | restored
  | minimized
  | maximized
  deriving DecidableEq, Repr

namespace Placement

/-- SW_MINIMIZE. -/
def minimize : Placement → Placement
  | normal => minimized false
  | zoomed => minimized true
  | minimized restoreToMaximized => minimized restoreToMaximized

/-- SW_RESTORE. -/
def restore : Placement → Placement
  | minimized true => zoomed
  | _ => normal

/-- The type of the WM_SIZE that tells of the placement. -/
def sizeType : Placement → SizeType
  | normal => .restored
  | zoomed => .maximized
  | minimized _ => .minimized

/-- The placement behind a WM_SIZE of the type. -/
def sized (p : Placement) : SizeType → Placement
  | .restored => normal
  | .minimized => p.minimize
  | .maximized => zoomed

/-- Zoomed, or to be zoomed again when it is restored. -/
def comesBackZoomed : Placement → Bool
  | normal => false
  | zoomed => true
  | minimized restoreToMaximized => restoreToMaximized

end Placement

/-- `RCMiniUIFrameWindow`, which gets a WM_SIZE behind the frame's own `OnSize`. -/
structure FrameWindow where
  onSize : SizeType → (SysBtn → Bool) → SysBtn → Bool

/-- The library lays its views out and leaves it to the program which ones are visible. -/
def FrameWindow.LeavesButtons (ui : FrameWindow) : Prop :=
  ∀ type visible, ui.onSize type visible = visible

/-- The frame's buttons, its window, and the messages it has posted to itself. -/
structure Frame where
  visible : SysBtn → Bool
  placement : Placement
  posted : List UInt32

namespace Frame

/-- `frame_main.xml`: every button is visible but `<imgbtn id="11003" visible="0">`. -/
def layout : Frame where
  visible
    | .restore => false
    | _ => true
  placement := .normal
  posted := []

def isZoomed (f : Frame) : Bool := f.placement = .zoomed

def isIconic (f : Frame) : Bool :=
  match f.placement with
  | .minimized _ => true
  | _ => false

/-- `GetViewByID(id)->SetVisible(visible)`; the layout has every button. -/
def setVisible (f : Frame) (id : SysBtn) (visible : Bool) : Frame :=
  { f with visible := Function.update f.visible id visible }

/-- `SearchFrame::OnSize`: SetMsgHandled(FALSE), and nothing else. -/
def onSize (f : Frame) (_type : SizeType) : Frame := f

/-- A WM_SIZE, with the placement it tells of. -/
def wmSize (ui : FrameWindow) (f : Frame) (type : SizeType) (placement : Placement) : Frame :=
  let f := { f with placement := placement }.onSize type
  { f with visible := ui.onSize type f.visible }

/-- The window gets a WM_SIZE if its placement changes. -/
def place (ui : FrameWindow) (f : Frame) (placement : Placement) : Frame :=
  if placement = f.placement then f else f.wmSize ui placement.sizeType placement

/-- `ShowWindow`, for the commands of the program. -/
def showWindow (ui : FrameWindow) (f : Frame) (command : Nat) : Frame :=
  if command = SW_MAXIMIZE then f.place ui .zoomed
  else if command = SW_MINIMIZE then f.place ui f.placement.minimize
  else if command = SW_RESTORE then f.place ui f.placement.restore
  else f

def onBtnClose (f : Frame) : Frame := { f with posted := f.posted ++ [WM_CLOSE] }

def onBtnMaximize (ui : FrameWindow) (f : Frame) (view : SysBtn) : Frame :=
  if f.isZoomed then
    ((f.setVisible .maximize true).setVisible view false).showWindow ui SW_RESTORE
  else
    ((f.setVisible .restore true).setVisible view false).showWindow ui SW_MAXIMIZE

def onBtnMinimize (ui : FrameWindow) (f : Frame) : Frame := f.showWindow ui SW_MINIMIZE

/-- The notify map. -/
def onNotify (ui : FrameWindow) (f : Frame) : SysBtn → Frame
  | .close => f.onBtnClose
  | .maximize => f.onBtnMaximize ui .maximize
  | .restore => f.onBtnMaximize ui .restore
  | .minimize => f.onBtnMinimize ui

/-- What `ProcessCopyDataCommand` asks of the window. -/
def perform (ui : FrameWindow) (f : Frame) (calls : List FrameCall) : Frame :=
  calls.foldl
    (fun f call =>
      match call with
      | .showWindow command => f.showWindow ui command
      | .setForegroundWindow => f) f

end Frame

/-! ## Runs -/

/-- A click on a visible button, a size change from outside the buttons, or the
command line of another process. -/
inductive Event
  | click (button : SysBtn)
  | size (type : SizeType)
  | copyData (command_line : CommandLine)

def step (ui : FrameWindow) (f : Frame) : Event → Option Frame
  | .click button => if f.visible button then some (f.onNotify ui button) else none
  | .size type => some (f.wmSize ui type (f.placement.sized type))
  | .copyData command_line => some (f.perform ui (processCopyDataCommand f.isIconic command_line))

def titleBar (ui : FrameWindow) : Automaton Frame Event := ⟨Frame.layout, step ui⟩

/-- Exactly one of the two buttons is visible, and while the window is not
minimized it is the restore button if and only if the window is zoomed. -/
def Follows (f : Frame) : Prop :=
  f.visible .maximize = !f.visible .restore ∧
    (f.isIconic = false → f.visible .restore = f.isZoomed)

instance (f : Frame) : Decidable (Follows f) := inferInstanceAs (Decidable (_ ∧ _))

/-- From outside, a window that comes back zoomed is not restored and no other is
maximized, and the two buttons are not clicked while a maximized window is minimized. -/
def Undisturbed (f : Frame) : Event → Prop
  | .click .maximize | .click .restore => f.placement ≠ .minimized true
  | .click _ => True
  | .size .restored => f.placement.comesBackZoomed = false
  | .size .maximized => f.placement.comesBackZoomed = true
  | .size .minimized => True
  | .copyData _ => True

instance (f : Frame) : (e : Event) → Decidable (Undisturbed f e)
  | .click .maximize | .click .restore => inferInstanceAs (Decidable (_ ≠ _))
  | .click .close | .click .minimize => .isTrue trivial
  | .size .restored | .size .maximized => inferInstanceAs (Decidable (_ = _))
  | .size .minimized => .isTrue trivial
  | .copyData _ => .isTrue trivial

/-! ## One step -/

namespace Frame

variable {ui : FrameWindow}

theorem wmSize_eq (hui : ui.LeavesButtons) (f : Frame) (type : SizeType) (p : Placement) :
    f.wmSize ui type p = { f with placement := p } := by
  rw [wmSize, hui]
  rfl

theorem place_eq (hui : ui.LeavesButtons) (f : Frame) (p : Placement) :
    f.place ui p = { f with placement := p } := by
  rw [place, wmSize_eq hui]
  split
  · rename_i hp
    rw [hp]
  · rfl

theorem onBtnMaximize_of_zoomed (hui : ui.LeavesButtons) {f : Frame} (hz : f.placement = .zoomed)
    (view : SysBtn) :
    f.onBtnMaximize ui view =
      { (f.setVisible .maximize true).setVisible view false with placement := .normal } := by
  have hzoomed : f.isZoomed = true := decide_eq_true hz
  rw [onBtnMaximize, if_pos hzoomed]
  change Frame.place ui _ f.placement.restore = _
  rw [place_eq hui, hz]
  rfl

theorem onBtnMaximize_of_not_zoomed (hui : ui.LeavesButtons) {f : Frame}
    (hz : f.placement ≠ .zoomed) (view : SysBtn) :
    f.onBtnMaximize ui view =
      { (f.setVisible .restore true).setVisible view false with placement := .zoomed } := by
  have hzoomed : ¬ f.isZoomed = true := mt of_decide_eq_true hz
  rw [onBtnMaximize, if_neg hzoomed]
  exact place_eq hui _ _

theorem onBtnMinimize_eq (hui : ui.LeavesButtons) (f : Frame) :
    f.onBtnMinimize ui = { f with placement := f.placement.minimize } :=
  place_eq hui _ _

/-- The command line of another process restores a minimized window, or does nothing. -/
theorem perform_copyData (hui : ui.LeavesButtons) (f : Frame) (command_line : CommandLine) :
    f.perform ui (processCopyDataCommand f.isIconic command_line) = f ∨
      f.isIconic = true ∧
        f.perform ui (processCopyDataCommand f.isIconic command_line) =
          { f with placement := f.placement.restore } := by
  rw [processCopyDataCommand]
  split
  · exact Or.inl rfl
  · cases hi : f.isIconic with
    | false => exact Or.inl rfl
    | true => exact Or.inr ⟨rfl, place_eq hui _ _⟩

theorem isIconic_iff (f : Frame) : f.isIconic = true ↔ ∃ r, f.placement = .minimized r := by
  rw [isIconic]
  cases f.placement with
  | normal => simp
  | zoomed => simp
  | minimized r => simp

end Frame

theorem Placement.comesBackZoomed_minimize (p : Placement) :
    p.minimize.comesBackZoomed = p.comesBackZoomed := by
  cases p <;> rfl

theorem Placement.comesBackZoomed_restore (r : Bool) :
    (minimized r).restore.comesBackZoomed = r := by
  cases r <;> rfl

/-- The restore button is visible if the window comes back zoomed, the maximize
button if it does not. -/
structure Tracks (f : Frame) : Prop where
  restore : f.visible .restore = f.placement.comesBackZoomed
  maximize : f.visible .maximize = !f.placement.comesBackZoomed

theorem tracks_layout : Tracks Frame.layout := ⟨rfl, rfl⟩

/-- A change of the placement alone. -/
theorem tracks_placement {f : Frame} (hf : Tracks f) {p : Placement}
    (h : p.comesBackZoomed = f.placement.comesBackZoomed) :
    Tracks { f with placement := p } :=
  ⟨hf.restore.trans h.symm, hf.maximize.trans (congrArg not h.symm)⟩

theorem Tracks.follows {f : Frame} (hf : Tracks f) : Follows f := by
  refine ⟨by rw [hf.restore, hf.maximize], fun hi => ?_⟩
  rw [hf.restore, Frame.isZoomed]
  cases hp : f.placement with
  | normal => rfl
  | zoomed => rfl
  | minimized r =>
    have hiconic := f.isIconic_iff.mpr ⟨r, hp⟩
    exact absurd (hi.symm.trans hiconic) Bool.false_ne_true

/-- Away from `minimized`, the buttons only follow the placement they track. -/
theorem comesBackZoomed_of_follows {f : Frame} (hf : Tracks f) {p : Placement}
    (hp : ∀ r, p ≠ .minimized r) (h : Follows { f with placement := p }) :
    f.placement.comesBackZoomed = p.comesBackZoomed := by
  have hzoomed := h.2
  cases p with
  | normal => exact hf.restore.symm.trans (hzoomed rfl)
  | zoomed => exact hf.restore.symm.trans (hzoomed rfl)
  | minimized r => exact absurd rfl (hp r)

section Step

variable {ui : FrameWindow} {f f' : Frame}

/-- What a step can do. -/
theorem step_cases (hui : ui.LeavesButtons) {e : Event} (h : step ui f e = some f') :
    (∃ button, e = .click button ∧ f.visible button = true ∧ f' = f.onNotify ui button) ∨
    (∃ type, e = .size type ∧ f' = { f with placement := f.placement.sized type }) ∨
    ∃ command_line, e = .copyData command_line ∧ (f' = f ∨
      ∃ r, f.placement = .minimized r ∧ f' = { f with placement := f.placement.restore }) := by
  cases e with
  | click button =>
    rw [step] at h
    split at h
    · rename_i hvisible
      exact Or.inl ⟨button, rfl, hvisible, (Option.some.inj h).symm⟩
    · exact absurd h.symm (Option.some_ne_none _)
  | size type =>
    rw [step, Frame.wmSize_eq hui] at h
    exact Or.inr (Or.inl ⟨type, rfl, (Option.some.inj h).symm⟩)
  | copyData command_line =>
    rw [step] at h
    obtain rfl := Option.some.inj h
    refine Or.inr (Or.inr ⟨command_line, rfl, ?_⟩)
    rcases Frame.perform_copyData hui f command_line with hsame | ⟨hi, hrestored⟩
    · exact Or.inl hsame
    · obtain ⟨r, hp⟩ := f.isIconic_iff.mp hi
      exact Or.inr ⟨r, hp, hrestored⟩

/-- A click on the maximize button, or on the restore button of a zoomed window. -/
theorem tracks_onBtnMaximize (hui : ui.LeavesButtons) (hf : Tracks f) {view : SysBtn}
    (hview : view = .maximize ∨ view = .restore) (hvisible : f.visible view = true)
    (hp : f.placement ≠ .minimized true) : Tracks (f.onBtnMaximize ui view) := by
  by_cases hz : f.placement = .zoomed
  · have hrestore : view = .restore := by
      rcases hview with rfl | rfl
      · rw [hf.maximize, hz] at hvisible
        exact absurd hvisible Bool.false_ne_true
      · rfl
    rw [Frame.onBtnMaximize_of_zoomed hui hz, hrestore]
    exact ⟨rfl, rfl⟩
  · have hmaximize : view = .maximize := by
      rcases hview with rfl | rfl
      · rfl
      · rw [hf.restore] at hvisible
        cases hp' : f.placement with
        | normal => rw [hp'] at hvisible; exact absurd hvisible Bool.false_ne_true
        | zoomed => exact absurd hp' hz
        | minimized r =>
          rw [hp'] at hvisible
          exact absurd (hp'.trans (congrArg Placement.minimized hvisible)) hp
    rw [Frame.onBtnMaximize_of_not_zoomed hui hz, hmaximize]
    exact ⟨rfl, rfl⟩

/-- On a window minimized from zoomed the restore button hides itself. -/
theorem not_follows_of_minimized (hui : ui.LeavesButtons) (hf : Tracks f) {view : SysBtn}
    (hview : view = .maximize ∨ view = .restore) (hvisible : f.visible view = true)
    (hp : f.placement = .minimized true) : ¬ Follows (f.onBtnMaximize ui view) := by
  have hhidden : f.visible .maximize = false := by
    rw [hf.maximize, hp]
    rfl
  have hrestore : view = .restore := by
    rcases hview with rfl | rfl
    · exact absurd (hhidden.symm.trans hvisible) Bool.false_ne_true
    · rfl
  have hz : f.placement ≠ .zoomed := by
    rw [hp]
    exact Placement.noConfusion
  rw [Frame.onBtnMaximize_of_not_zoomed hui hz, hrestore]
  intro h
  have hone : f.visible .maximize = !false := h.1
  exact absurd (hhidden.symm.trans hone) Bool.false_ne_true

/-- An undisturbed step keeps the buttons right, and any other one does not. -/
theorem tracks_step (hui : ui.LeavesButtons) (hf : Tracks f) {e : Event}
    (h : step ui f e = some f') :
    (Undisturbed f e → Tracks f') ∧ (Follows f' → Undisturbed f e) := by
  obtain ⟨button, rfl, hvisible, rfl⟩ | ⟨type, rfl, rfl⟩ | ⟨_, rfl, hsame | ⟨r, hp, rfl⟩⟩ :=
    step_cases hui h
  · cases button with
    | close => exact ⟨fun _ => ⟨hf.restore, hf.maximize⟩, fun _ => trivial⟩
    | maximize =>
      exact ⟨fun hp => tracks_onBtnMaximize hui hf (Or.inl rfl) hvisible hp,
        fun hfollows hp => not_follows_of_minimized hui hf (Or.inl rfl) hvisible hp hfollows⟩
    | restore =>
      exact ⟨fun hp => tracks_onBtnMaximize hui hf (Or.inr rfl) hvisible hp,
        fun hfollows hp => not_follows_of_minimized hui hf (Or.inr rfl) hvisible hp hfollows⟩
    | minimize =>
      refine ⟨fun _ => ?_, fun _ => trivial⟩
      rw [Frame.onNotify, Frame.onBtnMinimize_eq hui]
      exact tracks_placement hf f.placement.comesBackZoomed_minimize
  · cases type with
    | restored =>
      exact ⟨fun hg => tracks_placement hf hg.symm,
        fun hfollows => comesBackZoomed_of_follows hf (fun _ => Placement.noConfusion) hfollows⟩
    | minimized =>
      exact ⟨fun _ => tracks_placement hf f.placement.comesBackZoomed_minimize, fun _ => trivial⟩
    | maximized =>
      exact ⟨fun hg => tracks_placement hf hg.symm,
        fun hfollows => comesBackZoomed_of_follows hf (fun _ => Placement.noConfusion) hfollows⟩
  · exact ⟨fun _ => hsame ▸ hf, fun _ => trivial⟩
  · refine ⟨fun _ => tracks_placement hf ?_, fun _ => trivial⟩
    rw [hp]
    exact Placement.comesBackZoomed_restore r

end Step

/-! ## Every run -/

/-- **The buttons follow the window** in every undisturbed run, up to the first step
that is not: behind that one they do not. -/
theorem buttons_follow (ui : FrameWindow) (hui : ui.LeavesButtons) (es : List Event) (f : Frame)
    (h : (titleBar ui).Run Undisturbed es f) :
    Follows f ∧ ∀ e f', step ui f e = some f' → (Follows f' ↔ Undisturbed f e) := by
  have htracks : Tracks f :=
    h.invariant tracks_layout fun _ _ _ hf hg hstep => (tracks_step hui hf hstep).1 hg
  refine ⟨htracks.follows, fun e f' hstep => ?_⟩
  have hstep := tracks_step hui htracks hstep
  exact ⟨hstep.2, fun hg => (hstep.1 hg).follows⟩

/-- The library as far as it matters here. -/
def plainWindow : FrameWindow := ⟨fun _ visible => visible⟩

/-- Maximized by a click, minimized from outside, restored by another process, and
restored by a click. -/
theorem buttons_follow_round :
    ∃ f, (titleBar plainWindow).Run Undisturbed
        [.click .maximize, .size .minimized, .copyData CommandLine.empty, .click .restore] f ∧
      Follows f ∧ f.placement = .normal ∧ f.visible .maximize = true := by
  have hrun : (titleBar plainWindow).Run Undisturbed
      [.click .maximize, .size .minimized, .copyData CommandLine.empty, .click .restore] _ :=
    Automaton.run_of_replay rfl
  exact ⟨_, hrun, (buttons_follow plainWindow (fun _ _ => rfl) _ _ hrun).1, rfl, rfl⟩

/-- Maximized from outside, the window keeps its maximize button, and a click on it
hides both. -/
theorem maximized_from_outside :
    ∃ f f', (titleBar plainWindow).Reaches [.size .maximized] f ∧ ¬ Follows f ∧
      step plainWindow f (.click .maximize) = some f' ∧
      f'.visible .maximize = false ∧ f'.visible .restore = false :=
  ⟨_, _, Automaton.run_iff_replay.mpr rfl, by decide, rfl, rfl, rfl⟩

/-! ## Hidden buttons -/

def Hidden (f : Frame) : Prop := f.visible .maximize = false ∧ f.visible .restore = false

theorem hidden_step {ui : FrameWindow} (hui : ui.LeavesButtons) {f f' : Frame} {e : Event}
    (hf : Hidden f) (h : step ui f e = some f') : Hidden f' := by
  obtain ⟨button, rfl, hvisible, rfl⟩ | ⟨type, rfl, rfl⟩ | ⟨_, rfl, hsame | ⟨r, -, rfl⟩⟩ :=
    step_cases hui h
  · cases button with
    | close => exact hf
    | maximize => exact absurd (hf.1.symm.trans hvisible) Bool.false_ne_true
    | restore => exact absurd (hf.2.symm.trans hvisible) Bool.false_ne_true
    | minimize =>
      rw [Frame.onNotify, Frame.onBtnMinimize_eq hui]
      exact hf
  · exact hf
  · exact hsame ▸ hf
  · exact hf

/-- Once both buttons are hidden they stay hidden. -/
theorem hidden_forever {ui : FrameWindow} (hui : ui.LeavesButtons) {es : List Event} {f f' : Frame}
    (hf : Hidden f) (h : (titleBar ui).replay f es = some f') : Hidden f' :=
  Automaton.replay_invariant (P := Hidden) (fun _ _ _ hf hstep => hidden_step hui hf hstep) hf h

end SearchFrame

end SearchAndIdna

import SearchAndIdna.Lib.Automaton

/-!
# The message-only window

`MessageWindow` is a singleton that owns at most one message-only window.  Its
window procedure runs inside `CreateWindowW`, inside `DestroyWindow` and for
every message of another process, and it nests: the callback and
`DefWindowProcW` may send messages and make calls of their own.  An `Activity`
is one such tree of calls, with the answers of the callback and of
`DefWindowProcW` in it; running it is the code's part.

* `Activity.run_quiet`: an activity without creation and destruction only
  offers messages;
* `Sound`: the object and the windows agree;
* `sound_create`, `sound_deliver`, `destruct_sound`: the three calls, each under
  the condition it needs, and `create_over_unsound`, `closed_unsound` without it;
* `never_stale`: every run whose steps meet these conditions.
-/

namespace SearchAndIdna

/-- A window handle; NULL is the `none` of `Option Hwnd`. -/
abbrev Hwnd := Nat

/-- `LRESULT`. -/
abbrev LResult := Int

def WM_CREATE : UInt32 := 0x0001

def WM_DESTROY : UInt32 := 0x0002

def WM_CLOSE : UInt32 := 0x0010

def WM_COPYDATA : UInt32 := 0x004a

structure Message where
  message : UInt32
  wparam : UInt64 := 0
  lparam : UInt64 := 0
  deriving DecidableEq, Repr

/-- `MessageWindow`, with the callbacks `κ` and the user data `υ` it may hold. -/
structure MessageWindow (κ υ : Type) where
  callback_ : Option κ
  window_ : Option Hwnd
  user_data_ : Option υ
  deriving DecidableEq, Repr

/-- `MessageWindow::WindowClass`; the atom is 0 when the registration failed. -/
structure WindowClass where
  atom_ : UInt16
  deriving DecidableEq, Repr

/-- What a message is given to. -/
inductive Entry (κ υ : Type)
  | offered (callback : κ) (user_data : Option υ) (m : Message)
  | returned (hwnd : Hwnd) (m : Message) (result : LResult)
  deriving DecidableEq, Repr

/-- The object, the static registration, the live windows of the class, each with
whether its GWLP_USERDATA is the object, and what was offered and returned. -/
structure World (κ υ : Type) where
  object : MessageWindow κ υ
  class_instance_ : Option WindowClass
  userData : Hwnd → Option Bool
  log : List (Entry κ υ)

namespace World

variable {κ υ : Type}

def initial : World κ υ := ⟨⟨none, none, none⟩, none, fun _ => none, []⟩

def setUserData (s : World κ υ) (hwnd : Hwnd) (this : Option Bool) : World κ υ :=
  { s with userData := Function.update s.userData hwnd this }

def setWindow (s : World κ υ) (window : Option Hwnd) : World κ υ :=
  { s with object := { s.object with window_ := window } }

/-- The `switch` of `WindowProc`: whether `self` is the object, and the state
behind it.  WM_CREATE comes from `CreateWindowW` alone, with the object in
`lpCreateParams`. -/
def switch (s : World κ υ) (hwnd : Hwnd) (message : UInt32) : Bool × World κ υ :=
  let self := s.userData hwnd == some true
  if message = WM_CREATE then (true, (s.setWindow (some hwnd)).setUserData hwnd (some true))
  else if message = WM_DESTROY then (self, s.setUserData hwnd (some false))
  else (self, s)

/-- `MessageWindow::WindowProc`, with the callback's answer (`none` is `false`) and
`DefWindowProcW`. -/
def windowProc (callback : World κ υ → World κ υ × Option LResult)
    (defWindowProc : World κ υ → World κ υ × LResult) (hwnd : Hwnd) (m : Message)
    (s : World κ υ) : World κ υ × LResult :=
  let (self, s) := s.switch hwnd m.message
  match self, s.object.callback_ with
  | true, some callback_ =>
    match callback { s with log := s.log ++ [.offered callback_ s.object.user_data_ m] } with
    | (s, some message_result) => (s, message_result)
    | (s, none) => defWindowProc s
  | _, _ => defWindowProc s

def returned (hwnd : Hwnd) (m : Message) (r : World κ υ × LResult) : World κ υ × LResult :=
  ({ r.1 with log := r.1.log ++ [.returned hwnd m r.2] }, r.2)

/-- `DestroyWindow`: WM_DESTROY and what follows it, then the window is gone. -/
def destroyWindow (hwnd : Hwnd) (messages : World κ υ → World κ υ) (s : World κ υ) :
    World κ υ × Bool :=
  if s.userData hwnd = none then (s, false) else ((messages s).setUserData hwnd none, true)

/-- `MessageWindow::CreateMessageOnlyWindow`; `atom` is what `RegisterClassExW`
returns if it is called. -/
def createMessageOnlyWindow (user_data : Option υ) (callback : Option κ) (atom : UInt16)
    (createWindow : World κ υ → World κ υ × Option Hwnd) (s : World κ υ) : World κ υ × Bool :=
  let s := { s with
    object := { s.object with user_data_ := user_data, callback_ := callback }
    class_instance_ := some (s.class_instance_.getD ⟨atom⟩) }
  let r := createWindow s
  (r.1.setWindow r.2, r.2.isSome)

end World

mutual

/-- Calls on the thread of the object, one after the other. -/
inductive Activity (κ υ : Type)
  | idle
  | deliver (hwnd : Hwnd) (m : Message) (reaction : Reaction κ υ) (next : Activity κ υ)
  | destroyWindow (hwnd : Hwnd) (reaction : Reaction κ υ) (after next : Activity κ υ)
  | createMessageOnlyWindow (user_data : Option υ) (callback : Option κ) (atom : UInt16)
      (attempt : Attempt κ υ) (next : Activity κ υ)

/-- How one message is taken: what the callback answers and `DefWindowProcW`
returns, and what happens inside them.  `DefWindowProcW` answers WM_CLOSE by
`DestroyWindow`. -/
inductive Reaction (κ υ : Type)
  | mk (answer : Option LResult) (inCallback : Activity κ υ) (result : LResult)
      (inDefault : Activity κ υ)

/-- What `CreateWindowW` does: nothing, or a window, which gets WM_CREATE and, if
that is answered by -1, WM_DESTROY. -/
inductive Attempt (κ υ : Type)
  | refused
  | made (hwnd : Hwnd) (before : Activity κ υ) (create destroy : Reaction κ υ)
      (after : Activity κ υ)

end

section Running

variable {κ υ : Type}

mutual

def Activity.run : Activity κ υ → World κ υ → World κ υ
  | .idle, s => s
  | .deliver hwnd m reaction next, s =>
    next.run (if s.userData hwnd = none then s else (reaction.windowProc hwnd m s).1)
  | .destroyWindow hwnd reaction after next, s =>
    next.run (s.destroyWindow hwnd fun s =>
      after.run (reaction.windowProc hwnd ⟨WM_DESTROY, 0, 0⟩ s).1).1
  | .createMessageOnlyWindow user_data callback atom attempt next, s =>
    next.run (s.createMessageOnlyWindow user_data callback atom attempt.createWindow).1

def Reaction.windowProc : Reaction κ υ → Hwnd → Message → World κ υ → World κ υ × LResult
  | .mk answer inCallback result inDefault, hwnd, m, s =>
    World.returned hwnd m
      (World.windowProc (fun s => (inCallback.run s, answer)) (fun s => (inDefault.run s, result))
        hwnd m s)

/-- `CreateWindowW` for the registered class. -/
def Attempt.createWindow : Attempt κ υ → World κ υ → World κ υ × Option Hwnd
  | .refused, s => (s, none)
  | .made hwnd before create destroy after, s =>
    if s.class_instance_ = some ⟨0⟩ ∨ s.userData hwnd ≠ none then (s, none)
    else
      let r := create.windowProc hwnd ⟨WM_CREATE, 0, 0⟩ (before.run (s.setUserData hwnd (some false)))
      if r.2 = -1 then
        ((after.run (destroy.windowProc hwnd ⟨WM_DESTROY, 0, 0⟩ r.1).1).setUserData hwnd none, none)
      else (after.run r.1, some hwnd)

end

mutual

/-- Neither creates nor destroys a window. -/
def Activity.quiet : Activity κ υ → Bool
  | .idle => true
  | .deliver _ m reaction next =>
    m.message ≠ WM_CREATE && m.message ≠ WM_DESTROY && reaction.quiet && next.quiet
  | .destroyWindow .. => false
  | .createMessageOnlyWindow .. => false

def Reaction.quiet : Reaction κ υ → Bool
  | .mk _ inCallback _ inDefault => inCallback.quiet && inDefault.quiet

end

def Attempt.quiet : Attempt κ υ → Bool
  | .refused => true
  | .made _ before create destroy after =>
    before.quiet && create.quiet && destroy.quiet && after.quiet

/-! ## Quiet activities -/

/-- Equal but for what was offered and returned. -/
def World.SameWindows (s t : World κ υ) : Prop :=
  s.object = t.object ∧ s.class_instance_ = t.class_instance_ ∧ s.userData = t.userData

namespace World.SameWindows

theorem refl (s : World κ υ) : s.SameWindows s := ⟨rfl, rfl, rfl⟩

theorem trans {s t u : World κ υ} (h : s.SameWindows t) (h' : t.SameWindows u) :
    s.SameWindows u :=
  ⟨h.1.trans h'.1, h.2.1.trans h'.2.1, h.2.2.trans h'.2.2⟩

theorem setUserData {s t : World κ υ} (h : s.SameWindows t) (hwnd : Hwnd) (this : Option Bool) :
    (s.setUserData hwnd this).SameWindows (t.setUserData hwnd this) :=
  ⟨h.1, h.2.1, by rw [World.setUserData, World.setUserData, h.2.2]⟩

theorem setWindow {s t : World κ υ} (h : s.SameWindows t) (window : Option Hwnd) :
    (s.setWindow window).SameWindows (t.setWindow window) :=
  ⟨congrArg (fun o : MessageWindow κ υ => { o with window_ := window }) h.1, h.2.1, h.2.2⟩

end World.SameWindows

/-- The state behind the switch is kept by the offer and the default. -/
theorem World.windowProc_sameWindows {callback : World κ υ → World κ υ × Option LResult}
    {default : World κ υ → World κ υ × LResult} (hc : ∀ s, (callback s).1.SameWindows s)
    (hd : ∀ s, (default s).1.SameWindows s) (hwnd : Hwnd) (m : Message) (s : World κ υ) :
    (World.windowProc callback default hwnd m s).1.SameWindows (s.switch hwnd m.message).2 := by
  rw [World.windowProc]
  generalize s.switch hwnd m.message = r
  obtain ⟨self, t⟩ := r
  simp only
  split
  · rename_i callback_ _
    have hoffer := hc { t with log := t.log ++ [.offered callback_ t.object.user_data_ m] }
    generalize callback _ = r at hoffer
    obtain ⟨u, answer⟩ := r
    have hoffer : u.SameWindows t := hoffer
    cases answer with
    | some result => exact hoffer
    | none => exact (hd u).trans hoffer
  · exact hd t

theorem World.switch_of_ne {hwnd : Hwnd} {message : UInt32} (hc : message ≠ WM_CREATE)
    (hd : message ≠ WM_DESTROY) (s : World κ υ) : (s.switch hwnd message).2 = s := by
  rw [World.switch, if_neg hc, if_neg hd]

mutual

/-- **Quiet activities keep the object and the windows.** -/
theorem Activity.run_quiet (a : Activity κ υ) (h : a.quiet = true) (s : World κ υ) :
    (a.run s).SameWindows s := by
  match a with
  | .idle => exact .refl s
  | .deliver hwnd m reaction next =>
    simp only [Activity.quiet, Bool.and_eq_true, decide_eq_true_eq] at h
    obtain ⟨⟨⟨hc, hd⟩, hr⟩, hn⟩ := h
    refine (Activity.run_quiet next hn _).trans ?_
    split
    · exact .refl s
    · have hproc := Reaction.windowProc_quiet reaction hr hwnd m s
      rwa [World.switch_of_ne hc hd] at hproc
  | .destroyWindow .. => exact absurd h Bool.false_ne_true
  | .createMessageOnlyWindow .. => exact absurd h Bool.false_ne_true

/-- A message with a quiet reaction changes only what the switch changes. -/
theorem Reaction.windowProc_quiet (r : Reaction κ υ) (h : r.quiet = true) (hwnd : Hwnd)
    (m : Message) (s : World κ υ) :
    (r.windowProc hwnd m s).1.SameWindows (s.switch hwnd m.message).2 := by
  match r with
  | .mk answer inCallback result inDefault =>
    simp only [Reaction.quiet, Bool.and_eq_true] at h
    exact World.windowProc_sameWindows (fun s => Activity.run_quiet inCallback h.1 s)
      (fun s => Activity.run_quiet inDefault h.2 s) hwnd m s

end

/-! ## Creation and destruction -/

theorem World.setUserData_setUserData (s : World κ υ) (hwnd : Hwnd) (a b : Option Bool) :
    (s.setUserData hwnd a).setUserData hwnd b = s.setUserData hwnd b := by
  simp [World.setUserData]

theorem World.setUserData_setWindow (s : World κ υ) (hwnd : Hwnd) (a : Option Bool)
    (window : Option Hwnd) :
    (s.setUserData hwnd a).setWindow window = (s.setWindow window).setUserData hwnd a := rfl

theorem World.setUserData_self (s : World κ υ) {hwnd : Hwnd} {a : Option Bool}
    (h : s.userData hwnd = a) : s.setUserData hwnd a = s := by
  rw [World.setUserData, ← h, Function.update_eq_self]

theorem Activity.destroying_quiet {r : Reaction κ υ} {after : Activity κ υ}
    (hr : r.quiet = true) (ha : after.quiet = true) (hwnd : Hwnd) (s : World κ υ) :
    ((after.run (r.windowProc hwnd ⟨WM_DESTROY, 0, 0⟩ s).1).setUserData hwnd none).SameWindows
      (s.setUserData hwnd none) := by
  have hproc := Reaction.windowProc_quiet r hr hwnd ⟨WM_DESTROY, 0, 0⟩ s
  have hswitch : (s.switch hwnd WM_DESTROY).2 = s.setUserData hwnd (some false) := rfl
  have hrun := ((Activity.run_quiet after ha _).trans hproc).setUserData hwnd none
  rwa [hswitch, World.setUserData_setUserData] at hrun

/-- `CreateWindowW` gives no window and changes nothing but `window_`, or gives a
new window that has the object. -/
theorem Attempt.createWindow_quiet (attempt : Attempt κ υ) (h : attempt.quiet = true)
    (s : World κ υ) :
    (attempt.createWindow s).2 = none ∧
        ((attempt.createWindow s).1.setWindow none).SameWindows (s.setWindow none) ∨
      ∃ hwnd, s.userData hwnd = none ∧ (attempt.createWindow s).2 = some hwnd ∧
        (attempt.createWindow s).1.SameWindows
          ((s.setWindow (some hwnd)).setUserData hwnd (some true)) := by
  cases attempt with
  | refused => exact Or.inl ⟨rfl, .refl _⟩
  | made hwnd before create destroy after =>
    simp only [Attempt.quiet, Bool.and_eq_true] at h
    obtain ⟨⟨⟨hb, hc⟩, hd⟩, ha⟩ := h
    rw [Attempt.createWindow]
    split
    · exact Or.inl ⟨rfl, .refl _⟩
    · rename_i hnew
      obtain ⟨-, hfresh⟩ := not_or.mp hnew
      have hfresh : s.userData hwnd = none := not_not.mp hfresh
      have hbefore := Activity.run_quiet before hb (s.setUserData hwnd (some false))
      have hcreate := Reaction.windowProc_quiet create hc hwnd ⟨WM_CREATE, 0, 0⟩
        (before.run (s.setUserData hwnd (some false)))
      have hmade := hcreate.trans ((hbefore.setWindow (some hwnd)).setUserData hwnd (some true))
      rw [World.setUserData_setWindow, World.setUserData_setUserData] at hmade
      simp only
      split
      · have hgone := (Activity.destroying_quiet hd ha hwnd _).trans (hmade.setUserData hwnd none)
        rw [World.setUserData_setUserData] at hgone
        have hnull := hgone.setWindow none
        have hsame : ((s.setWindow (some hwnd)).setUserData hwnd none).setWindow none =
            s.setWindow none :=
          World.setUserData_self (s.setWindow none) hfresh
        rw [hsame] at hnull
        exact Or.inl ⟨rfl, hnull⟩
      · exact Or.inr ⟨hwnd, hfresh, rfl, (Activity.run_quiet after ha _).trans hmade⟩

end Running

/-! ## The object and its windows -/

namespace World

variable {κ υ : Type}

/-- The window is live and has the object as its GWLP_USERDATA. -/
def Owned (s : World κ υ) (hwnd : Hwnd) : Prop := s.userData hwnd = some true

/-- `window_` is the one live window that has the object, and NULL without one. -/
structure Sound (s : World κ υ) : Prop where
  nonNull_iff : s.object.window_ ≠ none ↔ ∃ hwnd, s.Owned hwnd
  owned : ∀ hwnd, s.object.window_ = some hwnd → s.Owned hwnd
  unique : ∀ hwnd hwnd', s.Owned hwnd → s.Owned hwnd' → hwnd = hwnd'

theorem sound_iff (s : World κ υ) :
    s.Sound ↔ ∀ hwnd, s.object.window_ = some hwnd ↔ s.Owned hwnd := by
  constructor
  · intro h hwnd
    refine ⟨h.owned hwnd, fun ho => ?_⟩
    obtain ⟨hwnd', hw⟩ := Option.ne_none_iff_exists'.mp (h.nonNull_iff.mpr ⟨hwnd, ho⟩)
    rw [hw, h.unique hwnd' hwnd (h.owned hwnd' hw) ho]
  · intro h
    refine ⟨?_, fun hwnd => (h hwnd).mp, fun hwnd hwnd' ho ho' => ?_⟩
    · rw [Option.ne_none_iff_exists']
      exact exists_congr h
    · exact Option.some.inj (((h hwnd).mpr ho).symm.trans ((h hwnd').mpr ho'))

theorem sound_initial : (initial : World κ υ).Sound :=
  (sound_iff _).mpr fun hwnd => by simp [initial, Owned]

theorem SameWindows.sound {s t : World κ υ} (h : s.SameWindows t) (ht : t.Sound) : s.Sound := by
  rw [sound_iff] at ht ⊢
  intro hwnd
  rw [h.1, ht hwnd, Owned, Owned, h.2.2]

theorem sound_create {s : World κ υ} (hs : s.Sound) (hnull : s.object.window_ = none)
    (user_data : Option υ) (callback : Option κ) (atom : UInt16) {attempt : Attempt κ υ}
    (h : attempt.quiet = true) :
    (s.createMessageOnlyWindow user_data callback atom attempt.createWindow).1.Sound := by
  rw [createMessageOnlyWindow]
  generalize ht : ({ s with
      object := { s.object with user_data_ := user_data, callback_ := callback }
      class_instance_ := some (s.class_instance_.getD ⟨atom⟩) } : World κ υ) = t
  have hnone : ∀ hwnd, t.userData hwnd ≠ some true := by
    intro hwnd ho
    subst ht
    exact hs.nonNull_iff.mpr ⟨hwnd, ho⟩ hnull
  rcases attempt.createWindow_quiet h t with ⟨hr, hsame⟩ | ⟨hwnd, hfresh, hr, hsame⟩
  · simp only [hr]
    refine hsame.sound ((sound_iff _).mpr fun hwnd => ?_)
    exact ⟨fun hw => absurd hw (by simp [setWindow]), fun ho => absurd ho (hnone hwnd)⟩
  · simp only [hr]
    refine (hsame.setWindow (some hwnd)).sound ((sound_iff _).mpr fun hwnd' => ?_)
    by_cases he : hwnd' = hwnd
    · subst he
      simp [setWindow, setUserData, Owned]
    · simp [setWindow, setUserData, Owned, he, Ne.symm he, hnone hwnd']

/-- A live window of the class has the object. -/
def Exclusive (s : World κ υ) : Prop := ∀ hwnd, s.userData hwnd ≠ some false

theorem SameWindows.exclusive {s t : World κ υ} (h : s.SameWindows t) (ht : t.Exclusive) :
    s.Exclusive := by
  intro hwnd
  rw [h.2.2]
  exact ht hwnd

theorem Exclusive.setUserData {s : World κ υ} (hs : s.Exclusive) (hwnd : Hwnd) {this : Option Bool}
    (hthis : this ≠ some false) : (s.setUserData hwnd this).Exclusive := by
  intro hwnd'
  by_cases he : hwnd' = hwnd
  · subst he
    simpa [World.setUserData] using hthis
  · simpa [World.setUserData, he] using hs hwnd'

theorem exclusive_create {s : World κ υ} (hs : s.Exclusive) (user_data : Option υ)
    (callback : Option κ) (atom : UInt16) {attempt : Attempt κ υ} (h : attempt.quiet = true) :
    (s.createMessageOnlyWindow user_data callback atom attempt.createWindow).1.Exclusive := by
  rw [createMessageOnlyWindow]
  generalize ht : ({ s with
      object := { s.object with user_data_ := user_data, callback_ := callback }
      class_instance_ := some (s.class_instance_.getD ⟨atom⟩) } : World κ υ) = t
  have hexclusive : t.Exclusive := by
    subst ht
    exact hs
  rcases attempt.createWindow_quiet h t with ⟨hr, hsame⟩ | ⟨hwnd, -, hr, hsame⟩
  · exact hsame.exclusive hexclusive
  · exact hsame.exclusive (hexclusive.setUserData hwnd (by decide))

theorem exclusive_deliver {s : World κ υ} (hs : s.Exclusive) {hwnd : Hwnd} {m : Message}
    (hc : m.message ≠ WM_CREATE) (hd : m.message ≠ WM_DESTROY) {reaction : Reaction κ υ}
    (h : reaction.quiet = true) : (reaction.windowProc hwnd m s).1.Exclusive := by
  have hproc := Reaction.windowProc_quiet reaction h hwnd m s
  rw [switch_of_ne hc hd] at hproc
  exact hproc.exclusive hs

theorem sound_deliver {s : World κ υ} (hs : s.Sound) {hwnd : Hwnd} {m : Message}
    (hc : m.message ≠ WM_CREATE) (hd : m.message ≠ WM_DESTROY) {reaction : Reaction κ υ}
    (h : reaction.quiet = true) : (reaction.windowProc hwnd m s).1.Sound := by
  have hproc := Reaction.windowProc_quiet reaction h hwnd m s
  rw [switch_of_ne hc hd] at hproc
  exact hproc.sound hs

/-- A second creation, successful or not, loses the window held. -/
theorem create_over_unsound {s : World κ υ} (hs : s.Sound) (hheld : s.object.window_ ≠ none)
    (user_data : Option υ) (callback : Option κ) (atom : UInt16) {attempt : Attempt κ υ}
    (h : attempt.quiet = true) :
    ¬ (s.createMessageOnlyWindow user_data callback atom attempt.createWindow).1.Sound := by
  obtain ⟨window_, howned⟩ := hs.nonNull_iff.mp hheld
  rw [createMessageOnlyWindow, sound_iff]
  intro hsound
  generalize ht : ({ s with
      object := { s.object with user_data_ := user_data, callback_ := callback }
      class_instance_ := some (s.class_instance_.getD ⟨atom⟩) } : World κ υ) = t at hsound
  have hkept : t.userData window_ = some true := by
    subst ht
    exact howned
  rcases attempt.createWindow_quiet h t with ⟨hr, hsame⟩ | ⟨hwnd, hfresh, hr, hsame⟩
  · simp only [hr] at hsound
    have hlost := (hsound window_).mpr ((congrFun hsame.2.2 window_).trans hkept)
    exact Option.some_ne_none _ hlost.symm
  · simp only [hr] at hsound
    have hne : window_ ≠ hwnd := by
      rintro rfl
      rw [hkept] at hfresh
      exact Option.some_ne_none _ hfresh
    have hold : (t.setUserData hwnd (some true)).userData window_ = some true := by
      simp [setUserData, hne, hkept]
    have hlost := (hsound window_).mpr ((congrFun hsame.2.2 window_).trans hold)
    exact hne (Option.some.inj hlost).symm

/-- A WM_CLOSE left to `DefWindowProcW` makes the window held a stale one. -/
theorem closed_unsound {s : World κ υ} {window_ : Hwnd} (hw : s.object.window_ = some window_)
    (hs : s.Sound) (result : LResult) {reaction : Reaction κ υ} {after : Activity κ υ}
    (hr : reaction.quiet = true) (ha : after.quiet = true) (wparam lparam : UInt64) :
    ¬ ((Reaction.mk none .idle result (.destroyWindow window_ reaction after .idle)).windowProc
      window_ ⟨WM_CLOSE, wparam, lparam⟩ s).1.Sound := by
  have hlive : s.userData window_ ≠ none := by
    rw [hs.owned window_ hw]
    exact Option.some_ne_none _
  have hrun : ∀ t : World κ υ, t.SameWindows s →
      ((Activity.destroyWindow window_ reaction after .idle).run t).SameWindows
        (s.setUserData window_ none) := by
    intro t ht
    rw [Activity.run, Activity.run, destroyWindow, if_neg (by rwa [ht.2.2])]
    exact (Activity.destroying_quiet hr ha window_ t).trans (ht.setUserData window_ none)
  have hproc : ((Reaction.mk none .idle result
      (.destroyWindow window_ reaction after .idle)).windowProc window_
        ⟨WM_CLOSE, wparam, lparam⟩ s).1.SameWindows (s.setUserData window_ none) := by
    rw [Reaction.windowProc, returned, windowProc]
    simp only [switch, if_neg (show WM_CLOSE ≠ WM_CREATE by decide),
      if_neg (show WM_CLOSE ≠ WM_DESTROY by decide)]
    split
    · exact hrun _ ⟨rfl, rfl, rfl⟩
    · exact hrun _ (.refl s)
  intro hsound
  have howned := hsound.owned window_ (by rw [hproc.1]; exact hw)
  rw [Owned, hproc.2.2] at howned
  simp [setUserData] at howned

/-- `MessageWindow::~MessageWindow`, with whether its assertion held. -/
def destruct (messages : Hwnd → World κ υ → World κ υ) (s : World κ υ) : World κ υ × Bool :=
  match s.object.window_ with
  | none => (s, true)
  | some window_ => s.destroyWindow window_ (messages window_)

/-- The assertion holds, and no window of the class is left. -/
theorem destruct_sound {s : World κ υ} (hs : s.Sound) (hexclusive : s.Exclusive)
    {reaction : Reaction κ υ} {after : Activity κ υ} (hr : reaction.quiet = true)
    (ha : after.quiet = true) :
    (s.destruct fun hwnd s => after.run (reaction.windowProc hwnd ⟨WM_DESTROY, 0, 0⟩ s).1).2 = true ∧
      ∀ hwnd, (s.destruct fun hwnd s =>
        after.run (reaction.windowProc hwnd ⟨WM_DESTROY, 0, 0⟩ s).1).1.userData hwnd = none := by
  have hgone : ∀ hwnd, ¬ s.Owned hwnd → s.userData hwnd = none := by
    intro hwnd ho
    cases hu : s.userData hwnd with
    | none => rfl
    | some this =>
      cases this with
      | true => exact absurd hu ho
      | false => exact absurd hu (hexclusive hwnd)
  rw [destruct]
  cases hw : s.object.window_ with
  | none => exact ⟨rfl, fun hwnd => hgone hwnd fun ho => hs.nonNull_iff.mpr ⟨hwnd, ho⟩ hw⟩
  | some window_ =>
    have howned := hs.owned window_ hw
    have hlive : s.userData window_ ≠ none := by
      rw [howned]
      exact Option.some_ne_none _
    simp only [destroyWindow, if_neg hlive, true_and]
    intro hwnd
    have hsame := Activity.destroying_quiet hr ha window_ s
    rw [hsame.2.2, World.setUserData]
    by_cases he : hwnd = window_
    · simp [he]
    · simp only [Function.update_of_ne he]
      exact hgone hwnd fun ho => he (hs.unique hwnd window_ ho howned)

end World

/-! ## Runs -/

namespace MessageWindow

/-- The calls on the singleton from outside: `CreateMessageOnlyWindow`, a message
to one of its windows, and the destructor at the end. -/
inductive Event (κ υ : Type)
  | create (user_data : Option υ) (callback : Option κ) (atom : UInt16) (attempt : Attempt κ υ)
  | deliver (hwnd : Hwnd) (m : Message) (reaction : Reaction κ υ)
  | destructor (reaction : Reaction κ υ) (after : Activity κ υ)

/-- No call is in progress; `ended` is whether the destructor's assertion held. -/
structure Program (κ υ : Type) where
  world : World κ υ
  ended : Option Bool

variable {κ υ : Type}

/-- One call; WM_CREATE comes from `CreateWindowW` alone. -/
def step (p : Program κ υ) (e : Event κ υ) : Option (Program κ υ) :=
  if p.ended = none then
    match e with
    | .create user_data callback atom attempt =>
      some ⟨(p.world.createMessageOnlyWindow user_data callback atom attempt.createWindow).1, none⟩
    | .deliver hwnd m reaction =>
      if p.world.userData hwnd ≠ none ∧ m.message ≠ WM_CREATE then
        some ⟨(reaction.windowProc hwnd m p.world).1, none⟩
      else none
    | .destructor reaction after =>
      let r := p.world.destruct fun hwnd s =>
        after.run (reaction.windowProc hwnd ⟨WM_DESTROY, 0, 0⟩ s).1
      some ⟨r.1, some r.2⟩
  else none

def singleton (κ υ : Type) : Automaton (Program κ υ) (Event κ υ) := ⟨⟨World.initial, none⟩, step⟩

/-- The object holds its window, neither stale nor forgotten; behind the destructor
its assertion held and no window of the class is live. -/
def Faithful (p : Program κ υ) : Prop :=
  match p.ended with
  | none => p.world.Sound
  | some held => held = true ∧ ∀ hwnd, p.world.userData hwnd = none

/-- A window is created only when none is held, and no message leads to WM_DESTROY
or to another creation: none from outside, none inside `CreateWindowW`, which itself
may fail on the way, and none inside the destructor's `DestroyWindow`. -/
def Undisturbed (p : Program κ υ) : Event κ υ → Prop
  | .create _ _ _ attempt => p.world.object.window_ = none ∧ attempt.quiet = true
  | .deliver _ m reaction => m.message ≠ WM_DESTROY ∧ reaction.quiet = true
  | .destructor reaction after => reaction.quiet = true ∧ after.quiet = true

instance (p : Program κ υ) : (e : Event κ υ) → Decidable (Undisturbed p e)
  | .create .. | .deliver .. | .destructor .. => inferInstanceAs (Decidable (_ ∧ _))

theorem faithful_step {p p' : Program κ υ} {e : Event κ υ} (hp : Faithful p)
    (hexclusive : p.world.Exclusive) (hg : Undisturbed p e) (h : step p e = some p') :
    Faithful p' ∧ p'.world.Exclusive := by
  unfold step at h
  split at h
  · rename_i hopen
    have hs : p.world.Sound := by
      rw [Faithful, hopen] at hp
      exact hp
    cases e with
    | create user_data callback atom attempt =>
      rw [← Option.some.inj h]
      exact ⟨World.sound_create hs hg.1 user_data callback atom hg.2,
        World.exclusive_create hexclusive user_data callback atom hg.2⟩
    | deliver hwnd m reaction =>
      simp only at h
      split at h
      · rename_i hm
        rw [← Option.some.inj h]
        exact ⟨World.sound_deliver hs hm.2 hg.1 hg.2, World.exclusive_deliver hexclusive hm.2 hg.1 hg.2⟩
      · exact absurd h.symm (Option.some_ne_none _)
    | destructor reaction after =>
      rw [← Option.some.inj h]
      have hend := World.destruct_sound hs hexclusive hg.1 hg.2
      refine ⟨hend, fun hwnd hfalse => ?_⟩
      exact Option.some_ne_none _ (hfalse.symm.trans (hend.2 hwnd))
  · exact absurd h.symm (Option.some_ne_none _)

/-- **Neither stale nor forgotten**, in every state of every undisturbed run. -/
theorem never_stale (es : List (Event κ υ)) (p : Program κ υ)
    (h : (singleton κ υ).Run Undisturbed es p) : Faithful p := by
  have hinit : Faithful (singleton κ υ).init ∧ (singleton κ υ).init.world.Exclusive :=
    ⟨World.sound_initial, fun _ h => Option.some_ne_none _ (Eq.symm h)⟩
  exact (h.invariant (P := fun p => Faithful p ∧ p.world.Exclusive) hinit
    fun _ _ _ hp => faithful_step hp.1 hp.2).1

/-- Nothing happens inside, and `DefWindowProcW` returns 0. -/
def unanswered : Reaction κ υ := .mk none .idle 0 .idle

/-- A window is made, gets a message, and goes with the object. -/
theorem never_stale_one_window :
    ∃ p, (singleton Unit Unit).Run Undisturbed
        [.create (some ()) (some ()) 1 (.made 7 .idle unanswered unanswered .idle),
          .deliver 7 ⟨WM_COPYDATA, 0, 0⟩ (.mk (some 1) .idle 0 .idle),
          .destructor unanswered .idle] p ∧ Faithful p :=
  have hrun := Automaton.run_of_replay rfl
  ⟨_, hrun, never_stale _ _ hrun⟩

/-- Another process closes the window: `window_` stays, the window is gone, and the
destructor's assertion fails. -/
theorem closed_window_is_stale :
    ∃ p p' : Program Unit Unit,
      (singleton Unit Unit).Reaches
        [.create (some ()) (some ()) 1 (.made 7 .idle unanswered unanswered .idle),
          .deliver 7 ⟨WM_CLOSE, 0, 0⟩
            (.mk none .idle 0 (.destroyWindow 7 unanswered .idle .idle))] p ∧
      p.world.object.window_ = some 7 ∧ ¬ Faithful p ∧
      step p (.destructor unanswered .idle) = some p' ∧ p'.ended = some false := by
  refine ⟨_, _, Automaton.run_iff_replay.mpr rfl, rfl, fun h => ?_, rfl, rfl⟩
  have howned : (none : Option Bool) = some true := World.Sound.owned h 7 rfl
  exact Option.some_ne_none _ howned.symm

end MessageWindow

end SearchAndIdna

import SearchAndIdna.CopyData
import SearchAndIdna.MessageWindow

/-!
# The frame behind the message-only window

`SearchFrame::MessageOnlyWindowCallback` and `ProcessCopyDataCommand`
(`Search/search_frame.cpp`), and what the window procedure makes of a
WM_COPYDATA with them.

* `messageOnlyWindowCallback_iff`: the callback answers exactly the messages the
  parser accepts;
* `receive_ok`: a WM_COPYDATA is acted on, with a nonzero result, or it gets 0;
* `receive_eq_windowProc`: `receive` is the window procedure on that message.
-/

namespace SearchAndIdna

open WString CopyData

/-- What `ProcessCopyDataCommand` asks of the frame's window. -/
inductive FrameCall
  | showWindow (command : Nat)
  | setForegroundWindow
  deriving DecidableEq, Repr

namespace SearchFrame

/-- `switches::kSearchName`, `L"--name"`. -/
def kSearchName : WString := [0x2d, 0x2d, 0x6e, 0x61, 0x6d, 0x65]

def SW_RESTORE : Nat := 9

def processCopyDataCommand (isIconic : Bool) (command_line : CommandLine) : List FrameCall :=
  if command_line.hasSwitch kSearchName then []
  else
    (if isIconic then [.showWindow SW_RESTORE] else []) ++ [.setForegroundWindow]

/-- The result and the command line that `ProcessCopyDataCommand` is run on; `none`
where the callback returns `false`. -/
def messageOnlyWindowCallback {υ : Type} (sh : Shell) (user_data : Option υ) (message : UInt32)
    (cds : Option CopyDataStruct) : Except OutOfRange (Option (LResult × CommandLine)) :=
  if message ≠ WM_COPYDATA then return none
  else
    match user_data, cds with
    | some _, some cds => do
      let (accepted, parsed_command_line) ←
        processCopyDataMessage sh cds (CommandLine.ofPointer sh none)
      if accepted then return some (1, parsed_command_line) else return none
    | _, _ => return none

theorem messageOnlyWindowCallback_iff {υ : Type} (sh : Shell) (user_data : υ)
    (cds : CopyDataStruct) :
    (WellFramed cds → messageOnlyWindowCallback sh (some user_data) WM_COPYDATA (some cds) =
      .ok (some (1, CommandLine.ofPointer sh (some (between (units cds)))))) ∧
    (¬ WellFramed cds →
      messageOnlyWindowCallback sh (some user_data) WM_COPYDATA (some cds) = .ok none) := by
  constructor
  · intro h
    simp only [messageOnlyWindowCallback, ne_eq, not_true_eq_false, if_false]
    rw [processCopyDataMessage_framed sh (CommandLine.ofPointer sh none) h]
    rfl
  · intro h
    simp only [messageOnlyWindowCallback, ne_eq, not_true_eq_false, if_false]
    rw [processCopyDataMessage_unframed sh (CommandLine.ofPointer sh none) h]
    rfl

/-- `WindowProc` on a WM_COPYDATA: the result, and what `ProcessCopyDataCommand` was
run on.  `DefWindowProcW` returns 0 for it. -/
def receive {κ υ : Type} (sh : Shell) (object : MessageWindow κ υ) (self : Bool)
    (cds : CopyDataStruct) : Except OutOfRange (LResult × Option CommandLine) :=
  match self, object.callback_ with
  | true, some _ => do
    match ← messageOnlyWindowCallback sh object.user_data_ WM_COPYDATA (some cds) with
    | some (result, command_line) => return (result, some command_line)
    | none => return (0, none)
  | _, _ => return (0, none)

/-- A WM_COPYDATA is acted on as the parser reads it, or it gets 0. -/
theorem receive_ok {κ υ : Type} (sh : Shell) (object : MessageWindow κ υ) (self : Bool)
    (cds : CopyDataStruct) :
    receive sh object self cds = .ok (0, none) ∨
      ∃ command_line, receive sh object self cds = .ok (1, some command_line) ∧
        processCopyDataMessage sh cds (CommandLine.ofPointer sh none) = .ok (true, command_line) := by
  unfold receive
  split
  · cases object.user_data_ with
    | none => exact Or.inl rfl
    | some user_data =>
      by_cases h : WellFramed cds
      · rw [(messageOnlyWindowCallback_iff sh user_data cds).1 h]
        exact Or.inr ⟨_, rfl, processCopyDataMessage_framed sh _ h⟩
      · rw [(messageOnlyWindowCallback_iff sh user_data cds).2 h]
        exact Or.inl rfl
  · exact Or.inl rfl

/-- The window procedure with this callback and default. -/
theorem receive_eq_windowProc {κ υ : Type} (sh : Shell) (s : World κ υ) (hwnd : Hwnd)
    (cds : CopyDataStruct) {answer : Option (LResult × CommandLine)}
    (h : messageOnlyWindowCallback sh s.object.user_data_ WM_COPYDATA (some cds) = .ok answer) :
    (receive sh s.object (s.userData hwnd == some true) cds).map Prod.fst =
      .ok (World.windowProc (fun s => (s, answer.map Prod.fst)) (fun s => (s, 0)) hwnd
        ⟨WM_COPYDATA, 0, 0⟩ s).2 := by
  have hswitch : s.switch hwnd WM_COPYDATA = (s.userData hwnd == some true, s) := by
    rw [World.switch, if_neg (by decide), if_neg (by decide)]
  rw [World.windowProc, hswitch]
  unfold receive
  rw [h]
  simp only
  cases s.userData hwnd == some true with
  | false => rfl
  | true => cases s.object.callback_ with
    | none => rfl
    | some callback_ => cases answer with
      | none => rfl
      | some a => rfl

end SearchFrame

end SearchAndIdna

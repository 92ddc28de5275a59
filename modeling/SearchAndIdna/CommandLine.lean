import SearchAndIdna.Lib.FirstWins
import SearchAndIdna.WideString

/-!
# `base::CommandLine`

`Search/command_line.cpp`: a map from switches to values, filled by
`ParseFromString` and by the append functions (wide-string overloads), queried
by key, and rendered by `ToString`.  `RCStringUtil::Trim` and
`CommandLineToArgvW` are not part of the program and come in as a `Shell`.

* `CommandLine.ofPointer_eq`: a parsed command line is the items of its
  arguments, inserted in order;
* `CommandLine.sameSwitchMap_iff`: equal answers mean equal maps;
* `CommandLine.splitCommand_prefixed`, `CommandLine.splitCommand_unprefixed`: the pair one
  command is inserted as.
-/

namespace SearchAndIdna

open FirstWins

/-- The functions `CommandLine` calls that are defined elsewhere. -/
structure Shell where
  trim : WString → WString
  commandLineToArgvW : WString → List WString

/-- `argv_` is the `std::map` of switches. -/
@[ext]
structure CommandLine where
  argv_ : Map WString WString
  deriving DecidableEq

namespace CommandLine

open WString

def kSwitchValueSeparator : WString := [0x3d]

def kSwitchPrefix : WString := [0x2d, 0x2d]

def empty : CommandLine := ⟨Map.empty⟩

def hasSwitch (cl : CommandLine) (switch_string : WString) : Bool :=
  (cl.argv_.lookup switch_string).isSome

def appendSwitch (cl : CommandLine) (switch_string : WString) : CommandLine :=
  ⟨cl.argv_.insert switch_string []⟩

def appendSwitchAndValue (cl : CommandLine) (switch_string value : WString) : CommandLine :=
  ⟨cl.argv_.insert switch_string value⟩

def getSwitchValue (cl : CommandLine) (switch_string : WString) : WString :=
  match cl.argv_.lookup switch_string with
  | none => []
  | some value => value

def getSwitches (cl : CommandLine) : List WString := cl.argv_.entries.map Prod.fst

def getNonPrefixedSwitches (cl : CommandLine) : List WString :=
  (cl.argv_.entries.filter (fun e => find kSwitchPrefix e.1 ≠ some 0)).map Prod.fst

/-- The pair one command is inserted as. -/
def splitCommand (command : WString) : WString × WString :=
  if find kSwitchPrefix command = some 0 then
    match find kSwitchValueSeparator command with
    | none => (command, [])
    | some position => (command.take position, command.drop (position + 1))
  else (command, [])

def parseFromString (sh : Shell) (cl : CommandLine) (command_line : WString) : CommandLine :=
  let command_line_string := sh.trim command_line
  if command_line_string = [] then cl
  else
    (sh.commandLineToArgvW (cStr command_line_string)).foldl
      (fun cl arg =>
        let p := splitCommand (cStr arg)
        ⟨cl.argv_.insert p.1 p.2⟩) cl

/-- `CommandLine(const wchar_t*)`; `none` is `nullptr`. -/
def ofPointer (sh : Shell) : Option WString → CommandLine
  | none => empty
  | some command_line => parseFromString sh empty (cStr command_line)

/-- One turn of the loop in `ToString`, without the separator. -/
def renderUnit (cmd_unit : WString × WString) : WString :=
  if cmd_unit.2 ≠ [] then cStr cmd_unit.1 ++ kSwitchValueSeparator ++ cStr cmd_unit.2
  else cStr cmd_unit.1

def toString (cl : CommandLine) : WString :=
  let command_string := cl.argv_.entries.foldl (fun s e => s ++ renderUnit e ++ [0x20]) []
  if command_string.length > 2 then command_string.take (command_string.length - 1)
  else command_string

/-! ## The arguments of a text -/

/-- The arguments `ParseFromString` loops over. -/
def arguments (sh : Shell) (command_line : WString) : List WString :=
  let command_line_string := sh.trim command_line
  if command_line_string = [] then []
  else (sh.commandLineToArgvW (cStr command_line_string)).map cStr

/-- The arguments of the constructor's text. -/
def argumentsOf (sh : Shell) : Option WString → List WString
  | none => []
  | some command_line => arguments sh (cStr command_line)

theorem foldl_insert_eq (args : List WString) (cl : CommandLine) :
    args.foldl
      (fun cl arg =>
        let p := splitCommand (cStr arg)
        ⟨cl.argv_.insert p.1 p.2⟩) cl =
      ⟨cl.argv_.insertAll ((args.map cStr).map splitCommand)⟩ := by
  induction args generalizing cl with
  | nil => rfl
  | cons a args ih => rw [List.foldl_cons, ih]; rfl

/-- **Parsing is insertion in order.** -/
theorem ofPointer_eq (sh : Shell) (text : Option WString) :
    ofPointer sh text = ⟨Map.ofList ((argumentsOf sh text).map splitCommand)⟩ := by
  cases text with
  | none => rfl
  | some s =>
    simp only [ofPointer, parseFromString, argumentsOf, arguments]
    split
    · rfl
    · exact foldl_insert_eq _ _

/-! ## Equal answers -/

/-- Two command lines with the same keys and the same values. -/
def SameSwitchMap (a b : CommandLine) : Prop :=
  ∀ k, a.hasSwitch k = b.hasSwitch k ∧ a.getSwitchValue k = b.getSwitchValue k

theorem sameSwitchMap_iff (a b : CommandLine) : SameSwitchMap a b ↔ a = b := by
  constructor
  · intro h
    apply CommandLine.ext
    apply Map.ext_lookup
    intro k
    obtain ⟨hs, hv⟩ := h k
    simp only [hasSwitch, getSwitchValue] at hs hv
    cases ha : a.argv_.lookup k with
    | none => cases hb : b.argv_.lookup k with
      | none => rfl
      | some v => simp [ha, hb] at hs
    | some u => cases hb : b.argv_.lookup k with
      | none => simp [ha, hb] at hs
      | some v => simp only [ha, hb] at hv; rw [hv]
  · rintro rfl k
    exact ⟨rfl, rfl⟩

/-! ## Rendering -/

theorem foldl_render_eq (l : List (WString × WString)) (s : WString) :
    l.foldl (fun s e => s ++ renderUnit e ++ [0x20]) s =
      s ++ l.flatMap (fun e => renderUnit e ++ [0x20]) := by
  induction l generalizing s with
  | nil => simp
  | cons e l ih => rw [List.foldl_cons, ih, List.flatMap_cons]; simp only [List.append_assoc]

theorem nul_notMem_renderUnit (e : WString × WString) : nul ∉ renderUnit e := by
  have h₁ := nul_notMem_cStr e.1
  have h₂ := nul_notMem_cStr e.2
  rw [renderUnit]
  split
  · simp only [List.mem_append, not_or]
    exact ⟨⟨h₁, by decide⟩, h₂⟩
  · exact h₁

/-- Every rendering is a C string, whatever the keys and values hold. -/
theorem nul_notMem_toString (cl : CommandLine) : nul ∉ cl.toString := by
  have h : nul ∉ cl.argv_.entries.flatMap (fun e => renderUnit e ++ [0x20]) := by
    intro hm
    obtain ⟨e, -, he⟩ := List.mem_flatMap.mp hm
    rcases List.mem_append.mp he with he | he
    · exact nul_notMem_renderUnit e he
    · exact absurd he (by decide)
  simp only [toString, foldl_render_eq, List.nil_append]
  split
  · exact fun hm => h (List.mem_of_mem_take hm)
  · exact h

/-! ## What splitting one command gives -/

theorem splitCommand_prefixed {command : WString} (h : kSwitchPrefix <+: command)
    (hs : (0x3d : WChar) ∈ command) :
    splitCommand command =
      (command.takeWhile (· ≠ 0x3d), (command.dropWhile (· ≠ 0x3d)).tail) := by
  rw [splitCommand, if_pos ((find_eq_zero_iff _ _).mpr h), kSwitchValueSeparator,
    find_singleton, if_pos hs]
  simp only
  congr 1
  · exact (List.prefix_iff_eq_take.mp (List.takeWhile_prefix _)).symm
  · have hd : command.drop (command.takeWhile (· ≠ 0x3d)).length =
        command.dropWhile (· ≠ 0x3d) := by
      have h : (command.takeWhile (· ≠ 0x3d) ++ command.dropWhile (· ≠ 0x3d)).drop
          (command.takeWhile (· ≠ 0x3d)).length = command.dropWhile (· ≠ 0x3d) := List.drop_left
      rwa [List.takeWhile_append_dropWhile] at h
    rw [← List.drop_drop, List.drop_one, hd]

theorem splitCommand_of_notMem {command : WString} (hs : (0x3d : WChar) ∉ command) :
    splitCommand command = (command, []) := by
  rw [splitCommand]
  split
  · rw [kSwitchValueSeparator, find_singleton, if_neg hs]
  · rfl

theorem splitCommand_unprefixed {command : WString} (h : ¬ kSwitchPrefix <+: command) :
    splitCommand command = (command, []) := by
  rw [splitCommand, if_neg (mt (find_eq_zero_iff _ _).mp h)]

end CommandLine

end SearchAndIdna

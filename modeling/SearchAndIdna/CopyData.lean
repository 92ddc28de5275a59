import SearchAndIdna.CommandLine

/-!
# The WM_COPYDATA message

The buffer `AttemptFastNotify` (`Search/main.cpp`) sends and the parser
`ProcessCopyDataMessage` (`Search/search_frame.cpp`) that reads it, with
assertions compiled out.

* `processCopyDataMessage_framed`, `processCopyDataMessage_unframed`: the parser
  on a well framed message and on any other;
* `copyDataFor_framed`: what the sender writes is well framed, as long as the
  byte count fits its `DWORD`; `copyDataFor_overflow`: past that it is not;
* `parser_accepts_exactly_its_format`: both together.
-/

namespace SearchAndIdna

open WString

/-- `COPYDATASTRUCT`: a byte count and the units readable at `lpData`. -/
structure CopyDataStruct where
  cbData : UInt32
  lpData : WString
  room : cbData.toNat / 2 ≤ lpData.length

namespace CopyData

/-- `L"START"`. -/
def startMark : WString := [0x53, 0x54, 0x41, 0x52, 0x54]

def min_message_size : Nat := 7

def sizeofWChar : Nat := 2

/-- The string the parser builds from `lpData`. -/
def units (cds : CopyDataStruct) : WString := cds.lpData.take (cds.cbData.toNat / sizeofWChar)

/-- Returns the flag and the command line left in the out parameter. -/
def processCopyDataMessage (sh : Shell) (cds : CopyDataStruct)
    (parsed_command_line : CommandLine) : Except OutOfRange (Bool × CommandLine) :=
  if cds.cbData.toNat < min_message_size * sizeofWChar ∨ cds.cbData.toNat % sizeofWChar ≠ 0 then
    return (false, parsed_command_line)
  else do
    let msg := units cds
    match ← findFirstOf msg nul 0 with
    | none => return (false, parsed_command_line)
    | some first_null =>
      if first_null = 0 then return (false, parsed_command_line)
      else if (← substr msg 0 first_null) = startMark then
        match ← findFirstOf msg nul (first_null + 1) with
        | none => return (false, parsed_command_line)
        | some second_null =>
          if first_null = msg.length - 1 ∨ second_null = msg.length then
            return (false, parsed_command_line)
          else
            -- the count takes the second NUL along; `c_str()` ends before it
            let cmd_line ← substr msg (first_null + 1) (second_null - first_null)
            return (true, CommandLine.ofPointer sh (some cmd_line))
      else return (false, parsed_command_line)

/-- `to_send` in `AttemptFastNotify`. -/
def toSend (command_line : CommandLine) : WString :=
  startMark ++ [nul] ++ command_line.toString ++ [nul]

/-- `cds` in `AttemptFastNotify`: `c_str()` ends in a NUL of its own, and the
byte count is cut to a `DWORD`. -/
def copyDataFor (command_line : CommandLine) : CopyDataStruct where
  cbData := UInt32.ofNat (((toSend command_line).length + 1) * sizeofWChar)
  lpData := toSend command_line ++ [nul]
  room := by
    rw [UInt32.toNat_ofNat', List.length_append, List.length_singleton, sizeofWChar]
    have := Nat.mod_le (((toSend command_line).length + 1) * 2) (2 ^ 32)
    omega

/-! ## The format -/

/-- Even byte count of at least 14, `START` and a NUL, and a further NUL. -/
def WellFramed (cds : CopyDataStruct) : Prop :=
  cds.cbData.toNat % 2 = 0 ∧ 14 ≤ cds.cbData.toNat ∧ startMark ++ [nul] <+: units cds ∧
    ∃ i, 6 ≤ i ∧ (units cds)[i]? = some nul

/-- The units strictly between the first NUL and the second. -/
def between (msg : WString) : WString :=
  ((msg.dropWhile (· ≠ nul)).tail).takeWhile (· ≠ nul)

theorem nul_notMem_startMark : nul ∉ startMark := by decide

theorem length_units (cds : CopyDataStruct) : (units cds).length = cds.cbData.toNat / 2 := by
  rw [units, List.length_take, sizeofWChar]
  exact min_eq_left cds.room

theorem between_append {t : WString} (ht : nul ∉ t) (rest : WString) :
    between (startMark ++ nul :: (t ++ nul :: rest)) = t := by
  have hd : (startMark ++ nul :: (t ++ nul :: rest)).dropWhile (· ≠ nul) =
      nul :: (t ++ nul :: rest) := rfl
  rw [between, hd]
  exact cStr_append_nul ht rest

/-- A well framed message, taken apart. -/
theorem wellFramed_split {cds : CopyDataStruct} (h : WellFramed cds) :
    ∃ t rest, units cds = startMark ++ nul :: (t ++ nul :: rest) ∧ nul ∉ t := by
  obtain ⟨-, -, ⟨tail, htail⟩, i, hi, hnul⟩ := h
  have hmem : nul ∈ tail := by
    rw [← htail, List.getElem?_append_right (by simpa [startMark] using hi)] at hnul
    exact List.mem_of_getElem? hnul
  obtain ⟨t, rest, htr, ht⟩ := List.eq_append_cons_of_mem hmem
  exact ⟨t, rest, by rw [← htail, htr]; rfl, ht⟩

theorem wellFramed_of_split {cds : CopyDataStruct} {t rest : WString}
    (heven : cds.cbData.toNat % 2 = 0)
    (h : units cds = startMark ++ nul :: (t ++ nul :: rest)) : WellFramed cds := by
  have hlen := length_units cds
  rw [h] at hlen
  simp only [startMark, List.length_append, List.length_cons, List.length_nil] at hlen
  refine ⟨heven, by omega, ⟨t ++ nul :: rest, by rw [h]; rfl⟩, 6 + t.length, by omega, ?_⟩
  rw [h, List.getElem?_append_right (by simp only [startMark, List.length_cons, List.length_nil]; omega)]
  simp [startMark, Nat.add_comm]

/-! ## The parser -/

theorem findFirstOf_zero (msg : WString) :
    findFirstOf msg nul 0 = .ok (msg.findIdx? (· = nul)) := by
  simp [findFirstOf]

theorem processCopyDataMessage_framed (sh : Shell) {cds : CopyDataStruct} (cl : CommandLine)
    (h : WellFramed cds) :
    processCopyDataMessage sh cds cl =
      .ok (true, CommandLine.ofPointer sh (some (between (units cds)))) := by
  obtain ⟨t, rest, hu, ht⟩ := wellFramed_split h
  obtain ⟨heven, hmin, -, -⟩ := h
  have hguard : ¬ (cds.cbData.toNat < min_message_size * sizeofWChar ∨
      cds.cbData.toNat % sizeofWChar ≠ 0) := by
    simp only [min_message_size, sizeofWChar]
    omega
  have hfirst : (units cds).findIdx? (· = nul) = some 5 := by
    rw [hu]
    exact findIdx?_append_cons nul_notMem_startMark _
  have hmark : substr (units cds) 0 5 = .ok startMark := by rw [hu]; rfl
  have hsecond : findFirstOf (units cds) nul 6 = .ok (some (t.length + 6)) := by
    have hdrop : (units cds).drop 6 = t ++ nul :: rest := by rw [hu]; rfl
    rw [findFirstOf, if_pos (by rw [hu]; simp [startMark]), hdrop, findIdx?_append_cons ht]
    rfl
  have hlen : (units cds).length = t.length + rest.length + 7 := by
    rw [hu]
    simp only [startMark, List.length_append, List.length_cons, List.length_nil]
    omega
  have hinner : ¬ (5 = (units cds).length - 1 ∨ t.length + 6 = (units cds).length) := by omega
  have hcmd : substr (units cds) 6 (t.length + 6 - 5) = .ok (t ++ [nul]) := by
    have hdrop : (units cds).drop 6 = (t ++ [nul]) ++ rest := by rw [hu]; simp [startMark]
    rw [substr, if_pos (by omega), hdrop, List.take_append_of_le_length (by simp),
      List.take_of_length_le (by simp)]
  rw [processCopyDataMessage, if_neg hguard]
  simp only [findFirstOf_zero, hfirst, hmark, hsecond, hcmd, hinner, bind, Except.bind, pure,
    Except.pure, ↓reduceIte, Nat.reduceAdd, Nat.reduceEqDiff]
  rw [hu, between_append ht, CommandLine.ofPointer, CommandLine.ofPointer,
    cStr_append_nul ht, cStr_eq_self ht]

/-- Past the length test the parser only fails on a message that is not framed. -/
theorem processCopyDataMessage_unframed (sh : Shell) {cds : CopyDataStruct} (cl : CommandLine)
    (h : ¬ WellFramed cds) : processCopyDataMessage sh cds cl = .ok (false, cl) := by
  rw [processCopyDataMessage]
  split
  · rfl
  · rename_i hguard
    simp only [min_message_size, sizeofWChar, not_or, not_lt, not_not] at hguard
    by_cases hmem : nul ∈ units cds
    · obtain ⟨a, b, hu, ha⟩ := List.eq_append_cons_of_mem hmem
      have hfirst : (units cds).findIdx? (· = nul) = some a.length := by
        rw [hu]
        exact findIdx?_append_cons ha b
      have hsub : substr (units cds) 0 a.length = .ok a := by
        rw [hu, substr, if_pos (Nat.zero_le _)]
        simp
      simp only [findFirstOf_zero, hfirst, hsub, bind, Except.bind]
      by_cases hzero : a.length = 0
      · simp [hzero, pure, Except.pure]
      · by_cases hmark : a = startMark
        · have hb : nul ∉ b := by
            intro hb
            obtain ⟨t, rest, hbt, -⟩ := List.eq_append_cons_of_mem hb
            exact h (wellFramed_of_split hguard.2 (by rw [hu, hbt, hmark]))
          have hsecond : findFirstOf (units cds) nul (a.length + 1) = .ok none := by
            have hdrop : (units cds).drop (a.length + 1) = b := by rw [hu]; simp
            rw [findFirstOf, if_pos (by rw [hu]; simp), hdrop, findIdx?_of_notMem hb]
            rfl
          simp [hmark ▸ hsecond, hmark, pure, Except.pure]
        · simp [hzero, hmark, pure, Except.pure]
    · simp [findFirstOf_zero, findIdx?_of_notMem hmem, bind, Except.bind, pure, Except.pure]

/-! ## The sender -/

/-- The byte count before the cast. -/
theorem length_toSend (cl : CommandLine) : (toSend cl).length = cl.toString.length + 7 := by
  simp [toSend, startMark]

theorem copyDataFor_lpData (cl : CommandLine) :
    (copyDataFor cl).lpData = startMark ++ nul :: (cl.toString ++ nul :: [nul]) := by
  simp [copyDataFor, toSend]

theorem copyDataFor_cbData (cl : CommandLine) :
    (copyDataFor cl).cbData.toNat = (cl.toString.length + 8) * 2 % 2 ^ 32 := by
  rw [copyDataFor, UInt32.toNat_ofNat', length_toSend, sizeofWChar]

theorem units_copyDataFor (cl : CommandLine) (h : cl.toString.length < 2 ^ 31 - 8) :
    units (copyDataFor cl) = startMark ++ nul :: (cl.toString ++ nul :: [nul]) := by
  have hc := copyDataFor_cbData cl
  rw [Nat.mod_eq_of_lt (by omega)] at hc
  rw [units, hc, copyDataFor_lpData, sizeofWChar]
  exact List.take_of_length_le (by simp [startMark])

theorem copyDataFor_framed (cl : CommandLine) (h : cl.toString.length < 2 ^ 31 - 8) :
    WellFramed (copyDataFor cl) ∧ between (units (copyDataFor cl)) = cl.toString := by
  have hu := units_copyDataFor cl h
  have heven : (copyDataFor cl).cbData.toNat % 2 = 0 := by
    rw [copyDataFor_cbData]
    omega
  refine ⟨wellFramed_of_split heven hu, ?_⟩
  rw [hu, between_append cl.nul_notMem_toString]

/-- A byte count past the `DWORD` cuts the second NUL off. -/
theorem copyDataFor_overflow (cl : CommandLine) (h : 2 ^ 31 - 8 ≤ cl.toString.length) :
    ¬ WellFramed (copyDataFor cl) := by
  intro hw
  obtain ⟨t, rest, hu, ht⟩ := wellFramed_split hw
  have hlen := length_units (copyDataFor cl)
  rw [copyDataFor_cbData] at hlen
  have hsub : units (copyDataFor cl) <+: startMark ++ nul :: cl.toString := by
    have hp : units (copyDataFor cl) <+: (startMark ++ nul :: cl.toString) ++ [nul, nul] := by
      have hp := List.take_prefix ((copyDataFor cl).cbData.toNat / sizeofWChar)
        (copyDataFor cl).lpData
      rw [copyDataFor_lpData] at hp
      simpa [units, copyDataFor_lpData] using hp
    refine List.prefix_of_prefix_length_le hp (List.prefix_append _ _) ?_
    simp only [hlen, startMark, List.length_append, List.length_cons, List.length_nil]
    omega
  have hle := hsub.sublist.count_le nul
  have hc : ∀ s : WString, nul ∉ s → s.count nul = 0 := fun s => List.count_eq_zero_of_not_mem
  simp only [hu, List.count_append, List.count_cons_self, hc _ nul_notMem_startMark,
    hc _ cl.nul_notMem_toString] at hle
  omega

/-- **The parser accepts exactly its format, and the sender writes it.**  On
every message the parser is free of out-of-range positions and answers by
`WellFramed` alone; a rejected message leaves the out parameter as it was. -/
theorem parser_accepts_exactly_its_format (sh : Shell) :
    (∀ (cds : CopyDataStruct) (parsed : CommandLine),
      (WellFramed cds → processCopyDataMessage sh cds parsed =
        .ok (true, CommandLine.ofPointer sh (some (between (units cds))))) ∧
      (¬ WellFramed cds → processCopyDataMessage sh cds parsed = .ok (false, parsed))) ∧
    (∀ (cds : CopyDataStruct) (t rest : WString), cds.cbData.toNat % 2 = 0 → nul ∉ t →
      units cds = startMark ++ [nul] ++ t ++ [nul] ++ rest →
      WellFramed cds ∧ between (units cds) = t) ∧
    (∀ m : FirstWins.Map WString WString, (CommandLine.toString ⟨m⟩).length < 2 ^ 31 - 8 →
      WellFramed (copyDataFor ⟨m⟩) ∧
        between (units (copyDataFor ⟨m⟩)) = CommandLine.toString ⟨m⟩) := by
  refine ⟨fun cds parsed => ⟨processCopyDataMessage_framed sh parsed,
    processCopyDataMessage_unframed sh parsed⟩, fun cds t rest heven ht hu => ?_,
    fun m h => copyDataFor_framed ⟨m⟩ h⟩
  have hu' : units cds = startMark ++ nul :: (t ++ nul :: rest) := by simpa using hu
  exact ⟨wellFramed_of_split heven hu', by rw [hu', between_append ht]⟩

end CopyData

end SearchAndIdna

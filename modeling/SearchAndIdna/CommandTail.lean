import SearchAndIdna.Argv

/-!
# The tail of the command line and the whole of it

`_tWinMain` parses the arguments it is given, without the program name;
`CommandLine::Init` parses the whole line of the process.  Both go through
`CommandLineToArgvW`, which reads the first argument of any text as a program
name, so the first argument of the tail is read by other rules than the same
argument behind the program name.

* `ReadAlike`: the first argument is read alike by both rules;
* `argv_eq_readArgs`: then both readings give the same arguments;
* `argv_weighs_more`: otherwise the reading behind the program name has fewer
  quotation marks and backslashes, or fewer arguments;
* `tail_agrees_iff`: the same for the two ways of the program, and the maps.
-/

namespace SearchAndIdna

open FirstWins WString

namespace CommandTail

open CommandLine Argv

/-- The line of a process: the quoted program path, a blank, the arguments. -/
def wholeLine (p t : WString) : WString := quoteMark :: p ++ quoteMark :: 0x20 :: t

/-- The arguments after the program name when `Init` parses the whole line. -/
def argumentsAfterName (w : Whitespace) (p t : WString) : List WString :=
  (argumentsOf (shell w) (some (wholeLine p t))).tail

/-- The map these arguments contribute. -/
def contributed (w : Whitespace) (p t : WString) : CommandLine :=
  ⟨Map.ofList ((argumentsAfterName w p t).map splitCommand)⟩

/-- The first argument of `u` is read alike as a program name and as an argument:
it has no quotation mark, or it is one quoted block that is never closed, or one
that closes behind something else than a backslash and before whitespace. -/
def ReadAlike (w : Whitespace) (u : WString) : Prop :=
  if u.head? = some quoteMark then
    u.tail.dropWhile (· ≠ quoteMark) = [] ∨
      ((u.tail.takeWhile (· ≠ quoteMark)).getLast? ≠ some backslash ∧
        Stops w (u.tail.dropWhile (· ≠ quoteMark)).tail)
  else quoteMark ∉ u.takeWhile (!w.isSpace ·)

instance (w : Whitespace) (u : WString) : Decidable (ReadAlike w u) := by
  unfold ReadAlike
  infer_instance

/-! ## Reading on -/

/-- The reading after `s`, when no argument ends in it. -/
def run (r : Reading) (s : WString) : Reading := s.foldl Reading.next r

theorem run_append (r : Reading) (a b : WString) : run r (a ++ b) = run (run r a) b :=
  List.foldl_append ..

/-- Whitespace ends no argument here: there is none, or the mode is quoted. -/
theorem readArgs_solid (w : Whitespace) {t : WString} (ht : ∀ c ∈ t, w.isSpace c = false)
    (r : Reading) (s : WString) :
    readArgs w (some r) (t ++ s) = readArgs w (some (run r t)) s := by
  induction t generalizing r with
  | nil => rfl
  | cons c t ih =>
    rw [List.cons_append, readArgs, ht c (List.mem_cons_self ..), Bool.false_and,
      if_neg Bool.false_ne_true, ih (fun d hd => ht d (List.mem_cons_of_mem _ hd))]
    rfl

theorem run_of_noQuote {t : WString} (ht : quoteMark ∉ t) (r : Reading) :
    (run r t).finish = r.finish ++ t ∧ (run r t).quoted = r.quoted := by
  induction t generalizing r with
  | nil => simp [run]
  | cons c t ih =>
    obtain ⟨hc, ht⟩ := not_or.mp (mt List.mem_cons.mpr ht)
    obtain ⟨hf, hq, -⟩ := r.next_of_ne (Ne.symm hc)
    obtain ⟨hf', hq'⟩ := ih ht (r.next c)
    exact ⟨by rw [run, List.foldl_cons]; rw [run] at hf'; rw [hf', hf]; simp, hq'.trans hq⟩

theorem readArgs_quoted (w : Whitespace) {t : WString} (ht : quoteMark ∉ t) {r : Reading}
    (hr : r.quoted = true) (s : WString) :
    readArgs w (some r) (t ++ s) = readArgs w (some (run r t)) s := by
  induction t generalizing r with
  | nil => rfl
  | cons c t ih =>
    obtain ⟨hc, ht⟩ := not_or.mp (mt List.mem_cons.mpr ht)
    obtain ⟨-, hq, -⟩ := r.next_of_ne (Ne.symm hc)
    rw [List.cons_append, readArgs, hr, Bool.not_true, Bool.and_false,
      if_neg Bool.false_ne_true, ih ht (hq.trans hr)]
    rfl

/-- Backslashes are pending exactly at the end of the text read. -/
theorem run_slashes {t : WString} (ht : quoteMark ∉ t) (r : Reading) (hr : r.slashes = 0) :
    (run r t).slashes = 0 ↔ t.getLast? ≠ some backslash := by
  rcases List.eq_nil_or_concat t with rfl | ⟨t, c, rfl⟩
  · simp [run, hr]
  · have hc : c ≠ quoteMark := fun he => ht (by simp [he])
    rw [List.concat_eq_append, run_append, List.getLast?_concat]
    by_cases hb : c = backslash
    · subst hb
      simp [run, Reading.next]
    · simp [run, Reading.next, hb, hc]

theorem readArgs_stops (w : Whitespace) {s : WString} (hs : Stops w s) {r : Reading}
    (hr : r.quoted = false) : readArgs w (some r) s = r.finish :: readArgs w none s := by
  simpa using readArgs_word w (t := []) (by simp [Plain]) hs hr

theorem readArgs_none_start (w : Whitespace) {s : WString} (hs : ¬ Stops w s) :
    readArgs w none s = readArgs w (some Reading.start) s := by
  cases s with
  | nil => exact absurd trivial hs
  | cons c s =>
    have hc : w.isSpace c = false := by simpa [Stops] using hs
    rw [readArgs, readArgs, hc, Bool.false_and]
    rfl

theorem readArgs_quoteMark (w : Whitespace) (r : Reading) (s : WString) :
    readArgs w (some r) (quoteMark :: s) = readArgs w (some (r.next quoteMark)) s := by
  rw [readArgs, isSpace_quoteMark, Bool.false_and, if_neg Bool.false_ne_true]

/-! ## Units that are kept -/

/-- How many units of the arguments satisfy `f`. -/
def marks (f : WChar → Bool) (args : List WString) : Nat := (args.map (·.countP f)).sum

/-- What is written already does not change how the next unit is read. -/
theorem next_rest (r : Reading) (c : WChar) :
    (r.next c).arg = r.arg ++ (Reading.next ⟨[], r.slashes, false⟩ c).arg ∧
      (r.next c).slashes = (Reading.next ⟨[], r.slashes, false⟩ c).slashes := by
  simp only [Reading.next, Reading.finish]
  split
  · simp
  · split
    · split <;> simp
    · simp

/-- Except for whitespace, the units of the arguments depend on the text behind
alone, not on whether a quotation mark is open. -/
theorem marks_readArgs (w : Whitespace) (f : WChar → Bool)
    (hf : ∀ c, w.isSpace c = true → f c = false) (s : WString) :
    (∀ r, marks f (readArgs w (some r) s) =
      r.arg.countP f + marks f (readArgs w (some ⟨[], r.slashes, false⟩) s)) ∧
    marks f (readArgs w none s) = marks f (readArgs w (some Reading.start) s) := by
  induction s with
  | nil => exact ⟨fun r => by simp [readArgs, marks, Reading.finish], by simp [readArgs, marks,
      Reading.finish, Reading.start]⟩
  | cons c s ih =>
    obtain ⟨hsome, hnone⟩ := ih
    by_cases hc : w.isSpace c = true
    · have hsplit : ∀ r, marks f (readArgs w (some r) (c :: s)) =
          r.finish.countP f + marks f (readArgs w none s) := by
        intro r
        have hb : c ≠ backslash := ne_backslash_of_isSpace hc
        have hq : c ≠ quoteMark := ne_quoteMark_of_isSpace hc
        rw [readArgs, hc, Bool.true_and]
        split
        · rfl
        · rw [Reading.next, if_neg hb, if_neg hq, hsome, ← Reading.start, ← hnone,
            List.countP_append, List.countP_singleton, hf c hc]
          rfl
      refine ⟨fun r => ?_, ?_⟩
      · rw [hsplit, hsplit, Reading.finish, Reading.finish, List.countP_append, List.nil_append,
          Nat.add_assoc]
      · rw [hsplit, readArgs_none_space w hc]
        exact (Nat.zero_add _).symm
    · have hc : w.isSpace c = false := by simpa using hc
      have hstep : ∀ r, readArgs w (some r) (c :: s) = readArgs w (some (r.next c)) s := by
        intro r
        rw [readArgs, hc, Bool.false_and, if_neg Bool.false_ne_true]
      refine ⟨fun r => ?_, ?_⟩
      · obtain ⟨harg, hslashes⟩ := next_rest r c
        rw [hstep, hstep, hsome, hsome (Reading.next _ c), harg, hslashes, List.countP_append,
          Nat.add_assoc]
      · rw [hstep, readArgs, hc, if_neg Bool.false_ne_true]

/-- Quotation marks and backslashes. -/
def escape (c : WChar) : Bool := c = quoteMark || c = backslash

theorem escape_of_space {w : Whitespace} {c : WChar} (hc : w.isSpace c = true) :
    escape c = false := by
  simp [escape, ne_quoteMark_of_isSpace hc, ne_backslash_of_isSpace hc]

/-- A quotation mark costs a quotation mark or a backslash. -/
theorem escape_next_quote (r : Reading) :
    (r.next quoteMark).finish.countP escape ≤ r.finish.countP escape := by
  have hrep : ∀ n, (List.replicate n backslash).countP escape = n := by
    intro n
    rw [List.countP_replicate]
    rfl
  rw [Reading.next, if_neg quoteMark_ne_backslash, if_pos rfl]
  split
  · rename_i hodd
    have hone : [quoteMark].countP escape = 1 := rfl
    simp only [Reading.finish, List.countP_append, hrep, hone]
    omega
  · simp only [Reading.finish, List.countP_append, hrep]
    omega

theorem escape_run_le (t : WString) (r : Reading) :
    (run r t).finish.countP escape ≤ r.finish.countP escape + t.countP escape := by
  induction t generalizing r with
  | nil => exact Nat.le_add_right _ _
  | cons c t ih =>
    have hrun := ih (r.next c)
    rw [List.countP_cons, run, List.foldl_cons, ← run]
    by_cases hq : c = quoteMark
    · subst hq
      have hnext := escape_next_quote r
      omega
    · rw [(r.next_of_ne hq).1, List.countP_append, List.countP_singleton] at hrun
      omega

theorem escape_run_lt {t : WString} (ht : quoteMark ∈ t) (r : Reading) :
    (run r t).finish.countP escape < r.finish.countP escape + t.countP escape := by
  obtain ⟨a, b, rfl, -⟩ := List.eq_append_cons_of_mem ht
  have h₁ := escape_run_le a r
  have h₂ := escape_next_quote (run r a)
  have h₃ := escape_run_le b ((run r a).next quoteMark)
  have he : run r (a ++ quoteMark :: b) = run ((run r a).next quoteMark) b := by
    rw [run_append]; rfl
  have hone : escape quoteMark = true := rfl
  rw [he, List.countP_append, List.countP_cons, if_pos hone]
  omega

/-! ## The first argument -/

theorem unquoted_alike (w : Whitespace) {W R : WString} (hW : ∀ c ∈ W, w.isSpace c = false)
    (hR : Stops w R) (hq : quoteMark ∉ W) :
    W :: readArgs w none R = readArgs w (some Reading.start) (W ++ R) := by
  obtain ⟨hf, hquoted⟩ := run_of_noQuote hq Reading.start
  rw [readArgs_solid w hW, readArgs_stops w hR hquoted, hf]
  rfl

/-- A quotation mark behind the first unit is text in a program name only. -/
theorem unquoted_marks_lt (w : Whitespace) {W R : WString} (hW : ∀ c ∈ W, w.isSpace c = false)
    (hR : Stops w R) (hq : quoteMark ∈ W) :
    marks escape (readArgs w (some Reading.start) (W ++ R)) <
      marks escape (W :: readArgs w none R) := by
  have hlt := escape_run_lt hq Reading.start
  have hmarks := (marks_readArgs w escape (fun _ => escape_of_space) R).1
  rw [readArgs_solid w hW, hmarks, readArgs_stops w hR rfl]
  simp only [Reading.finish, Reading.start, marks, List.map_cons, List.sum_cons,
    List.countP_append, List.nil_append, List.countP_nil, List.replicate_zero] at hlt ⊢
  omega

section Quoted

variable (w : Whitespace) {X Y : WString}

/-- After the closing quotation mark of a block `X`. -/
theorem quoted_alike (hX : quoteMark ∉ X) (hslash : X.getLast? ≠ some backslash)
    (hY : Stops w Y) :
    X :: readArgs w none Y = readArgs w (some ⟨[], 0, true⟩) (X ++ quoteMark :: Y) := by
  obtain ⟨hf, hquoted⟩ := run_of_noQuote hX ⟨[], 0, true⟩
  have hzero := (run_slashes hX ⟨[], 0, true⟩ rfl).mpr hslash
  rw [readArgs_quoted w hX rfl, readArgs_quoteMark]
  generalize run ⟨[], 0, true⟩ X = r at hf hquoted hzero
  have hnext : r.next quoteMark = ⟨X, 0, false⟩ := by
    have harg : r.arg = X := by simpa [Reading.finish, hzero] using hf
    simp [Reading.next, hzero, quoteMark_ne_backslash, harg, hquoted]
  rw [hnext, readArgs_stops w hY rfl]
  simp [Reading.finish]

/-- Backslashes before the closing mark are halved behind the program name. -/
theorem quoted_marks_lt (hX : quoteMark ∉ X) (hslash : X.getLast? = some backslash) :
    marks (· = backslash) (readArgs w (some ⟨[], 0, true⟩) (X ++ quoteMark :: Y)) <
      marks (· = backslash) (X :: readArgs w none Y) := by
  obtain ⟨hf, -⟩ := run_of_noQuote hX ⟨[], 0, true⟩
  have hpos : (run ⟨[], 0, true⟩ X).slashes ≠ 0 := fun hzero =>
    (run_slashes hX ⟨[], 0, true⟩ rfl).mp hzero hslash
  have hspace : ∀ c, w.isSpace c = true → decide (c = backslash) = false := by
    intro c hc
    have he := escape_of_space hc
    simp only [escape, Bool.or_eq_false_iff] at he
    exact he.2
  obtain ⟨hmarks, hnone⟩ := marks_readArgs w (· = backslash) hspace Y
  rw [readArgs_quoted w hX rfl, readArgs_quoteMark]
  generalize run ⟨[], 0, true⟩ X = r at hf hpos
  have hclosed : (r.next quoteMark).slashes = 0 ∧
      (r.next quoteMark).arg.countP (· = backslash) =
        r.arg.countP (· = backslash) + r.slashes / 2 := by
    rw [Reading.next, if_neg quoteMark_ne_backslash, if_pos rfl]
    split
    · simp [List.countP_replicate, quoteMark_ne_backslash]
    · simp [List.countP_replicate]
  have hcount : X.countP (· = backslash) = r.arg.countP (· = backslash) + r.slashes := by
    have hf : r.arg ++ List.replicate r.slashes backslash = X := hf
    rw [← hf, List.countP_append, List.countP_replicate]
    simp
  rw [hmarks, hclosed.1, hclosed.2, ← Reading.start, ← hnone, marks, marks, List.map_cons,
    List.sum_cons, hcount]
  omega

/-- Text that goes on behind the closing mark is an argument of its own only
behind a program name. -/
theorem quoted_length_lt (hX : quoteMark ∉ X) (hslash : X.getLast? ≠ some backslash)
    (hY : ¬ Stops w Y) :
    (readArgs w (some ⟨[], 0, true⟩) (X ++ quoteMark :: Y)).length <
      (X :: readArgs w none Y).length := by
  obtain ⟨hf, hquoted⟩ := run_of_noQuote hX ⟨[], 0, true⟩
  have hzero := (run_slashes hX ⟨[], 0, true⟩ rfl).mpr hslash
  rw [readArgs_quoted w hX rfl, readArgs_quoteMark]
  generalize run ⟨[], 0, true⟩ X = r at hf hquoted hzero
  have hnext : r.next quoteMark = Reading.start.behind r.arg := by
    simp [Reading.next, hzero, quoteMark_ne_backslash, hquoted, Reading.behind, Reading.start]
  rw [hnext, readArgs_behind, List.length_modifyHead, readArgs_none_start w hY, List.length_cons]
  exact Nat.lt_succ_self _

end Quoted

/-! ## Both readings of one text -/

/-- A quoted text is one open block, or a closed one and what follows. -/
theorem quoted_split (s : WString) :
    quoteMark ∉ s.takeWhile (· ≠ quoteMark) ∧
      (s.dropWhile (· ≠ quoteMark) = [] ∧ s.takeWhile (· ≠ quoteMark) = s ∨
        s.takeWhile (· ≠ quoteMark) ++ quoteMark :: (s.dropWhile (· ≠ quoteMark)).tail = s) := by
  have hs := List.takeWhile_append_dropWhile (p := (· ≠ quoteMark)) (l := s)
  refine ⟨fun h => by simpa using List.mem_takeWhile_imp h, ?_⟩
  cases hd : s.dropWhile (· ≠ quoteMark) with
  | nil =>
    rw [hd, List.append_nil] at hs
    exact Or.inl ⟨rfl, hs⟩
  | cons c Y =>
    have hc := List.head?_dropWhile_not (· ≠ quoteMark) s
    rw [hd] at hc
    have hc : c = quoteMark := by simpa using hc
    rw [hd, hc] at hs
    exact Or.inr hs

theorem readArgs_open (w : Whitespace) {X : WString} (hX : quoteMark ∉ X) :
    readArgs w (some ⟨[], 0, true⟩) X = [X] := by
  have hread := readArgs_quoted w hX (r := ⟨[], 0, true⟩) rfl []
  rw [List.append_nil, readArgs, (run_of_noQuote hX ⟨[], 0, true⟩).1] at hread
  exact hread

theorem readArgs_openQuote (w : Whitespace) (s : WString) :
    readArgs w none (quoteMark :: s) = readArgs w (some ⟨[], 0, true⟩) s := by
  have hq : ¬ Stops w (quoteMark :: s) := by
    simp [Stops, isSpace_quoteMark]
  rw [readArgs_none_start w hq, readArgs_quoteMark]
  rfl

theorem argv_eq_readArgs (w : Whitespace) {u : WString} (hu : ¬ Stops w u)
    (h : ReadAlike w u) : commandLineToArgvW w u = readArgs w none u := by
  rw [ReadAlike] at h
  split at h
  · rename_i hq
    obtain ⟨s, rfl⟩ : ∃ s, u = quoteMark :: s := List.head?_eq_some_iff.mp hq
    obtain ⟨hX, hsplit⟩ := quoted_split s
    rw [List.tail_cons] at h
    rw [argv_quoted, readArgs_openQuote]
    rcases hsplit with ⟨hopen, hwhole⟩ | hsplit
    · rw [hopen, List.tail_nil, readArgs, hwhole, readArgs_open w (hwhole ▸ hX)]
    · rcases h with hopen | ⟨hslash, hY⟩
      · have hs := List.takeWhile_append_dropWhile (p := (· ≠ quoteMark)) (l := s)
        rw [hopen, List.append_nil] at hs
        rw [hopen, List.tail_nil, readArgs, hs, readArgs_open w (hs ▸ hX)]
      · rw [quoted_alike w hX hslash hY, hsplit]
  · rename_i hq
    have hsplit := List.takeWhile_append_dropWhile (p := (!w.isSpace ·)) (l := u)
    have hW : ∀ c ∈ u.takeWhile (!w.isSpace ·), w.isSpace c = false := fun c hc => by
      simpa using List.mem_takeWhile_imp hc
    rw [argv_unquoted w hq, unquoted_alike w hW (stops_dropWhile w u) h, hsplit,
      readArgs_none_start w hu]

/-- The text behind the program name is read as less than the text alone. -/
def Weaker (a b : List WString) : Prop :=
  marks escape a < marks escape b ∨ marks (· = backslash) a < marks (· = backslash) b ∨
    a.length < b.length

theorem argv_weighs_more (w : Whitespace) {u : WString} (hu : ¬ Stops w u)
    (h : ¬ ReadAlike w u) : Weaker (readArgs w none u) (commandLineToArgvW w u) := by
  rw [ReadAlike] at h
  split at h
  · rename_i hq
    obtain ⟨s, rfl⟩ : ∃ s, u = quoteMark :: s := List.head?_eq_some_iff.mp hq
    obtain ⟨hX, hsplit⟩ := quoted_split s
    rw [List.tail_cons, not_or, not_and_or, not_not] at h
    obtain ⟨hclosed, h⟩ := h
    rcases hsplit with ⟨hopen, -⟩ | hsplit
    · exact absurd hopen hclosed
    rw [argv_quoted, readArgs_openQuote]
    conv in readArgs w (some _) s => rw [← hsplit]
    by_cases hslash : (s.takeWhile (· ≠ quoteMark)).getLast? = some backslash
    · exact Or.inr (Or.inl (quoted_marks_lt w hX hslash))
    · exact Or.inr (Or.inr (quoted_length_lt w hX hslash (h.resolve_left hslash)))
  · rename_i hq
    have hsplit := List.takeWhile_append_dropWhile (p := (!w.isSpace ·)) (l := u)
    have hW : ∀ c ∈ u.takeWhile (!w.isSpace ·), w.isSpace c = false := fun c hc => by
      simpa using List.mem_takeWhile_imp hc
    have hlt := unquoted_marks_lt w hW (stops_dropWhile w u) (not_not.mp h)
    rw [argv_unquoted w hq, readArgs_none_start w hu]
    rw [hsplit] at hlt
    exact Or.inl hlt

/-! ## The two ways of the program -/

theorem rdropWhile_append (p : WChar → Bool) (a m : WString) :
    (a ++ m).rdropWhile p = if m.rdropWhile p = [] then a.rdropWhile p else a ++ m.rdropWhile p := by
  simp only [List.rdropWhile, List.reverse_append, List.dropWhile_append, List.reverse_eq_nil_iff,
    List.isEmpty_iff]
  split <;> simp

/-- Trimming may start at either end. -/
theorem dropWhile_rdropWhile (w : Whitespace) (s : WString) :
    (s.rdropWhile w.isSpace).dropWhile w.isSpace = trim w s := by
  have hsplit := List.takeWhile_append_dropWhile (p := w.isSpace) (l := s)
  have hall : ∀ c ∈ s.takeWhile w.isSpace, w.isSpace c = true := fun c hc =>
    List.mem_takeWhile_imp hc
  have hstart : ∀ m : WString, m <+: s.dropWhile w.isSpace → m.dropWhile w.isSpace = m := by
    intro m hm
    cases m with
    | nil => rfl
    | cons c m =>
      obtain ⟨rest, hrest⟩ := hm
      have h := List.head?_dropWhile_not w.isSpace s
      rw [← hrest] at h
      exact List.dropWhile_cons_of_neg (by simpa using h)
  rw [trim]
  conv_lhs => rw [← hsplit]
  rw [rdropWhile_append]
  split
  · rename_i hnil
    rw [hnil, List.dropWhile_eq_nil_iff]
    exact fun c hc => hall c ((List.rdropWhile_prefix _ _).subset hc)
  · rw [List.dropWhile_append_of_pos hall]
    exact hstart _ (List.rdropWhile_prefix _ _)

theorem readArgs_dropWhile (w : Whitespace) (s : WString) :
    readArgs w none (s.dropWhile w.isSpace) = readArgs w none s := by
  induction s with
  | nil => rfl
  | cons c s ih =>
    by_cases hc : w.isSpace c = true
    · rw [List.dropWhile_cons_of_pos hc, ih, readArgs_none_space w hc]
    · rw [List.dropWhile_cons_of_neg hc]

theorem argv_quotedName (w : Whitespace) {p : WString} (hp : quoteMark ∉ p) (s : WString) :
    commandLineToArgvW w (quoteMark :: p ++ quoteMark :: s) = p :: readArgs w none s := by
  have hall : ∀ c ∈ p, decide (c ≠ quoteMark) = true := by
    intro c hc
    have hne : c ≠ quoteMark := fun he => hp (he ▸ hc)
    simpa using hne
  rw [List.cons_append, argv_quoted, List.takeWhile_append_of_pos hall,
    List.dropWhile_append_of_pos hall]
  simp

/-- Trimming the whole line trims the arguments at their end. -/
theorem trim_wholeLine (w : Whitespace) (p t : WString) :
    trim w (wholeLine p t) =
      quoteMark :: p ++ quoteMark ::
        (if t.rdropWhile w.isSpace = [] then [] else 0x20 :: t.rdropWhile w.isSpace) := by
  have hq : w.isSpace quoteMark = false := isSpace_quoteMark w
  have hline : wholeLine p t = (quoteMark :: p ++ [quoteMark]) ++ ([0x20] ++ t) := by
    simp [wholeLine]
  have hdrop : (wholeLine p t).dropWhile w.isSpace = wholeLine p t := by
    rw [wholeLine, List.cons_append, List.dropWhile_cons_of_neg (by simp [hq])]
  have hname : (quoteMark :: p ++ [quoteMark]).rdropWhile w.isSpace =
      quoteMark :: p ++ [quoteMark] :=
    List.rdropWhile_concat_neg _ _ _ (by simp [hq])
  have hblank : ([0x20] : WString).rdropWhile w.isSpace = [] := by
    rw [List.rdropWhile_singleton, if_pos w.blank]
  rw [trim, hdrop, hline, rdropWhile_append, rdropWhile_append, hblank, hname]
  split <;> rename_i h <;> simp

theorem not_stops_trim (w : Whitespace) {s : WString} (hne : trim w s ≠ []) :
    ¬ Stops w (trim w s) := by
  obtain ⟨c, u, hu⟩ := List.exists_cons_of_ne_nil hne
  obtain ⟨rest, hrest⟩ := List.rdropWhile_prefix w.isSpace (s.dropWhile w.isSpace)
  have hhead := List.head?_dropWhile_not w.isSpace s
  rw [← hrest, ← trim, hu] at hhead
  rw [hu]
  simpa [Stops] using hhead

theorem nul_notMem_next {r : Reading} {c : WChar} (hr : nul ∉ r.finish) (hc : c ≠ nul) :
    nul ∉ (r.next c).finish := by
  have hrep : ∀ n, nul ∉ List.replicate n backslash := fun n hm =>
    absurd (List.eq_of_mem_replicate hm) (by decide)
  have hmark : nul ≠ quoteMark := by decide
  simp only [Reading.finish, List.mem_append, not_or] at hr
  by_cases hq : c = quoteMark
  · subst hq
    rw [Reading.next, if_neg (by decide), if_pos rfl]
    split <;> simp [Reading.finish, hr.1, hrep, hmark]
  · rw [(r.next_of_ne hq).1]
    simp [Reading.finish, hr.1, hrep, Ne.symm hc]

theorem nul_notMem_readArgs (w : Whitespace) {s : WString} (hs : nul ∉ s) :
    (∀ r, nul ∉ r.finish → ∀ a ∈ readArgs w (some r) s, nul ∉ a) ∧
      ∀ a ∈ readArgs w none s, nul ∉ a := by
  induction s with
  | nil => simp [readArgs]
  | cons c s ih =>
    obtain ⟨hc, hs⟩ := not_or.mp (mt List.mem_cons.mpr hs)
    obtain ⟨hsome, hnone⟩ := ih hs
    constructor
    · intro r hr
      rw [readArgs]
      split
      · rintro a (_ | ⟨_, ha⟩)
        · exact hr
        · exact hnone a ha
      · exact hsome _ (nul_notMem_next hr (Ne.symm hc))
    · rw [readArgs]
      split
      · exact hnone
      · exact hsome _ (nul_notMem_next (r := Reading.start) (by decide) (Ne.symm hc))

theorem nul_notMem_argv (w : Whitespace) {u : WString} (hu : nul ∉ u) :
    ∀ a ∈ commandLineToArgvW w u, nul ∉ a := by
  have hname : (∀ c ∈ (programName w u).1, c ∈ u) ∧ ∀ c ∈ (programName w u).2, c ∈ u := by
    cases u with
    | nil => simp [programName]
    | cons c s =>
      rw [programName]
      split
      · exact ⟨fun d hd => List.mem_cons_of_mem _ ((List.takeWhile_sublist _).subset hd),
          fun d hd => List.mem_cons_of_mem _
            ((List.dropWhile_sublist _).subset (List.mem_of_mem_tail hd))⟩
      · exact ⟨(List.takeWhile_sublist (!w.isSpace ·)).subset,
          (List.dropWhile_sublist (!w.isSpace ·)).subset⟩
  rintro a (_ | ⟨_, ha⟩)
  · exact fun hm => hu (hname.1 _ hm)
  · exact (nul_notMem_readArgs w fun hm => hu (hname.2 _ hm)).2 a ha

theorem map_cStr_eq {args : List WString} (h : ∀ a ∈ args, nul ∉ a) : args.map cStr = args :=
  (List.map_congr_left fun a ha => cStr_eq_self (h a ha)).trans (List.map_id _)

theorem argumentsOf_tail (w : Whitespace) (t : WString) :
    argumentsOf (shell w) (some t) =
      if trim w (cStr t) = [] then [] else commandLineToArgvW w (trim w (cStr t)) := by
  have hnul : nul ∉ trim w (cStr t) := fun hm => nul_notMem_cStr t (mem_of_mem_trim hm)
  simp only [argumentsOf, arguments, shell, cStr_eq_self hnul]
  split
  · rfl
  · exact map_cStr_eq (nul_notMem_argv w hnul)

theorem argumentsAfterName_eq (w : Whitespace) {p : WString} (hp : quoteMark ∉ p)
    (hn : nul ∉ p) (t : WString) :
    argumentsAfterName w p t = readArgs w none (trim w (cStr t)) := by
  have hline : cStr (wholeLine p t) = wholeLine p (cStr t) := by
    have hall : ∀ c ∈ quoteMark :: p ++ [quoteMark, 0x20], decide (c ≠ nul) = true := by
      intro c hc
      have hne : c ≠ nul := by
        rintro rfl
        simp only [List.cons_append, List.mem_cons, List.mem_append, List.not_mem_nil,
          or_false] at hc
        rcases hc with hc | hc | hc | hc
        · exact absurd hc (by decide)
        · exact hn hc
        · exact absurd hc (by decide)
        · exact absurd hc (by decide)
      simpa using hne
    have hsplit : ∀ t, wholeLine p t = (quoteMark :: p ++ [quoteMark, 0x20]) ++ t := by
      simp [wholeLine]
    rw [hsplit, hsplit, cStr, List.takeWhile_append_of_pos hall, cStr]
  have htrim := trim_wholeLine w p (cStr t)
  have hne : trim w (wholeLine p (cStr t)) ≠ [] := by
    rw [htrim]
    simp
  have hnul : nul ∉ trim w (wholeLine p (cStr t)) := fun hm =>
    nul_notMem_cStr (wholeLine p t) (hline ▸ mem_of_mem_trim hm)
  simp only [argumentsAfterName, argumentsOf, arguments, shell, hline, if_neg hne,
    cStr_eq_self hnul, map_cStr_eq (nul_notMem_argv w hnul)]
  rw [htrim, argv_quotedName w hp, List.tail_cons, ← dropWhile_rdropWhile, readArgs_dropWhile]
  split
  · rename_i hnil
    rw [hnil]
  · exact readArgs_none_space w w.blank _

/-! ## The maps -/

/-- Splitting a command at its separator keeps every other unit. -/
theorem countP_splitCommand (f : WChar → Bool) (hf : f 0x3d = false) (a : WString) :
    (splitCommand a).1.countP f + (splitCommand a).2.countP f = a.countP f := by
  by_cases hpre : kSwitchPrefix <+: a
  · by_cases hs : (0x3d : WChar) ∈ a
    · rw [splitCommand_prefixed hpre hs]
      have hsplit := List.takeWhile_append_dropWhile (p := (· ≠ (0x3d : WChar))) (l := a)
      have hhead := List.head?_dropWhile_not (· ≠ (0x3d : WChar)) a
      conv_rhs => rw [← hsplit, List.countP_append]
      cases hd : a.dropWhile (· ≠ (0x3d : WChar)) with
      | nil => rfl
      | cons c rest =>
        rw [hd] at hhead
        have hc : c = 0x3d := by simpa using hhead
        rw [hc, List.countP_cons_of_neg (by simp [hf])]
        rfl
    · rw [splitCommand_of_notMem hs]
      rfl
  · rw [splitCommand_unprefixed hpre]
    rfl

theorem weight_splitCommand (f : WChar → Bool) (hf : f 0x3d = false) (args : List WString) :
    Map.weight (fun e => e.1.countP f + e.2.countP f) (args.map splitCommand) = marks f args := by
  rw [Map.weight, marks, List.map_map]
  exact congrArg List.sum (List.map_congr_left fun a _ => countP_splitCommand f hf a)

/-- The keys the arguments name, in order. -/
def keysOf (args : List WString) : List WString := args.map (fun a => (splitCommand a).1)

/-- Arguments that repeat no key are not made up for by weaker ones. -/
theorem ofList_ne_of_weaker {a b : List WString} (hnodup : (keysOf b).Nodup)
    (h : Weaker a b) :
    Map.ofList (b.map splitCommand) ≠ Map.ofList (a.map splitCommand) := by
  have hkeys : ((b.map splitCommand).map Prod.fst).Nodup := by
    rw [List.map_map]
    exact hnodup
  have key : ∀ g : WString × WString → Nat,
      Map.ofList (b.map splitCommand) = Map.ofList (a.map splitCommand) →
      Map.weight g (b.map splitCommand) ≤ Map.weight g (a.map splitCommand) := by
    intro g he
    rw [← Map.weight_ofList_of_nodup g hkeys, he]
    exact Map.weight_ofList_le g _
  intro he
  rcases h with h | h | h
  · have hle := key (fun e => e.1.countP escape + e.2.countP escape) he
    rw [weight_splitCommand escape (by decide), weight_splitCommand escape (by decide)] at hle
    exact absurd h (Nat.not_lt.mpr hle)
  · have hle := key
      (fun e => e.1.countP (· = backslash) + e.2.countP (· = backslash)) he
    rw [weight_splitCommand _ (by decide), weight_splitCommand _ (by decide)] at hle
    exact absurd h (Nat.not_lt.mpr hle)
  · have hle := key (fun _ => 1) he
    simp only [Map.weight, List.map_const', List.sum_replicate, List.length_map, smul_eq_mul,
      Nat.mul_one] at hle
    omega

/-- The map read from the tail and the map read from the whole line agree. -/
def TailAgrees (w : Whitespace) (p t : WString) : Prop :=
  SameSwitchMap (ofPointer (shell w) (some t)) (contributed w p t)

theorem tailAgrees_iff (w : Whitespace) (p t : WString) :
    TailAgrees w p t ↔ Map.ofList ((argumentsOf (shell w) (some t)).map splitCommand) =
      Map.ofList ((argumentsAfterName w p t).map splitCommand) := by
  rw [TailAgrees, sameSwitchMap_iff, ofPointer_eq, contributed, CommandLine.ext_iff]

/-- The two argument lists are equal, or the one behind the program name is weaker. -/
theorem arguments_eq_or_weaker (w : Whitespace) {p : WString} (hp : quoteMark ∉ p)
    (hn : nul ∉ p) (t : WString) :
    (ReadAlike w (trim w (cStr t)) →
      argumentsOf (shell w) (some t) = argumentsAfterName w p t) ∧
    (¬ ReadAlike w (trim w (cStr t)) →
      Weaker (argumentsAfterName w p t) (argumentsOf (shell w) (some t))) := by
  rw [argumentsOf_tail, argumentsAfterName_eq w hp hn]
  split
  · rename_i hnil
    rw [hnil]
    exact ⟨fun _ => rfl, fun h => absurd (by simp [ReadAlike]) h⟩
  · rename_i hne
    exact ⟨argv_eq_readArgs w (not_stops_trim w hne), argv_weighs_more w (not_stops_trim w hne)⟩

/-- **When the two ways agree.**  They agree when the first argument of the tail
is read alike by both rules; exactly then they read the same arguments, and if
the tail repeats no key, exactly then they have the same switches. -/
theorem tail_agrees_iff (w : Whitespace) (p t : WString) (hp : quoteMark ∉ p) (hn : nul ∉ p) :
    (ReadAlike w (trim w (cStr t)) → TailAgrees w p t) ∧
    (argumentsOf (shell w) (some t) = argumentsAfterName w p t ↔
      ReadAlike w (trim w (cStr t))) ∧
    ((keysOf (argumentsOf (shell w) (some t))).Nodup →
      (TailAgrees w p t ↔ ReadAlike w (trim w (cStr t)))) := by
  obtain ⟨hsame, hweaker⟩ := arguments_eq_or_weaker w hp hn t
  have hagree : ReadAlike w (trim w (cStr t)) → TailAgrees w p t := by
    intro h
    rw [tailAgrees_iff, hsame h]
  refine ⟨hagree, ⟨fun he => ?_, hsame⟩, fun hnodup => ⟨fun ha => ?_, hagree⟩⟩
  · by_contra hnot
    have hlt := hweaker hnot
    rw [he] at hlt
    rcases hlt with h | h | h <;> exact lt_irrefl _ h
  · by_contra hnot
    exact ofList_ne_of_weaker hnodup (hweaker hnot) ((tailAgrees_iff w p t).mp ha)

/-- `a=1 b` behind `C:\S.exe`: the claim's two sides, read by both rules. -/
theorem tail_agrees_plain :
    TailAgrees blanks [0x43, 0x3a, 0x5c, 0x53, 0x2e, 0x65, 0x78, 0x65]
        [0x61, 0x3d, 0x31, 0x20, 0x62] ∧
      (keysOf (argumentsOf (shell blanks) (some [0x61, 0x3d, 0x31, 0x20, 0x62]))).Nodup :=
  ⟨(tail_agrees_iff blanks [0x43, 0x3a, 0x5c, 0x53, 0x2e, 0x65, 0x78, 0x65]
    [0x61, 0x3d, 0x31, 0x20, 0x62] (by decide) (by decide)).1 (by decide), by decide⟩

/-- `a"b c"`: the tail gives `a"b` and `c`, the whole line gives `ab c`. -/
theorem tail_quote_disagrees :
    quoteMark ∉ ([0x53] : WString) ∧
      ¬ TailAgrees blanks [0x53] [0x61, 0x22, 0x62, 0x20, 0x63, 0x22] := by
  refine ⟨by decide, fun h => ?_⟩
  have hkey := (h [0x61, 0x62, 0x20, 0x63]).1
  exact absurd hkey (by decide)

end CommandTail

end SearchAndIdna

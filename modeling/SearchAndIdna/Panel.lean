import SearchAndIdna.WideString
import SearchAndIdna.Lib.Utf16
import SearchAndIdna.Lib.Xml

/-!
# The panel of a desktop item

`TraversalProgram` (`Search/search_frame.cpp`) formats the template
IDS_BOX_PANEL_XML_TO_FORMAT of `string.xml` with two positions and the raw
display name, and has a view made from the result.

* `format_boxPanel`: what the formatter writes;
* `readXml_panelXml`: what an XML reader makes of it, for every name;
* `shows_name_iff`: for which names the panel shows the name.
-/

namespace SearchAndIdna

open WString

namespace Panel

/-- An argument of `RCStringUtil::Format`. -/
inductive Arg
  | d (n : Int)
  | s (text : WString)
  deriving DecidableEq, Repr

/-- `%d`. -/
def decimal (n : Int) : List Char :=
  if n < 0 then '-' :: Nat.toDigits 10 n.natAbs else Nat.toDigits 10 n.natAbs

/-- `RCStringUtil::Format`, as far as `%d` and `%s` go. -/
def format : WString → List Arg → WString
  | 0x25 :: 0x64 :: rest, .d n :: args => Utf16.encode (decimal n) ++ format rest args
  | 0x25 :: 0x73 :: rest, .s text :: args => text ++ format rest args
  | c :: rest, args => c :: format rest args
  | [], _ => []

/-- String 11003 of `string.xml`, line by line. -/
def boxPanelText : List Char :=
  '\n' ::
  ("    <menupanel id=\"12002\" class=\"box_panel\" height=\"30\" expand=\"1\" cursor=\"hand\">\n".toList ++
  ("      <img id=\"12003\" pos=\"%d,5\" cursor=\"hand\"/>\n".toList ++
  ("      <text id=\"12004\" pos=\"%d,7\" height=\"38\" class=\"style_listbox_panel_text\"".toList ++
  (" cursor=\"hand\">%s</text>\n".toList ++
  "    </menupanel>\n   ".toList))))

/-- IDS_BOX_PANEL_XML_TO_FORMAT. -/
def boxPanelXmlToFormat : WString := Utf16.encode boxPanelText

/-- `xml` in `TraversalProgram`. -/
def panelXml (level : Int32) (display_name : WString) : WString :=
  format boxPanelXmlToFormat
    [.d (10 + 20 * (level - 1)).toInt, .d (35 + 20 * (level - 1)).toInt, .s display_name]

/-- `CreateViewByString`: no view for text that is not UTF-16 or not well-formed. -/
def readXml (s : WString) : Option Xml.Node := (Utf16.decode s).bind Xml.read

/-! ## The pieces of the template -/

def beforeImagePos : List Char :=
  "\n    <menupanel id=\"12002\" class=\"box_panel\" height=\"30\" expand=\"1\" cursor=\"hand\">\n      <img id=\"12003\" pos=\"".toList

def beforeTextPos : List Char :=
  ",5\" cursor=\"hand\"/>\n      <text id=\"12004\" pos=\"".toList

def beforeName : List Char :=
  ",7\" height=\"38\" class=\"style_listbox_panel_text\" cursor=\"hand\">".toList

def afterName : List Char := "</text>\n    </menupanel>\n   ".toList

theorem format_append {a : WString} (ha : 0x25 ∉ a) (rest : WString) (args : List Arg) :
    format (a ++ rest) args = a ++ format rest args := by
  induction a with
  | nil => rfl
  | cons c a ih =>
    obtain ⟨hc, ha⟩ := not_or.mp (mt List.mem_cons.mpr ha)
    rw [List.cons_append, format, ih ha]
    · rfl
    · exact fun _ _ _ _ he => absurd he.symm hc
    · exact fun _ _ _ _ he => absurd he.symm hc

theorem boxPanelText_split :
    boxPanelText = beforeImagePos ++ '%' :: 'd' :: (beforeTextPos ++ '%' :: 'd' ::
      (beforeName ++ '%' :: 's' :: afterName)) := by
  decide +kernel

theorem percent_notMem_encode {s : List Char} (h : '%' ∉ s) : 0x25 ∉ Utf16.encode s := by
  rw [Utf16.mem_encode_iff (by decide)]
  exact h

theorem format_boxPanel (m n : Int) (name : WString) :
    format boxPanelXmlToFormat [.d m, .d n, .s name] =
      Utf16.encode (beforeImagePos ++ (decimal m ++ (beforeTextPos ++ (decimal n ++ beforeName)))) ++
        (name ++ Utf16.encode afterName) := by
  have hd : Utf16.encodeChar '%' ++ Utf16.encodeChar 'd' = [0x25, 0x64] := by decide
  have hs : Utf16.encodeChar '%' ++ Utf16.encodeChar 's' = [0x25, 0x73] := by decide
  have hnil := format_append (percent_notMem_encode (s := afterName) (by decide +kernel)) [] []
  rw [List.append_nil] at hnil
  rw [boxPanelXmlToFormat, boxPanelText_split]
  simp only [Utf16.encode_append, Utf16.encode_cons, ← List.append_assoc (Utf16.encodeChar '%'), hd,
    hs, List.append_assoc]
  rw [format_append (percent_notMem_encode (by decide +kernel)), List.cons_append, List.cons_append,
    List.nil_append, format, format_append (percent_notMem_encode (by decide +kernel)),
    List.cons_append, List.cons_append, List.nil_append, format,
    format_append (percent_notMem_encode (by decide +kernel)), List.cons_append, List.cons_append,
    List.nil_append, format, hnil, format, List.append_nil]

/-! ## Scanning the pieces -/

open Xml

/-- Character data as it stands. -/
def textEvents (s : String) : List Event := s.toList.map (.char · false)

def panelAttributes : List (List Char × List Char) :=
  [("id".toList, "12002".toList), ("class".toList, "box_panel".toList),
    ("height".toList, "30".toList), ("expand".toList, "1".toList), ("cursor".toList, "hand".toList)]

def imageAttributes (x : List Char) : List (List Char × List Char) :=
  [("id".toList, "12003".toList), ("pos".toList, x ++ ",5".toList),
    ("cursor".toList, "hand".toList)]

def textAttributes (x : List Char) : List (List Char × List Char) :=
  [("id".toList, "12004".toList), ("pos".toList, x ++ ",7".toList), ("height".toList, "38".toList),
    ("class".toList, "style_listbox_panel_text".toList), ("cursor".toList, "hand".toList)]

/-- In front of the first position. -/
def imagePosEvents : List Event :=
  textEvents "\n    " ++ (startTag "menupanel".toList panelAttributes ++ (.endOpen ::
    (textEvents "\n      " ++ startTag "img".toList [("id".toList, "12003".toList), ("pos".toList, [])])))

/-- Between the positions. -/
def textPosEvents : List Event :=
  ",5".toList.map .valueChar ++ (.attribute "cursor".toList :: ("hand".toList.map .valueChar ++
    (.endEmpty :: (textEvents "\n      " ++
      startTag "text".toList [("id".toList, "12004".toList), ("pos".toList, [])]))))

/-- Between the second position and the name. -/
def nameEvents : List Event :=
  ",7".toList.map .valueChar ++ (.attribute "height".toList :: ("38".toList.map .valueChar ++
    (.attribute "class".toList :: ("style_listbox_panel_text".toList.map .valueChar ++
      (.attribute "cursor".toList :: ("hand".toList.map .valueChar ++ [.endOpen]))))))

def closeEvents : List Event :=
  .close "text".toList :: (textEvents "\n    " ++ .close "menupanel".toList ::
    textEvents "\n   ")

theorem scan_beforeImagePos :
    scan (.content 0) beforeImagePos = some (.value '"', imagePosEvents) := by
  decide +kernel

theorem scan_beforeTextPos :
    scan (.value '"') beforeTextPos = some (.value '"', textPosEvents) := by
  decide +kernel

theorem scan_beforeName :
    scan (.value '"') beforeName = some (.content 0, nameEvents) := by
  decide +kernel

theorem scan_afterName (brackets : Nat) :
    scan (.content brackets) afterName = some (.content 0, closeEvents) := by
  have hfirst : scan (.content brackets) afterName = scan (.content 0) afterName := rfl
  rw [hfirst]
  decide +kernel

theorem decimal_chars (n : Int) : ∀ c ∈ decimal n, c = '-' ∨ c.isDigit = true := by
  have hdigits : ∀ c ∈ Nat.toDigits 10 n.natAbs, c = '-' ∨ c.isDigit = true := fun c hc =>
    Or.inr (Nat.isDigit_of_mem_toDigits (by decide) (by decide) hc)
  rw [decimal]
  split
  · rintro c (_ | ⟨_, hc⟩)
    · exact Or.inl rfl
    · exact hdigits c hc
  · exact hdigits

theorem scan_decimal (n : Int) :
    scan (.value '"') (decimal n) = some (.value '"', (decimal n).map .valueChar) := by
  refine scan_value fun c hc => ?_
  rcases decimal_chars n c hc with rfl | hdigit
  · decide
  · have hrange : 48 ≤ c.toNat ∧ c.toNat ≤ 57 := by
      simp only [Char.isDigit, Bool.and_eq_true, decide_eq_true_eq] at hdigit
      exact ⟨hdigit.1, hdigit.2⟩
    have hne : ∀ d : Char, ¬ (48 ≤ d.toNat ∧ d.toNat ≤ 57) → c ≠ d := by
      rintro d hd rfl
      exact hd hrange
    refine ⟨?_, hne _ (by decide), hne _ (by decide), hne _ (by decide), ?_⟩
    · simp only [isChar, inRanges, List.any_cons, List.any_nil, Bool.or_eq_true, Bool.and_eq_true,
        decide_eq_true_eq]
      omega
    · simp [isSpace, hne ' ' (by decide), hne '\t' (by decide), hne '\n' (by decide),
        hne '\r' (by decide)]

/-- All events of a panel, around those of the name. -/
def panelEvents (x y : List Char) (name : List Event) : List Event :=
  textEvents "\n    " ++ (startTag "menupanel".toList panelAttributes ++ (.endOpen ::
    (textEvents "\n      " ++ (startTag "img".toList (imageAttributes x) ++ (.endEmpty ::
      (textEvents "\n      " ++ (startTag "text".toList (textAttributes y) ++ (.endOpen ::
        (name ++ closeEvents)))))))))

theorem pieces_eq (x y : List Char) (name : List Event) :
    imagePosEvents ++ (x.map .valueChar ++ (textPosEvents ++ (y.map .valueChar ++ (nameEvents ++
      (name ++ closeEvents))))) = panelEvents x y name := by
  simp [imagePosEvents, textPosEvents, nameEvents, panelEvents, startTag, imageAttributes,
    textAttributes, List.append_assoc]

/-- What the scanner makes of a panel, by what it makes of the name. -/
theorem scan_panel (m n : Int) (name : List Char) :
    scan (.content 0) (beforeImagePos ++ (decimal m ++ (beforeTextPos ++ (decimal n ++ (beforeName ++
      (name ++ afterName)))))) =
      (scan (.content 0) name).bind fun r => (scan r.1 afterName).map fun q =>
        (q.1, imagePosEvents ++ ((decimal m).map .valueChar ++ (textPosEvents ++
          ((decimal n).map .valueChar ++ (nameEvents ++ (r.2 ++ q.2)))))) := by
  rw [scan_append_of scan_beforeImagePos, scan_append_of (scan_decimal m),
    scan_append_of scan_beforeTextPos, scan_append_of (scan_decimal n),
    scan_append_of scan_beforeName, scan_append]
  cases scan (.content 0) name with
  | none => rfl
  | some r =>
    simp only [Option.bind_some, Option.map_map]
    rfl

/-! ## The view -/

/-- The element `TraversalProgram` gets for its template. -/
def panelNode (x y : List Char) (children : List Node) : Node :=
  .element "menupanel".toList panelAttributes
    [.text "\n      ".toList, .element "img".toList (imageAttributes x) [],
      .text "\n      ".toList, .element "text".toList (textAttributes y) children,
      .text "\n    ".toList]

theorem textEvents_isChar (s : String) : ∀ e ∈ textEvents s, e.IsChar := by
  intro e he
  obtain ⟨c, -, rfl⟩ := List.mem_map.mp he
  trivial

theorem build_panel (x y : List Char) {name : List Event} (hname : ∀ e ∈ name, e.IsChar) :
    build .start (panelEvents x y name) =
      some ⟨[], none, some (panelNode x y ((charData name).foldl appendChar []))⟩ := by
  have hindent : ∀ (top : Open) (text : String), text.toList ≠ [] →
      (∀ s, top.children.getLast? ≠ some (.text s)) →
      build ⟨[top], none, none⟩ (textEvents text) =
        some ⟨[{ top with children := top.children ++ [.text text.toList] }], none, none⟩ := by
    intro top text hne hlast
    rw [build_chars (textEvents_isChar text) ⟨[top], none, none⟩ rfl, textEvents, charData_text,
      foldl_appendChar hlast hne]
  have hstart : build .start (textEvents "\n    ") = some .start := rfl
  have hpanel := build_startTag .start "menupanel".toList panelAttributes (by decide +kernel)
  have himage := fun b => build_startTag b "img".toList (imageAttributes x)
    (show ["id".toList, "pos".toList, "cursor".toList].Nodup by decide +kernel)
  have htext := fun b => build_startTag b "text".toList (textAttributes y)
    (show ["id".toList, "pos".toList, "height".toList, "class".toList, "cursor".toList].Nodup by
      decide +kernel)
  rw [panelEvents, build_append_of hstart, build_append_of hpanel, Build.start, build_endOpen_root,
    build_append_of (hindent _ _ (by decide) (by simp)), build_append_of (himage _),
    build_endEmpty, build_append_of (hindent _ _ (by decide) (by simp)), build_append_of (htext _),
    build_endOpen, build_append_of (build_chars hname _ rfl), closeEvents]
  simp only
  rw [build_close ⟨"text".toList, textAttributes y, (charData name).foldl appendChar []⟩,
    build_append_of (hindent _ _ (by decide) (by simp)),
    build_close_root ⟨"menupanel".toList, panelAttributes, _⟩]
  rfl

/-! ## Reading a panel -/

theorem return_notMem_decimal (n : Int) : '\r' ∉ decimal n := fun h => by
  rcases decimal_chars n _ h with he | hdigit
  · exact absurd he (by decide)
  · exact absurd hdigit (by decide)

theorem decode_panelXml (level : Int32) (name : WString) :
    Utf16.decode (panelXml level name) = (Utf16.decode name).map fun x =>
      beforeImagePos ++ (decimal (10 + 20 * (level - 1)).toInt ++ (beforeTextPos ++
        (decimal (35 + 20 * (level - 1)).toInt ++ (beforeName ++ (x ++ afterName))))) := by
  have hhead : ∀ v ∈ (Utf16.encode afterName).head?, Utf16.isLow v = false := by
    intro v hv
    have hv : some 0x3c = some v := hv
    rw [← Option.some.inj hv]
    rfl
  rw [panelXml, format_boxPanel, Utf16.decode_encode_append, Utf16.decode_append _ _ hhead,
    Utf16.decode_encode]
  cases Utf16.decode name with
  | none => rfl
  | some x => simp [List.append_assoc]

/-- **What the reader makes of a panel**, for every name without line ends and `<`. -/
theorem readXml_panelXml (level : Int32) {name : WString} (hreturn : 0x0d ∉ name)
    (hlt : 0x3c ∉ name) :
    readXml (panelXml level name) = (Utf16.decode name).bind fun x =>
      match scan (.content 0) x with
      | some (.content _, events) =>
        some (panelNode (decimal (10 + 20 * (level - 1)).toInt)
          (decimal (35 + 20 * (level - 1)).toInt) ((charData events).foldl appendChar []))
      | _ => none := by
  rw [readXml, decode_panelXml]
  cases hx : Utf16.decode name with
  | none => rfl
  | some x =>
    have hname := Utf16.encode_of_decode hx
    have hreturn : '\r' ∉ x := by
      rwa [← hname, Utf16.mem_encode_iff (by decide)] at hreturn
    have hlt : '<' ∉ x := by
      rwa [← hname, Utf16.mem_encode_iff (by decide)] at hlt
    simp only [Option.map_some, Option.bind_some]
    rw [Xml.read, normalizeNewlines_eq, scan_panel]
    · cases hscan : scan (.content 0) x with
      | none => rfl
      | some r =>
        obtain ⟨hin, hchars, -⟩ := length_scan_text hlt (p := .content 0) trivial hscan
        obtain ⟨p, events⟩ := r
        cases p with
        | content brackets =>
          simp only [Option.bind_some, scan_afterName, Option.map_some]
          rw [pieces_eq, build_panel _ _ hchars]
        | contentRef acc => rfl
        | _ => exact hin.elim
    · simp only [List.mem_append, not_or]
      exact ⟨by decide +kernel, return_notMem_decimal _, by decide +kernel, return_notMem_decimal _,
        by decide +kernel, hreturn, by decide +kernel⟩

/-! ## Which names are shown -/

/-- Legal in a Windows file name: no control unit and none of `<>:"/\|?*`. -/
def legalInFileName (c : WChar) : Bool :=
  0x20 ≤ c && c ∉ ([0x3c, 0x3e, 0x3a, 0x22, 0x2f, 0x5c, 0x7c, 0x3f, 0x2a] : WString)

/-- One menupanel with one img, one text and nothing else but whitespace; the
character data of the text is the name. -/
def Shows (name : WString) (node : Node) : Prop :=
  ∃ attributes imageAttributes textAttributes children inner,
    node = .element "menupanel".toList attributes children ∧
    children.filter Node.isElement =
      [.element "img".toList imageAttributes [], .element "text".toList textAttributes inner] ∧
    (∀ c ∈ children.flatMap Node.data, isSpace c = true) ∧
    inner.filter Node.isElement = [] ∧ Utf16.encode (inner.flatMap Node.data) = name

def ShowsName (level : Int32) (name : WString) : Prop :=
  ∃ node, readXml (panelXml level name) = some node ∧ Shows name node

theorem indent_isSpace :
    "\n      ".toList.all isSpace = true ∧ "\n    ".toList.all isSpace = true := by
  decide +kernel

theorem shows_panelNode (name : WString) (x y s : List Char) :
    Shows name (panelNode x y (s.foldl appendChar [])) ↔ Utf16.encode s = name := by
  have hinner : (s.foldl appendChar []).filter Node.isElement = [] ∧
      (s.foldl appendChar []).flatMap Node.data = s := by
    cases s with
    | nil => exact ⟨rfl, rfl⟩
    | cons c s =>
      rw [foldl_appendChar (by simp) (List.cons_ne_nil c s)]
      simp [Node.isElement, Node.data]
  constructor
  · rintro ⟨_, _, _, _, inner, hnode, hchildren, -, -, hdata⟩
    obtain ⟨-, -, rfl⟩ := Node.element.inj hnode
    simp only [List.filter, Node.isElement] at hchildren
    have hlast := (List.cons.inj (List.cons.inj hchildren).2).1
    obtain ⟨-, -, hlast⟩ := Node.element.inj hlast
    rwa [← hlast, hinner.2] at hdata
  · intro h
    refine ⟨panelAttributes, imageAttributes x, textAttributes y, _, s.foldl appendChar [], rfl, ?_,
      ?_, hinner.1, by rw [hinner.2, h]⟩
    · simp only [List.filter, Node.isElement]
    · intro c hc
      simp only [List.flatMap_cons, List.flatMap_nil, Node.data, List.nil_append, List.append_nil,
        List.mem_append] at hc
      rcases hc with hc | hc | hc
      · exact List.all_eq_true.mp indent_isSpace.1 c hc
      · exact List.all_eq_true.mp indent_isSpace.1 c hc
      · exact List.all_eq_true.mp indent_isSpace.2 c hc

/-- **Which names are shown**: those without an ampersand that are text of XML
characters. -/
theorem shows_name_iff (level : Int32) (name : WString)
    (hlegal : ∀ c ∈ name, legalInFileName c = true) :
    ShowsName level name ↔
      0x26 ∉ name ∧ ∃ x, Utf16.decode name = some x ∧ ∀ c ∈ x, isChar c = true := by
  have hreturn : 0x0d ∉ name := fun h => absurd (hlegal _ h) (by decide)
  have hlt : 0x3c ∉ name := fun h => absurd (hlegal _ h) (by decide)
  have hgt : 0x3e ∉ name := fun h => absurd (hlegal _ h) (by decide)
  rw [ShowsName, readXml_panelXml level hreturn hlt]
  cases hx : Utf16.decode name with
  | none => simp
  | some x =>
    have hname := Utf16.encode_of_decode hx
    have hmem : ∀ u : WChar, u.toNat < 0xd800 → (u ∈ name ↔ Char.ofNat u.toNat ∈ x) := by
      intro u hu
      rw [← hname, Utf16.mem_encode_iff hu]
    have hlt : '<' ∉ x := fun h => hlt ((hmem 0x3c (by decide)).mpr h)
    have hgt : '>' ∉ x := fun h => hgt ((hmem 0x3e (by decide)).mpr h)
    rw [hmem 0x26 (by decide)]
    simp only [Option.bind_some, Option.some.injEq, exists_eq_left']
    constructor
    · rintro ⟨node, hnode, hshows⟩
      split at hnode
      · rename_i n events hscan
        obtain ⟨-, hchars, hlen⟩ := length_scan_text hlt (p := .content 0) trivial hscan
        rw [← Option.some.inj hnode, shows_panelNode] at hshows
        have hdata : charData events = x := by
          have hdecode := Utf16.decode_encode (charData events)
          rw [hshows, hx] at hdecode
          exact (Option.some.inj hdecode).symm
        have hcount := length_charData hchars
        have hlen : events.length + x.count '&' ≤ x.length := hlen
        rw [hdata] at hcount
        have hnone : '&' ∉ x := List.count_eq_zero.mp (by omega)
        exact ⟨hnone, isChar_of_scan hscan⟩
      · exact absurd hnode.symm (Option.some_ne_none _)
    · rintro ⟨hamp, hchar⟩
      obtain ⟨n, hscan⟩ := scan_text (s := x) (fun c hc => ⟨hchar c hc, fun he => hlt (he ▸ hc),
        fun he => hamp (he ▸ hc), fun he => hgt (he ▸ hc)⟩) 0
      rw [hscan]
      refine ⟨_, rfl, (shows_panelNode ..).mpr ?_⟩
      rw [charData_text, hname]

/-- A name with a blank and a character beyond 16 bits. -/
theorem shows_name_pair : ShowsName 1 [0x41, 0x20, 0xd83d, 0xde00] :=
  (shows_name_iff 1 [0x41, 0x20, 0xd83d, 0xde00] (List.all_eq_true.mp (by decide))).mpr
    ⟨by decide, ['A', ' ', Char.ofNat 0x1f600], by decide,
      List.all_eq_true.mp (by decide +kernel)⟩

/-- `A&B` is a legal name, and gives no view. -/
theorem ampersand_not_shown :
    (∀ c ∈ ([0x41, 0x26, 0x42] : WString), legalInFileName c = true) ∧
      ¬ ShowsName 1 [0x41, 0x26, 0x42] := by
  refine ⟨List.all_eq_true.mp (by decide), ?_⟩
  rintro ⟨node, hnode, -⟩
  rw [readXml_panelXml 1 (by decide) (by decide)] at hnode
  exact Option.some_ne_none node hnode.symm

end Panel

end SearchAndIdna

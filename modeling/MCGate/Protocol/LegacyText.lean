import MCGate.Protocol.TextFormat

/-!
# Legacy `§` text

`toLegacyText` writes each run as its full style prefix and its text. A client reads the
result with a style of its own: a colour code replaces it, a decoration code adds to it,
and nothing but a colour or `§r` ever takes something away. So a run keeps its style
exactly when it names a colour, or when the run before it leaves nothing it lacks.
-/
namespace MCGate.TextFormat

/-- `{:x}` of a value below 16. -/
def hexDigit (n : Nat) : Char := if n < 10 then Char.ofNat (48 + n) else Char.ofNat (87 + n)

/-- `{:02x}` -/
def hexByte (b : UInt8) : Text := [hexDigit (b.toNat / 16), hexDigit (b.toNat % 16)]

def writeColor (rgb : Rgb) : Text :=
  match legacyCharForRgb rgb with
  | some code => ['§', code]
  | none =>
    '§' :: 'x' :: (hexByte rgb.r ++ hexByte rgb.g ++ hexByte rgb.b).flatMap fun digit =>
      ['§', digit]

/-- A decoration's code, when the style has it. -/
def writeDecoration (on : Bool) (code : Char) : Text := if on then ['§', code] else []

def writeLegacyStyle (style : Style) : Text :=
  (style.color.map writeColor).getD [] ++ writeDecoration style.bold 'l' ++
    writeDecoration style.italic 'o' ++ writeDecoration style.underlined 'n' ++
    writeDecoration style.strikethrough 'm' ++ writeDecoration style.obfuscated 'k'

/-- The loop of `to_legacy_text` over the runs. -/
def writeRuns (runs : List StyledRun) : Text :=
  runs.flatMap fun run =>
    if run.text.isEmpty then [] else writeLegacyStyle run.style ++ run.text

def toLegacyText (toLowercase : Text → Text) (input : Text) : Option Text :=
  (parseRuns toLowercase input).map writeRuns

/-! ### The client -/

/-- The style after one code: a colour clears the decorations, `§r` clears everything,
and a code that means nothing changes nothing. -/
def applyCode (style : Style) (code : Char) : Style :=
  match namedColors.find? fun entry => entry.2.1 = code with
  | some (_, _, rgb) => { color := some rgb }
  | none =>
    match code with
    | 'l' => { style with bold := true }
    | 'o' => { style with italic := true }
    | 'n' => { style with underlined := true }
    | 'm' => { style with strikethrough := true }
    | 'k' => { style with obfuscated := true }
    | 'r' => {}
    | _ => style

/-- Two hexadecimal digits as the byte they spell. -/
def hexPair (high low : Char) : Option UInt8 := do
  let high ← toDigit 16 high
  let low ← toDigit 16 low
  return UInt8.ofNat (high * 16 + low)

/-- The colour that six digits spell. -/
def hexColor : Char → Char → Char → Char → Char → Char → Option Rgb :=
  fun r1 r2 g1 g2 b1 b2 => do
    return ⟨← hexPair r1 r2, ← hexPair g1 g2, ← hexPair b1 b2⟩

/-- What a client shows: each character with the style in force there. -/
def interpret : Style → Text → List (Char × Style)
  | _, [] => []
  | style, '§' :: 'x' :: '§' :: r1 :: '§' :: r2 :: '§' :: g1 :: '§' :: g2 ::
      '§' :: b1 :: '§' :: b2 :: rest =>
    match hexColor r1 r2 g1 g2 b1 b2 with
    | some rgb => interpret { color := some rgb } rest
    | none => interpret style rest
  | style, '§' :: code :: rest => interpret (applyCode style code) rest
  | style, c :: rest => (c, style) :: interpret style rest

private theorem interpret_plain {style : Style} {c : Char} {rest : Text} (plain : c ≠ '§') :
    interpret style (c :: rest) = (c, style) :: interpret style rest := by
  rw [interpret]
  · intros; contradiction
  · intros; contradiction

private theorem interpret_text {style : Style} {text rest : Text} (plain : '§' ∉ text) :
    interpret style (text ++ rest) =
      text.map (fun c => (c, style)) ++ interpret style rest := by
  induction text with
  | nil => rfl
  | cons c text ih =>
    rw [List.mem_cons, not_or] at plain
    rw [List.cons_append, interpret_plain (Ne.symm plain.1), ih plain.2]
    rfl

private theorem interpret_code {style : Style} {code : Char} {rest : Text} (short : code ≠ 'x') :
    interpret style ('§' :: code :: rest) = interpret (applyCode style code) rest := by
  rw [interpret]
  intros
  contradiction

theorem toDigit_hexDigit {n : Nat} (small : n < 16) : toDigit 16 (hexDigit n) = some n := by
  have table : ∀ m : Fin 16, toDigit 16 (hexDigit m) = some m.val := by decide
  exact table ⟨n, small⟩

theorem hexPair_hexByte (b : UInt8) :
    hexPair (hexDigit (b.toNat / 16)) (hexDigit (b.toNat % 16)) = some b := by
  have below := b.toNat_lt
  have whole : b.toNat / 16 * 16 + b.toNat % 16 = b.toNat := by omega
  rw [hexPair, toDigit_hexDigit (by omega), toDigit_hexDigit (by omega)]
  change some (UInt8.ofNat (b.toNat / 16 * 16 + b.toNat % 16)) = some b
  rw [whole, UInt8.ofNat_toNat]

/-- The codes of the sixteen colours are distinct, and none of them is `x`. -/
theorem namedColors_codes : ∀ entry ∈ namedColors,
    (namedColors.find? fun other => other.2.1 = entry.2.1) = some entry ∧ entry.2.1 ≠ 'x' := by
  decide

private theorem interpret_writeColor (style : Style) (rgb : Rgb) (rest : Text) :
    interpret style (writeColor rgb ++ rest) = interpret { color := some rgb } rest := by
  unfold writeColor
  cases named : legacyCharForRgb rgb with
  | some code =>
    obtain ⟨entry, found, same⟩ := Option.map_eq_some_iff.mp named
    obtain ⟨own, short⟩ := namedColors_codes entry (List.mem_of_find?_eq_some found)
    have color : entry.2.2 = rgb := of_decide_eq_true (List.find?_some found :)
    subst same
    change interpret style ('§' :: entry.2.1 :: rest) = _
    have read : applyCode style entry.2.1 = { color := some entry.2.2 } := by
      unfold applyCode
      rw [own]
    rw [interpret_code short, read, color]
  | none =>
    -- six digits, each behind a `§` of its own
    change interpret style ('§' :: 'x' :: '§' :: hexDigit _ :: '§' :: hexDigit _ ::
      '§' :: hexDigit _ :: '§' :: hexDigit _ :: '§' :: hexDigit _ :: '§' :: hexDigit _ :: rest) = _
    rw [interpret, hexColor, hexPair_hexByte, hexPair_hexByte, hexPair_hexByte]
    rfl

private theorem interpret_writeDecoration {style : Style} {on : Bool} {code : Char} {rest : Text}
    (short : code ≠ 'x') :
    interpret style (writeDecoration on code ++ rest) =
      interpret (if on then applyCode style code else style) rest := by
  cases on with
  | false => rfl
  | true => exact interpret_code short

/-- The style a client is in after the codes of `next`, when it was in `before`. -/
def Style.carried (before next : Style) : Style :=
  match next.color with
  | some _ => next
  | none =>
    { color := before.color
      bold := next.bold || before.bold
      italic := next.italic || before.italic
      underlined := next.underlined || before.underlined
      strikethrough := next.strikethrough || before.strikethrough
      obfuscated := next.obfuscated || before.obfuscated }

private theorem interpret_writeLegacyStyle (before next : Style) (rest : Text) :
    interpret before (writeLegacyStyle next ++ rest) = interpret (before.carried next) rest := by
  obtain ⟨color, bold, italic, underlined, strikethrough, obfuscated⟩ := next
  have colored : interpret before
      ((color.map writeColor).getD [] ++ (writeDecoration bold 'l' ++
        (writeDecoration italic 'o' ++ (writeDecoration underlined 'n' ++
        (writeDecoration strikethrough 'm' ++ (writeDecoration obfuscated 'k' ++ rest)))))) =
      interpret (match color with | some rgb => { color := some rgb } | none => before)
        (writeDecoration bold 'l' ++ (writeDecoration italic 'o' ++
        (writeDecoration underlined 'n' ++ (writeDecoration strikethrough 'm' ++
        (writeDecoration obfuscated 'k' ++ rest))))) := by
    cases color with
    | none => rfl
    | some rgb => exact interpret_writeColor before rgb _
  simp only [writeLegacyStyle, List.append_assoc, colored]
  rw [interpret_writeDecoration (by decide), interpret_writeDecoration (by decide),
    interpret_writeDecoration (by decide), interpret_writeDecoration (by decide),
    interpret_writeDecoration (by decide)]
  congr 1
  cases color <;> cases bold <;> cases italic <;> cases underlined <;> cases strikethrough <;>
    cases obfuscated <;> rfl

/-! ### Meaning preservation -/

/-- The characters of the runs, each with the style of its run. -/
def shown (runs : List StyledRun) : List (Char × Style) :=
  runs.flatMap fun run => run.text.map fun c => (c, run.style)

/-- Written after `before`, the codes of `next` leave a client in `next`: they name a
colour, or `before` had none and no decoration that `next` lacks. -/
def Keeps (before next : Style) : Prop :=
  next.color.isSome ∨
    before.color = none ∧ (before.bold → next.bold) ∧ (before.italic → next.italic) ∧
      (before.underlined → next.underlined) ∧ (before.strikethrough → next.strikethrough) ∧
      (before.obfuscated → next.obfuscated)

instance (before next : Style) : Decidable (Keeps before next) := by
  unfold Keeps
  infer_instance

private theorem carried_eq_iff {before next : Style} :
    before.carried next = next ↔ Keeps before next := by
  obtain ⟨color, bold, italic, underlined, strikethrough, obfuscated⟩ := next
  cases color with
  | some rgb => simp [Style.carried, Keeps]
  | none => simp [Style.carried, Keeps, Bool.or_eq_left_iff_imp]

private theorem keeps_default (next : Style) : Keeps {} next := by
  simp [Keeps]

/-- A client shows the runs exactly when each of them keeps its style after the one before. -/
theorem interpret_writeRuns_iff (before : StyledRun) {runs : List StyledRun}
    (nonempty : ∀ run ∈ runs, run.text ≠ []) (plain : ∀ run ∈ runs, '§' ∉ run.text) :
    interpret before.style (writeRuns runs) = shown runs ↔
      (before :: runs).IsChain fun one next => Keeps one.style next.style := by
  induction runs generalizing before with
  | nil => simp [writeRuns, shown, interpret]
  | cons run runs ih =>
    have ih := ih run (fun r mem => nonempty r (List.mem_cons_of_mem run mem))
      (fun r mem => plain r (List.mem_cons_of_mem run mem))
    obtain ⟨c, text, chars⟩ := List.exists_cons_of_ne_nil (nonempty run List.mem_cons_self)
    have written : writeRuns (run :: runs) =
        writeLegacyStyle run.style ++ (run.text ++ writeRuns runs) := by
      simp [writeRuns, chars]
    rw [written, interpret_writeLegacyStyle, interpret_text (plain run List.mem_cons_self),
      List.isChain_cons_cons, ← carried_eq_iff, ← ih]
    constructor
    · intro same
      -- the run is not empty: its first character shows the style it got
      have first : before.style.carried run.style = run.style := by
        have heads := congrArg List.head? same
        simpa [shown, chars] using heads
      rw [first] at same
      exact ⟨first, List.append_cancel_left same⟩
    · rintro ⟨first, later⟩
      rw [first, later]
      rfl

private theorem section_not_mem_legacyTagFor {code : Char} {tag : Text}
    (known : legacyTagFor code = some tag) : '§' ∉ tag := by
  unfold legacyTagFor at known
  split at known <;> cases known <;> decide

private theorem section_not_mem_legacyCodesToTags {input : Text} (plain : '§' ∉ input) :
    '§' ∉ legacyCodesToTags input := by
  fun_induction legacyCodesToTags input
  case case1 => exact plain
  case case2 code rest tag known ih =>
    simp only [List.mem_cons, List.mem_append, not_or] at plain ⊢
    exact ⟨by decide, section_not_mem_legacyTagFor known, by decide, ih plain.2.2⟩
  case case3 code rest unknown ih =>
    simp only [List.mem_cons, not_or] at plain ⊢ ih
    exact ⟨by decide, ih plain.2⟩
  case case4 c rest _ ih =>
    simp only [List.mem_cons, not_or] at plain ⊢
    exact ⟨plain.1, ih plain.2⟩

/-- The runs of a text without `§` have none either. -/
theorem section_not_mem_parseRuns {toLowercase : Text → Text} {input : Text}
    {runs : List StyledRun} (plain : '§' ∉ input)
    (parsed : parseRuns toLowercase input = some runs) : ∀ run ∈ runs, '§' ∉ run.text := by
  intro run mem held
  have visible : '§' ∈ runs.flatMap StyledRun.text := List.mem_flatMap.mpr ⟨run, mem, held⟩
  rw [(flatten_text _ parsed).1] at visible
  exact section_not_mem_legacyCodesToTags plain
    ((mem_of_mem_nodesText _ _ _ _ visible).resolve_left List.not_mem_nil)

/-- A client shows `to_legacy_text` as the parsed runs exactly when every run that names
no colour is the first one, or follows one without a colour whose decorations it has. -/
theorem interpret_toLegacyText_iff (toLowercase : Text → Text) (input : Text)
    (runs : List StyledRun) (plain : '§' ∉ input)
    (parsed : parseRuns toLowercase input = some runs) :
    (∃ out, toLegacyText toLowercase input = some out ∧ interpret {} out = shown runs) ↔
      runs.IsChain fun before run => Keeps before.style run.style := by
  have along := interpret_writeRuns_iff ⟨[], {}⟩ (flatten_text _ parsed).2
    (section_not_mem_parseRuns plain parsed)
  have start : ((⟨[], {}⟩ : StyledRun) :: runs).IsChain (fun one next => Keeps one.style next.style) ↔
      runs.IsChain fun one next => Keeps one.style next.style := by
    cases runs with
    | nil => simp
    | cons run runs => simp [keeps_default]
  rw [← start, ← along]
  simp [toLegacyText, parsed]

/-- Red text, bold red text and red text again keep their styles. -/
theorem interpret_toLegacyText_nested :
    ∃ out, toLegacyText (List.map Char.toLower) "<red>A<Bold>B</Bold>C".toList = some out ∧
      interpret {} out =
        shown [⟨['A'], { color := some ⟨255, 85, 85⟩ }⟩,
          ⟨['B'], { color := some ⟨255, 85, 85⟩, bold := true }⟩,
          ⟨['C'], { color := some ⟨255, 85, 85⟩ }⟩] :=
  (interpret_toLegacyText_iff (List.map Char.toLower) "<red>A<Bold>B</Bold>C".toList _
    (by decide) (by decide +kernel)).mpr (by simp [Keeps])

/-- After `</red>` the next run names no colour, and the client keeps showing red. -/
theorem toLegacyText_colorLeaks :
    ¬ ∀ input runs, '§' ∉ input → parseRuns (List.map Char.toLower) input = some runs →
      ∃ out, toLegacyText (List.map Char.toLower) input = some out ∧
        interpret {} out = shown runs := by
  intro preserved
  obtain ⟨out, written, same⟩ := preserved "<red>A</red>B".toList
    [⟨['A'], { color := some ⟨255, 85, 85⟩ }⟩, ⟨['B'], {}⟩] (by decide) (by decide +kernel)
  have text : toLegacyText (List.map Char.toLower) "<red>A</red>B".toList =
      some ['§', 'c', 'A', 'B'] := by
    decide +kernel
  cases written.symm.trans text
  exact absurd same (by decide +kernel)

end MCGate.TextFormat

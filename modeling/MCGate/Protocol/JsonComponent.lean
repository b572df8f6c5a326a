import MCGate.Protocol.LegacyText
import MCGate.Std.Json

/-!
# JSON text components

`to_json_component` puts the JSON of a text together by hand: an object for each run, and around
several of them an object that holds them as its `extra`. Every piece that is written spells a
value, so the whole text does, and a client that decodes it finds the runs.
-/
namespace MCGate.TextFormat

open Api

def jsonNameForRgb (rgb : Rgb) : Option Text :=
  (namedColors.find? fun entry => entry.2.2 = rgb).map Prod.fst

/-- `{:04x}` -/
def hexQuad (n : Nat) : Text :=
  [hexDigit (n / 4096 % 16), hexDigit (n / 256 % 16), hexDigit (n / 16 % 16), hexDigit (n % 16)]

def escapeJsonChar (c : Char) : Text :=
  if c = '"' then ['\\', '"']
  else if c = '\\' then ['\\', '\\']
  else if c = '\n' then ['\\', 'n']
  else if c = '\r' then ['\\', 'r']
  else if c = '\t' then ['\\', 't']
  else if c.toNat < 0x20 then '\\' :: 'u' :: hexQuad c.toNat
  else [c]

def escapeJson (value : Text) : Text := value.flatMap escapeJsonChar

/-- What stands for a colour: its name, or its six digits. -/
def jsonColor (rgb : Rgb) : Text :=
  (jsonNameForRgb rgb).getD ('#' :: (hexByte rgb.r ++ hexByte rgb.g ++ hexByte rgb.b))

def writeJsonColor (rgb : Rgb) : Text := ",\"color\":\"".toList ++ jsonColor rgb ++ ['"']

def writeJsonFlag (on : Bool) (name : String) : Text :=
  if on then ",\"".toList ++ name.toList ++ "\":true".toList else []

def runToJson (run : StyledRun) : Text :=
  "\x7b\"text\":\"".toList ++ escapeJson run.text ++ ['"'] ++
    (run.style.color.map writeJsonColor).getD [] ++ writeJsonFlag run.style.bold "bold" ++
    writeJsonFlag run.style.italic "italic" ++ writeJsonFlag run.style.underlined "underlined" ++
    writeJsonFlag run.style.strikethrough "strikethrough" ++
    writeJsonFlag run.style.obfuscated "obfuscated" ++ "\x7d".toList

/-- `to_json_component` on the runs of its input. -/
def writeComponent : List StyledRun → Text
  | [] => "\x7b\"text\":\"\"\x7d".toList
  | [run] => runToJson run
  | runs => "\x7b\"text\":\"\",\"extra\":[".toList ++ List.intercalate [','] (runs.map runToJson) ++
      "]\x7d".toList

def toJsonComponent (toLowercase : Text → Text) (input : Text) : Option Text :=
  (parseRuns toLowercase input).map writeComponent

/-! ### The client -/

/-- The colour a client reads: a name, or six digits behind a `#`. -/
def readColor : Text → Option Rgb
  | ['#', r1, r2, g1, g2, b1, b2] => hexColor r1 r2 g1 g2 b1 b2
  | name => namedColor name

/-- A style field: missing, or of the type it should have. -/
def readField {α : Type} (json : Json) (name : String) (missing : α) (read : Json → Option α) :
    Option α :=
  match json.get name.toList with
  | none => some missing
  | some value => read value

def asBool : Json → Option Bool
  | .bool b => some b
  | _ => none

/-- The text and the style of one object. -/
def readRun (json : Json) : Option StyledRun := do
  let text ← (json.get "text".toList).bind Json.asStr
  let color ← readField json "color" none fun value => (value.asStr.bind readColor).map some
  let bold ← readField json "bold" false asBool
  let italic ← readField json "italic" false asBool
  let underlined ← readField json "underlined" false asBool
  let strikethrough ← readField json "strikethrough" false asBool
  let obfuscated ← readField json "obfuscated" false asBool
  return ⟨text, { color, bold, italic, underlined, strikethrough, obfuscated }⟩

/-- The runs of a component: its own, unless it has no text, and those of its `extra`. -/
def readComponent (json : Json) : Option (List StyledRun) := do
  let own ← readRun json
  let extra ← readField json "extra" [] fun value =>
    match value with
    | .array items => items.mapM readRun
    | _ => none
  return (if own.text.isEmpty then [] else [own]) ++ extra

/-! ### Characters -/

private theorem readHex4_hexQuad {n : Nat} (small : n < 65536) (rest : Text) :
    Json.readHex4 (hexQuad n ++ rest) = some (n, rest) := by
  have whole : ((n / 4096 % 16 * 16 + n / 256 % 16) * 16 + n / 16 % 16) * 16 + n % 16 = n := by
    omega
  simp only [hexQuad, List.cons_append, List.nil_append, Json.readHex4]
  rw [toDigit_hexDigit (by omega), toDigit_hexDigit (by omega), toDigit_hexDigit (by omega),
    toDigit_hexDigit (by omega)]
  simp [whole]

private theorem readChar_escapeJsonChar (c : Char) (rest : Text) :
    Json.readChar (escapeJsonChar c ++ rest) = some (c, rest) := by
  unfold escapeJsonChar
  -- one case for each branch of `escape_json`; a control character is no surrogate
  split_ifs with quote backslash newline cr tab control
  · subst quote; rfl
  · subst backslash; rfl
  · subst newline; rfl
  · subst cr; rfl
  · subst tab; rfl
  · have high : ¬ (0xD800 ≤ c.toNat ∧ c.toNat < 0xDC00) := by omega
    have low : ¬ (0xDC00 ≤ c.toNat ∧ c.toNat < 0xE000) := by omega
    have digits := readHex4_hexQuad (show c.toNat < 65536 by omega) rest
    simp only [List.cons_append, Json.readChar, Json.readEscape, if_true, digits]
    simp [high, low, Char.ofNat_toNat]
  · simp [Json.readChar, backslash, control]

/-- `escape_json` writes the characters of a JSON string. -/
def jsonEscaping : Json.Escaping where
  escape := escapeJsonChar
  reads := readChar_escapeJsonChar
  unquoted c := by
    unfold escapeJsonChar
    split_ifs with quote <;> simp [quote]

/-! ### One run -/

open Json (Spelled Spells listed optionEntry valueOf)

def spelledText (text : Text) : Spelled 0 :=
  ⟨jsonEscaping.quote text, .string text, jsonEscaping.spells_quote text⟩

theorem enc_spelledText (text : Text) :
    (spelledText text).enc = '"' :: (escapeJson text ++ ['"']) := rfl

def spelledTrue : Spelled 0 := ⟨"true".toList, .bool true, Json.spells_true⟩

/-- A flag is written where it is on. -/
def flagEntry (on : Bool) (name : String) : List (Text × Spelled 0) :=
  optionEntry name (fun _ => spelledTrue) (if on then some () else none)

def colorEntry (color : Option Rgb) : List (Text × Spelled 0) :=
  optionEntry "color" (fun rgb => spelledText (jsonColor rgb)) color

/-- The members of a run's object after its text. -/
def styleEntries (style : Style) : List (Text × Spelled 0) :=
  colorEntry style.color ++ flagEntry style.bold "bold" ++ flagEntry style.italic "italic" ++
    flagEntry style.underlined "underlined" ++ flagEntry style.strikethrough "strikethrough" ++
    flagEntry style.obfuscated "obfuscated"

/-- The object a run is written as. -/
def runValue (run : StyledRun) : Json :=
  .object ((("text".toList, spelledText run.text) :: styleEntries run.style).map fun entry =>
    (entry.1, entry.2.value))

private theorem escapeJson_jsonColor (rgb : Rgb) : escapeJson (jsonColor rgb) = jsonColor rgb := by
  -- neither the names of the colours nor hex digits need escaping
  have names : ∀ entry ∈ namedColors, escapeJson entry.1 = entry.1 := by decide
  have digits : ∀ n : Fin 16, escapeJsonChar (hexDigit n) = [hexDigit n] := by decide
  have byte (b : UInt8) : escapeJson (hexByte b) = hexByte b := by
    have below := b.toNat_lt
    have high := digits ⟨b.toNat / 16, by omega⟩
    have low := digits ⟨b.toNat % 16, by omega⟩
    simp only [escapeJson, hexByte, List.flatMap_cons, List.flatMap_nil, high, low]
    rfl
  unfold jsonColor
  cases named : jsonNameForRgb rgb with
  | some name =>
    obtain ⟨entry, found, rfl⟩ := Option.map_eq_some_iff.mp named
    exact names entry (List.mem_of_find?_eq_some found)
  | none =>
    have hash : escapeJsonChar '#' = ['#'] := by decide
    simp only [Option.getD_none, escapeJson, List.flatMap_cons, List.flatMap_append, hash] at byte ⊢
    rw [byte, byte, byte]
    rfl

private theorem flatMap_flagEntry (on : Bool) {name : String}
    (plain : escapeJson name.toList = name.toList) :
    ((flagEntry on name).flatMap fun entry => ',' :: jsonEscaping.member entry) =
      writeJsonFlag on name := by
  rw [flagEntry, Json.flatMap_optionEntry jsonEscaping plain]
  cases on with
  | false => rfl
  | true => simp [writeJsonFlag, spelledTrue]

private theorem flatMap_colorEntry (color : Option Rgb) :
    ((colorEntry color).flatMap fun entry => ',' :: jsonEscaping.member entry) =
      (color.map writeJsonColor).getD [] := by
  have plain : escapeJson "color".toList = "color".toList := by decide
  rw [colorEntry, Json.flatMap_optionEntry jsonEscaping plain]
  cases color with
  | none => rfl
  | some rgb =>
    have written : writeJsonColor rgb =
        ',' :: '"' :: ("color".toList ++ '"' :: ':' :: '"' :: (jsonColor rgb ++ ['"'])) := rfl
    rw [Option.map_some, Option.map_some, Option.getD_some, Option.getD_some, enc_spelledText,
      escapeJson_jsonColor, written]

private theorem runToJson_eq (run : StyledRun) :
    runToJson run = '{' :: (listed jsonEscaping.member ("text".toList, spelledText run.text)
      (styleEntries run.style) ++ ['}']) := by
  have opened : "\x7b\"text\":\"".toList = '{' :: '"' :: ("text".toList ++ ['"', ':', '"']) := rfl
  have closed : "\x7d".toList = ['}'] := rfl
  have text : escapeJson "text".toList = "text".toList := by decide
  unfold runToJson
  simp only [listed, styleEntries, jsonEscaping.member_eq text, enc_spelledText, opened, closed,
    List.flatMap_append, flatMap_colorEntry, @flatMap_flagEntry _ "bold" (by decide),
    @flatMap_flagEntry _ "italic" (by decide), @flatMap_flagEntry _ "underlined" (by decide),
    @flatMap_flagEntry _ "strikethrough" (by decide),
    @flatMap_flagEntry _ "obfuscated" (by decide), List.append_assoc, List.cons_append,
    List.nil_append]

private theorem names_styleEntries (style : Style) :
    ((styleEntries style).map Prod.fst).Sublist
      (["color", "bold", "italic", "underlined", "strikethrough", "obfuscated"].map
        String.toList) := by
  have flag (on : Bool) (name : String) :
      ((flagEntry on name).map Prod.fst).Sublist [name.toList] := Json.names_optionEntry _ _ _
  have color := Json.names_optionEntry "color" (fun rgb => spelledText (jsonColor rgb)) style.color
  simp only [styleEntries, List.map_append]
  exact ((((color.append (flag _ _)).append (flag _ _)).append (flag _ _)).append (flag _ _)).append
    (flag _ _)

private theorem spells_runToJson (run : StyledRun) : Spells 1 (runToJson run) (runValue run) := by
  rw [runToJson_eq]
  apply Json.spells_object
  -- flags that are off are left out, which keeps the names distinct
  have distinct : ("text".toList ::
      ["color", "bold", "italic", "underlined", "strikethrough", "obfuscated"].map
        String.toList).Nodup := by
    decide
  exact distinct.sublist ((names_styleEntries run.style).cons_cons _)

/-! ### What a client reads of a run -/

private theorem valueOf_flagEntry (on : Bool) (name key : String) :
    valueOf key (flagEntry on name) = if on ∧ name = key then some (.bool true) else none := by
  rw [flagEntry, Json.valueOf_optionEntry]
  cases on <;> simp [spelledTrue]

private theorem valueOf_colorEntry (color : Option Rgb) (key : String) :
    valueOf key (colorEntry color) =
      if "color" = key then color.map fun rgb => .string (jsonColor rgb) else none :=
  Json.valueOf_optionEntry key "color" _ color

/-- A run's object has the members of the source and no others. -/
theorem get_runValue (run : StyledRun) (key : String) :
    (runValue run).get key.toList =
      if "text" = key then some (.string run.text) else valueOf key (styleEntries run.style) :=
  Json.valueOf_cons key "text" (spelledText run.text) (styleEntries run.style)

private theorem readColor_jsonColor (rgb : Rgb) : readColor (jsonColor rgb) = some rgb := by
  have names : ∀ entry ∈ namedColors, readColor entry.1 = some entry.2.2 := by decide
  unfold jsonColor
  cases named : jsonNameForRgb rgb with
  | some name =>
    obtain ⟨entry, found, rfl⟩ := Option.map_eq_some_iff.mp named
    have color : entry.2.2 = rgb := of_decide_eq_true (List.find?_some found :)
    rw [Option.getD_some, names entry (List.mem_of_find?_eq_some found), color]
  | none =>
    change hexColor (hexDigit _) (hexDigit _) (hexDigit _) (hexDigit _) (hexDigit _)
      (hexDigit _) = some rgb
    rw [hexColor, hexPair_hexByte, hexPair_hexByte, hexPair_hexByte]
    rfl

private theorem readField_flag {json : Json} {name : String} {on : Bool}
    (value : json.get name.toList = if on then some (.bool true) else none) :
    readField json name false asBool = some on := by
  cases on with
  | false => rw [readField, value]; rfl
  | true => rw [readField, value]; rfl

private theorem readField_color {json : Json} {color : Option Rgb}
    (value : json.get "color".toList = color.map fun rgb => .string (jsonColor rgb)) :
    readField json "color" none (fun value => (value.asStr.bind readColor).map some) =
      some color := by
  cases color with
  | none => rw [readField, value]; rfl
  | some rgb =>
    rw [readField, value]
    simp only [Option.map_some, Json.asStr, Option.bind_some, readColor_jsonColor]

/-- A client reads a run's object as the run. -/
theorem readRun_runValue (run : StyledRun) : readRun (runValue run) = some run := by
  have value (key : String) := get_runValue run key
  simp only [styleEntries, Json.valueOf_append, valueOf_flagEntry, valueOf_colorEntry] at value
  rw [readRun, @readField_color _ run.style.color (by rw [value]; simp),
    @readField_flag _ "bold" run.style.bold (by rw [value]; simp),
    @readField_flag _ "italic" run.style.italic (by rw [value]; simp),
    @readField_flag _ "underlined" run.style.underlined (by rw [value]; simp),
    @readField_flag _ "strikethrough" run.style.strikethrough (by rw [value]; simp),
    @readField_flag _ "obfuscated" run.style.obfuscated (by rw [value]; simp), value]
  rfl

/-! ### The whole component -/

def spelledRun (run : StyledRun) : Spelled 1 :=
  ⟨runToJson run, runValue run, spells_runToJson run⟩

/-- The object a component is written as. -/
def componentValue : List StyledRun → Json
  | [] => .object [("text".toList, .string [])]
  | [run] => runValue run
  | runs => .object [("text".toList, .string []), ("extra".toList, .array (runs.map runValue))]

theorem spells_writeComponent (runs : List StyledRun) :
    Spells 3 (writeComponent runs) (componentValue runs) := by
  match runs with
  | [] => exact (spells_runToJson ⟨[], {}⟩).mono (by decide)
  | [run] => exact (spells_runToJson run).mono (by decide)
  | first :: second :: rest =>
    have plainText : escapeJson "text".toList = "text".toList := by decide
    have plainExtra : escapeJson "extra".toList = "extra".toList := by decide
    have items := Json.spells_array (spelledRun first) ((second :: rest).map spelledRun)
    have object := Json.spells_object jsonEscaping
      ("text".toList, (spelledText []).deeper 2)
      [("extra".toList, ⟨_, _, items⟩)] (show ["text".toList, "extra".toList].Nodup by decide)
    have written : writeComponent (first :: second :: rest) =
        "\x7b\"text\":\"\",\"extra\":[".toList ++
          List.intercalate [','] ((spelledRun first :: (second :: rest).map spelledRun).map
            Spelled.enc) ++ "]\x7d".toList := by
      rw [← List.map_cons, List.map_map]
      rfl
    have value : componentValue (first :: second :: rest) =
        .object [("text".toList, .string []), ("extra".toList,
          .array ((spelledRun first :: (second :: rest).map spelledRun).map Spelled.value))] := by
      rw [← List.map_cons, List.map_map]
      rfl
    rw [written, value, Json.intercalate_eq_listed]
    have opened : "\x7b\"text\":\"\",\"extra\":[".toList =
        '{' :: '"' :: ("text".toList ++ ['"', ':', '"', '"', ',', '"'] ++ "extra".toList ++
          ['"', ':', '[']) := rfl
    have closed : "]\x7d".toList = [']', '}'] := rfl
    have empty : ((spelledText []).deeper 2).enc = ['"', '"'] := rfl
    simp only [listed, jsonEscaping.member_eq plainText, jsonEscaping.member_eq plainExtra,
      List.flatMap_singleton, empty, opened, closed, List.append_assoc, List.cons_append,
      List.nil_append] at object ⊢
    exact object

private theorem componentValue_object (runs : List StyledRun) :
    ∃ entries, componentValue runs = .object entries := by
  match runs with
  | [] => exact ⟨_, rfl⟩
  | [_] => exact ⟨_, rfl⟩
  | _ :: _ :: _ => exact ⟨_, rfl⟩

private theorem mapM_readRun (runs : List StyledRun) :
    (runs.map runValue).mapM readRun = some runs := by
  induction runs with
  | nil => rfl
  | cons run runs ih => simp [readRun_runValue, ih]

/-- A client finds the runs in the component, and nothing else. -/
theorem readComponent_componentValue {runs : List StyledRun} (some : ∀ run ∈ runs, run.text ≠ []) :
    readComponent (componentValue runs) = Option.some runs := by
  match runs with
  | [] => rfl
  | [run] =>
    -- a single run has no `extra`, and its own text is not empty
    have alone : (runValue run).get "extra".toList = none := by
      rw [get_runValue]
      simp only [styleEntries, Json.valueOf_append, valueOf_flagEntry, valueOf_colorEntry]
      simp
    have text := some run List.mem_cons_self
    rw [componentValue, readComponent, readRun_runValue, readField, alone]
    simp [text]
  | first :: second :: rest =>
    have own (items : List Json) : readRun (.object
        [("text".toList, .string []), ("extra".toList, .array items)]) = Option.some ⟨[], {}⟩ := rfl
    have extra (items : List Json) : Json.get "extra".toList (.object
        [("text".toList, .string []), ("extra".toList, .array items)]) =
          Option.some (.array items) := rfl
    have value : componentValue (first :: second :: rest) = .object [("text".toList, .string []),
        ("extra".toList, .array ((first :: second :: rest).map runValue))] := rfl
    rw [value, readComponent, own, readField, extra]
    simp only [Option.bind_eq_bind, Option.bind_some]
    rw [mapM_readRun]
    rfl

/-- `to_json_component` writes an object that says the runs of its input. -/
theorem toJsonComponent_spec {toLowercase : Text → Text} {input : Text} {runs : List StyledRun}
    (parsed : parseRuns toLowercase input = some runs) :
    ∃ text entries, toJsonComponent toLowercase input = some text ∧
      Json.read text = some (.object entries) ∧ readComponent (.object entries) = some runs ∧
      (runs = [] → entries = [("text".toList, .string [])]) := by
  obtain ⟨entries, value⟩ := componentValue_object runs
  have found := (spells_writeComponent runs).read (by decide)
  have decoded := readComponent_componentValue (flatten_text _ parsed).2
  rw [value] at found decoded
  refine ⟨writeComponent runs, entries, by rw [toJsonComponent, parsed]; rfl, found, decoded, ?_⟩
  rintro rfl
  exact (Json.object.inj value).symm

end MCGate.TextFormat

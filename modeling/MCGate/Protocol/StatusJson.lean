import MCGate.Config.Types
import MCGate.Net.Status
import MCGate.Protocol.JsonComponent

/-!
# The fallback status

`build_fallback_json` puts a status response together by hand, with a component inside it. What
it writes spells the value a client expects: the version, the text, and the players and the
picture where they are configured. A backend that sent it would not be taken for broken.
-/
namespace MCGate.StatusJson

open Api TextFormat Config
open Json (Spelled Spells listed optionEntry valueOf)

def writePlayers (players : PlayersInfo) : Text :=
  ",\"players\":\x7b\"online\":".toList ++ displayInt players.online.toInt ++ ",\"max\":".toList ++
    displayInt players.max.toInt ++ ['}']

def writeFavicon (favicon : Text) : Text := ",\"favicon\":\"".toList ++ escapeJson favicon ++ ['"']

def buildFallbackJson (toLowercase : Text → Text) (fallback : FallbackStatus) : Option Text := do
  let description ← toJsonComponent toLowercase fallback.motd
  return "\x7b\"version\":\x7b\"name\":\"".toList ++ escapeJson fallback.version.name ++
    "\",\"protocol\":".toList ++ displayInt fallback.version.protocol.toInt ++
    "\x7d,\"description\":".toList ++ description ++
    (fallback.players.map writePlayers).getD [] ++
    (fallback.faviconDataUri.map writeFavicon).getD [] ++ ['}']

/-! ### The client -/

/-- A status as a client shows it. -/
structure StatusView where
  version : VersionInfo
  description : List StyledRun
  players : Option PlayersInfo
  favicon : Option Text

def asI32 (json : Json) : Option Int32 := do
  let n ← asI64 json
  if -2 ^ 31 ≤ n.toInt ∧ n.toInt < 2 ^ 31 then return Int32.ofInt n.toInt else none

def readVersion (json : Json) : Option VersionInfo := do
  let name ← (json.get "name".toList).bind Json.asStr
  let protocol ← (json.get "protocol".toList).bind asI32
  return { name, protocol }

def readPlayers (json : Json) : Option PlayersInfo := do
  let online ← (json.get "online".toList).bind asI32
  let max ← (json.get "max".toList).bind asI32
  return { online, max }

def readStatus (json : Json) : Option StatusView := do
  let version ← (json.get "version".toList).bind readVersion
  let description ← (json.get "description".toList).bind readComponent
  let players ← readField json "players" none fun value => (readPlayers value).map some
  let favicon ← readField json "favicon" none fun value => value.asStr.map some
  return { version, description, players, favicon }

/-! ### The value -/

def spelledInt (n : Int32) : Spelled 0 :=
  ⟨displayInt n.toInt, .number (Json.ofInt n.toInt),
    Json.spells_int (by have := n.le_toInt; omega) (by have := n.toInt_lt; omega)⟩

private theorem enc_spelledInt (n : Int32) : (spelledInt n).enc = displayInt n.toInt := rfl

/-- An object of two members. -/
def spelledPair {depth : Nat} (one two : String) (distinct : one ≠ two)
    (first second : Spelled depth) : Spelled (depth + 1) :=
  ⟨_, _, Json.spells_object jsonEscaping (one.toList, first) [(two.toList, second)]
    (by simpa [String.toList_inj] using distinct)⟩

private theorem name_ne_protocol : "name" ≠ "protocol" := by decide

private theorem online_ne_max : "online" ≠ "max" := by decide

def spelledVersion (version : VersionInfo) : Spelled 1 :=
  spelledPair "name" "protocol" name_ne_protocol (spelledText version.name)
    (spelledInt version.protocol)

def spelledPlayers (players : PlayersInfo) : Spelled 1 :=
  spelledPair "online" "max" online_ne_max (spelledInt players.online) (spelledInt players.max)

def spelledComponent (runs : List StyledRun) : Spelled 3 :=
  ⟨writeComponent runs, componentValue runs, spells_writeComponent runs⟩

def playersEntry (players : Option PlayersInfo) : List (Text × Spelled 3) :=
  optionEntry "players" (fun players => (spelledPlayers players).deeper 2) players

def faviconEntry (favicon : Option Text) : List (Text × Spelled 3) :=
  optionEntry "favicon" (fun favicon => (spelledText favicon).deeper 3) favicon

/-- The members of a status. -/
def statusEntries (fallback : FallbackStatus) (runs : List StyledRun) : List (Text × Spelled 3) :=
  ("description".toList, spelledComponent runs) ::
    (playersEntry fallback.players ++ faviconEntry fallback.faviconDataUri)

/-- The object a status is written as. -/
def statusValue (fallback : FallbackStatus) (runs : List StyledRun) : Json :=
  .object ((("version".toList, (spelledVersion fallback.version).deeper 2) ::
    statusEntries fallback runs).map fun entry => (entry.1, entry.2.value))

private theorem enc_spelledPair {depth : Nat} {one two : String} {distinct : one ≠ two}
    (plainOne : escapeJson one.toList = one.toList) (plainTwo : escapeJson two.toList = two.toList)
    (first second : Spelled depth) :
    (spelledPair one two distinct first second).enc = '{' :: '"' :: (one.toList ++ '"' :: ':' ::
      (first.enc ++ ',' :: '"' :: (two.toList ++ '"' :: ':' :: (second.enc ++ ['}'])))) := by
  simp only [spelledPair, listed, jsonEscaping.member_eq plainOne, jsonEscaping.member_eq plainTwo,
    List.flatMap_singleton, List.append_assoc, List.cons_append]

private theorem flatMap_playersEntry (players : Option PlayersInfo) :
    ((playersEntry players).flatMap fun entry => ',' :: jsonEscaping.member entry) =
      (players.map writePlayers).getD [] := by
  have plain : escapeJson "players".toList = "players".toList := by decide
  rw [playersEntry, Json.flatMap_optionEntry jsonEscaping plain]
  cases players with
  | none => rfl
  | some players =>
    have opened : ",\"players\":\x7b\"online\":".toList = ',' :: '"' :: ("players".toList ++
      '"' :: ':' :: '{' :: '"' :: ("online".toList ++ ['"', ':'])) := rfl
    have between : ",\"max\":".toList = ',' :: '"' :: ("max".toList ++ ['"', ':']) := rfl
    have enc := @enc_spelledPair _ _ _ online_ne_max (by decide) (by decide)
      (spelledInt players.online) (spelledInt players.max)
    unfold writePlayers
    simp only [Option.map_some, Option.getD_some, Spelled.enc_deeper, spelledPlayers, enc,
      enc_spelledInt, opened, between, List.append_assoc, List.cons_append, List.nil_append]

private theorem flatMap_faviconEntry (favicon : Option Text) :
    ((faviconEntry favicon).flatMap fun entry => ',' :: jsonEscaping.member entry) =
      (favicon.map writeFavicon).getD [] := by
  have plain : escapeJson "favicon".toList = "favicon".toList := by decide
  rw [faviconEntry, Json.flatMap_optionEntry jsonEscaping plain]
  cases favicon with
  | none => rfl
  | some favicon =>
    have opened : ",\"favicon\":\"".toList =
        ',' :: '"' :: ("favicon".toList ++ ['"', ':', '"']) := rfl
    unfold writeFavicon
    simp only [Option.map_some, Option.getD_some, Spelled.enc_deeper, enc_spelledText, opened,
      List.append_assoc, List.cons_append, List.nil_append]

private theorem names_statusEntries (fallback : FallbackStatus) (runs : List StyledRun) :
    ((statusEntries fallback runs).map Prod.fst).Sublist
      (["description", "players", "favicon"].map String.toList) := by
  have players : ((playersEntry fallback.players).map Prod.fst).Sublist ["players".toList] :=
    Json.names_optionEntry _ _ _
  have favicon : ((faviconEntry fallback.faviconDataUri).map Prod.fst).Sublist
      ["favicon".toList] := Json.names_optionEntry _ _ _
  simp only [statusEntries, List.map_cons, List.map_append]
  exact (players.append favicon).cons_cons _

private theorem spells_buildFallbackJson {toLowercase : Text → Text} {fallback : FallbackStatus}
    {runs : List StyledRun} (parsed : parseRuns toLowercase fallback.motd = some runs) :
    ∃ text, buildFallbackJson toLowercase fallback = some text ∧
      Spells 4 text (statusValue fallback runs) := by
  -- a member that is left out leaves the names distinct
  have distinct : ("version".toList ::
      ["description", "players", "favicon"].map String.toList).Nodup := by
    decide
  have spells := @Json.spells_object 3 jsonEscaping
    ("version".toList, (spelledVersion fallback.version).deeper 2) (statusEntries fallback runs)
    (distinct.sublist ((names_statusEntries fallback runs).cons_cons _))
  refine ⟨_, ?_, spells⟩
  have version : escapeJson "version".toList = "version".toList := by decide
  have description : escapeJson "description".toList = "description".toList := by decide
  have enc := @enc_spelledPair _ _ _ name_ne_protocol (by decide) (by decide)
    (spelledText fallback.version.name) (spelledInt fallback.version.protocol)
  -- the literals of the source, taken apart at the punctuation of JSON
  have opened : "\x7b\"version\":\x7b\"name\":\"".toList = '{' :: '"' :: ("version".toList ++
    '"' :: ':' :: '{' :: '"' :: ("name".toList ++ ['"', ':', '"'])) := rfl
  have between : "\",\"protocol\":".toList =
    '"' :: ',' :: '"' :: ("protocol".toList ++ ['"', ':']) := rfl
  have closed : "\x7d,\"description\":".toList =
    '}' :: ',' :: '"' :: ("description".toList ++ ['"', ':']) := rfl
  have component : (spelledComponent runs).enc = writeComponent runs := rfl
  unfold buildFallbackJson
  simp only [toJsonComponent, parsed, listed, statusEntries, Option.map_some,
    Option.bind_eq_bind, Option.bind_some, List.flatMap_cons, List.flatMap_append,
    jsonEscaping.member_eq version, jsonEscaping.member_eq description, flatMap_playersEntry,
    flatMap_faviconEntry, Spelled.enc_deeper, spelledVersion, enc, enc_spelledText, enc_spelledInt,
    component, opened, between, closed, List.append_assoc, List.cons_append, List.nil_append,
    Option.pure_def]

/-! ### What a client reads -/

private theorem asI32_ofInt (n : Int32) : asI32 (.number (Json.ofInt n.toInt)) = some n := by
  have low := n.le_toInt
  have high := n.toInt_lt
  have same : asI64 (.number (Json.ofInt n.toInt)) = some (Int64.ofInt n.toInt) := by
    unfold Json.ofInt
    -- a number that is not negative is an unsigned one to serde
    split
    · have fits : (UInt64.ofNat n.toInt.toNat).toNat = n.toInt.toNat :=
        UInt64.toNat_ofNat_of_lt' (by simp only [UInt64.size]; omega)
      simp only [asI64, fits]
      rw [if_pos (by omega), ← Int64.ofInt_eq_ofNat, Int.toNat_of_nonneg ‹_›]
    · rfl
  have value : (Int64.ofInt n.toInt).toInt = n.toInt :=
    Int64.toInt_ofInt_of_le (by simp; omega) (by simp; omega)
  simp only [asI32, same, Option.bind_eq_bind, Option.bind_some, value]
  rw [if_pos (by omega), Int32.ofInt_toInt]
  rfl

private theorem get_spelledPair {depth : Nat} {one two : String} {distinct : one ≠ two}
    (first second : Spelled depth) :
    (spelledPair one two distinct first second).value.get one.toList = some first.value ∧
      (spelledPair one two distinct first second).value.get two.toList = some second.value := by
  have value (key : String) :
      (spelledPair one two distinct first second).value.get key.toList =
        if one = key then some first.value
        else if two = key then some second.value else none := by
    change valueOf key [(one.toList, first), (two.toList, second)] = _
    rw [Json.valueOf_cons, Json.valueOf_cons]
    rfl
  rw [value, value, if_pos rfl, if_neg distinct, if_pos rfl]
  exact ⟨rfl, rfl⟩

private theorem readVersion_spelledVersion (version : VersionInfo) :
    readVersion (spelledVersion version).value = some version := by
  obtain ⟨name, protocol⟩ := @get_spelledPair _ _ _ name_ne_protocol (spelledText version.name)
    (spelledInt version.protocol)
  rw [readVersion, spelledVersion, name, protocol]
  simp [spelledText, spelledInt, Json.asStr, asI32_ofInt]

private theorem readPlayers_spelledPlayers (players : PlayersInfo) :
    readPlayers (spelledPlayers players).value = some players := by
  obtain ⟨online, max⟩ := @get_spelledPair _ _ _ online_ne_max (spelledInt players.online)
    (spelledInt players.max)
  rw [readPlayers, spelledPlayers, online, max]
  simp [spelledInt, asI32_ofInt]

/-- The members of a status are the ones of the source and no others. -/
theorem get_statusValue (fallback : FallbackStatus) (runs : List StyledRun) (key : String) :
    (statusValue fallback runs).get key.toList =
      if "version" = key then some (spelledVersion fallback.version).value
      else if "description" = key then some (componentValue runs)
      else (if "players" = key then
          fallback.players.map fun players => (spelledPlayers players).value else none).or
        (if "favicon" = key then fallback.faviconDataUri.map Json.string else none) := by
  change valueOf key (("version".toList, (spelledVersion fallback.version).deeper 2) ::
    statusEntries fallback runs) = _
  rw [Json.valueOf_cons, statusEntries, Json.valueOf_cons, Json.valueOf_append, playersEntry,
    faviconEntry, Json.valueOf_optionEntry, Json.valueOf_optionEntry]
  rfl

private theorem readStatus_statusValue (fallback : FallbackStatus) {runs : List StyledRun}
    (some : ∀ run ∈ runs, run.text ≠ []) :
    readStatus (statusValue fallback runs) = Option.some
      ⟨fallback.version, runs, fallback.players, fallback.faviconDataUri⟩ := by
  have players : readField (statusValue fallback runs) "players" none
      (fun value => (readPlayers value).map Option.some) = Option.some fallback.players := by
    rw [readField, get_statusValue]
    cases fallback.players <;> simp [readPlayers_spelledPlayers]
  have favicon : readField (statusValue fallback runs) "favicon" none
      (fun value => value.asStr.map Option.some) = Option.some fallback.faviconDataUri := by
    rw [readField, get_statusValue]
    cases fallback.faviconDataUri <;> simp [Json.asStr]
  rw [readStatus, players, favicon, get_statusValue, get_statusValue]
  simp [readVersion_spelledVersion, readComponent_componentValue some]

private theorem atPath_protocol (fallback : FallbackStatus) (runs : List StyledRun) :
    (statusValue fallback runs).atPath ["version".toList, "protocol".toList] =
      some (.number (Json.ofInt fallback.version.protocol.toInt)) := by
  obtain ⟨-, protocol⟩ := @get_spelledPair _ _ _ name_ne_protocol
    (spelledText fallback.version.name) (spelledInt fallback.version.protocol)
  simp only [Json.atPath, get_statusValue, if_true, Option.bind_some, spelledVersion, protocol]
  rfl

private theorem isValidStatusJson_of_atPath {parse : Text → Option Json} {text : Text}
    {value : Json} {n : Yaml.Number} (parsed : parse text = some value)
    (found : (value.atPath ["version".toList, "protocol".toList]).bind Json.scalar =
      some (.number n)) :
    isValidStatusJson parse text := by
  obtain ⟨last, there, number⟩ := Option.bind_eq_some_iff.mp found
  have same : last = .number n := by
    cases last <;> cases number
    rfl
  obtain ⟨version, first, second⟩ := Option.bind_eq_some_iff.mp there
  obtain ⟨protocol, get, this⟩ := Option.bind_eq_some_iff.mp second
  cases this
  rw [isValidStatusJson, parsed]
  simp only [first, Option.bind_some, get, same]
  rfl

/-- What is written by hand is JSON that says what was to be written: a component the runs of
its text, the fallback status its settings. A status that is read so passes the check that the
answers of backends go through. The parser of that check keeps the entries of an object in an
order of its own, and has to find in a text the same scalars as the reader, under the same
paths. -/
theorem handwritten_json_decodes (toLowercase : Text → Text) (parse : Text → Option Json)
    (correct : ∀ text json, Json.read text = some json → ∃ value, parse text = some value ∧
      ∀ path, (value.atPath path).bind Json.scalar = (json.atPath path).bind Json.scalar) :
    (∀ input runs, parseRuns toLowercase input = some runs →
      ∃ text entries, toJsonComponent toLowercase input = some text ∧
        Json.read text = some (.object entries) ∧ readComponent (.object entries) = some runs ∧
        (runs = [] → entries = [("text".toList, .string [])])) ∧
    ∀ fallback runs, parseRuns toLowercase fallback.motd = some runs →
      ∃ text json, buildFallbackJson toLowercase fallback = some text ∧
        Json.read text = some json ∧
        readStatus json = some
          ⟨fallback.version, runs, fallback.players, fallback.faviconDataUri⟩ ∧
        isValidStatusJson parse text := by
  refine ⟨fun input runs parsed => toJsonComponent_spec parsed, fun fallback runs parsed => ?_⟩
  obtain ⟨text, written, spells⟩ := spells_buildFallbackJson parsed
  have found := spells.read (by decide)
  obtain ⟨value, parsedValue, same⟩ := correct _ _ found
  -- the check looks for one scalar only, and the parser finds it where the reader does
  have protocol : (value.atPath ["version".toList, "protocol".toList]).bind Json.scalar =
      some (.number (Json.ofInt fallback.version.protocol.toInt)) := by
    rw [same, atPath_protocol]
    rfl
  exact ⟨text, statusValue fallback runs, written, found,
    readStatus_statusValue fallback (flatten_text _ parsed).2,
    isValidStatusJson_of_atPath parsedValue protocol⟩

/-- A name with a quote in it, players and a picture. -/
theorem fallbackJson_decodes :
    ∃ text json, buildFallbackJson (List.map Char.toLower)
        ⟨"&eHi\n<b>x".toList, ⟨"\"1.21\"".toList, 767⟩, some ⟨-3, 20⟩, some "data:,".toList⟩ =
          some text ∧
      Json.read text = some json ∧
      readStatus json = some ⟨⟨"\"1.21\"".toList, 767⟩,
        [⟨"Hi\n".toList, { color := some ⟨255, 255, 85⟩ }⟩,
          ⟨"x".toList, { color := some ⟨255, 255, 85⟩, bold := true }⟩],
        some ⟨-3, 20⟩, some "data:,".toList⟩ ∧
      isValidStatusJson Json.read text :=
  (handwritten_json_decodes (List.map Char.toLower) Json.read
    fun _ json found => ⟨json, found, fun _ => rfl⟩).2
    ⟨"&eHi\n<b>x".toList, ⟨"\"1.21\"".toList, 767⟩, some ⟨-3, 20⟩, some "data:,".toList⟩ _
    (by decide +kernel)

end MCGate.StatusJson

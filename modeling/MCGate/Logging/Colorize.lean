import MCGate.Protocol.Rendering

/-!
# Console colours

`colorize` sets a log line in colours, and pads or cuts its level to five bytes. The level is
whatever word of any script the line has in that place, and log messages repeat what clients
send, newlines included, so the lines are not only those the logger writes. A level with a
character across its fifth byte is not cut but panics.
-/
namespace MCGate.Logging

open TextFormat

def RESET : Text := "\x1b[0m".toList
def DIM : Text := "\x1b[2m".toList
def WHITE : Text := "\x1b[37m".toList
def BRIGHT_YELLOW : Text := "\x1b[93m".toList
def GREEN : Text := "\x1b[32m".toList
def CYAN : Text := "\x1b[36m".toList
def BRIGHT_CYAN : Text := "\x1b[96m".toList
def MAGENTA : Text := "\x1b[35m".toList
def GRAY : Text := "\x1b[90m".toList

def MAX_QUEUED_LINES : Nat := 10000

def levelColor (level : Text) : Text :=
  if level = "ERROR".toList then "\x1b[1m\x1b[91m".toList
  else if level = "WARN".toList then "\x1b[1m\x1b[93m".toList
  else if level = "INFO".toList then GREEN
  else if level = "DEBUG".toList then CYAN
  else if level = "TRACE".toList then DIM
  else WHITE

structure Highlight where
  pattern : Text
  render : Text → Text

def highlights : List Highlight :=
  [⟨("\\b[0-9a-fA-F]\x7b8\x7d-[0-9a-fA-F]\x7b4\x7d-[0-9a-fA-F]\x7b4\x7d-" ++
      "[0-9a-fA-F]\x7b4\x7d-[0-9a-fA-F]\x7b12\x7d\\b").toList, fun m => DIM ++ m ++ WHITE⟩,
   ⟨"/?\\b\\d\x7b1,3\x7d(?:\\.\\d\x7b1,3\x7d)\x7b3\x7d(?::\\d\x7b1,5\x7d)?\\b".toList,
    fun m => BRIGHT_CYAN ++ m ++ WHITE⟩,
   ⟨"'[^']*'".toList, fun m => BRIGHT_YELLOW ++ m ++ WHITE⟩,
   ⟨" -> ".toList, fun _ => " ".toList ++ DIM ++ "->".toList ++ WHITE ++ " ".toList⟩,
   ⟨("\\b\\d[\\d,]*\\s?(?:ms|bytes?|KB|MB|GB|packets?|route\\(s\\)|player\\(s\\)|" ++
      "connection\\(s\\))\\b").toList, fun m => MAGENTA ++ m ++ WHITE⟩]

/-! ### The line pattern -/

/-- The `regex` crate: its Unicode classes `\d` and `\w`, and `replace_all` of a pattern, with a
function of the text that matched as the replacement. -/
structure Regex where
  isDigit : Char → Bool
  isWord : Char → Bool
  replaceAll : Text → (Text → Text) → Text → Text
  /-- The bracket behind the level is not a character of it. -/
  bracket : isWord ']' = false

/-- `\d{2}:\d{2}:\d{2}` -/
def Regex.isTime (regex : Regex) : Text → Bool
  | [h0, h1, ':', m0, m1, ':', s0, s1] => [h0, h1, m0, m1, s0, s1].all regex.isDigit
  | _ => false

/-- `(?s)^(\d{2}:\d{2}:\d{2}) \[(\w+)\] (.*)$` matches the line, with these captures. -/
structure Regex.Matches (regex : Regex) (line time level message : Text) : Prop where
  whole : line = time ++ ' ' :: '[' :: (level ++ ']' :: ' ' :: message)
  isTime : regex.isTime time
  word : level ≠ [] ∧ level.all regex.isWord

/-- `line_pattern().captures(line)` -/
def Regex.captures (regex : Regex) (line : Text) : Option (Text × Text × Text) :=
  match line.drop 8 with
  | ' ' :: '[' :: rest =>
    let level := rest.takeWhile regex.isWord
    match rest.dropWhile regex.isWord with
    | ']' :: ' ' :: message =>
      if regex.isTime (line.take 8) ∧ level ≠ [] then some (line.take 8, level, message) else none
    | _ => none
  | _ => none

/-! ### Colouring -/

/-- `String::truncate`: within the text a cut off a character boundary panics. -/
def truncate (s : Text) (n : Nat) : Option Text :=
  if n ≤ byteLen s then (splitAtByte n s).map Prod.fst else some s

/-- `while level_tag.len() < 5 { level_tag.push(' ') }` -/
def padTag (tag : Text) : Text := tag ++ List.replicate (5 - byteLen tag) ' '

def colorize (regex : Regex) (line : Text) : Option Text :=
  match regex.captures line with
  | none => some (WHITE ++ line ++ RESET)
  | some (time, level, message) => do
    let color := levelColor level
    let levelTag ← truncate level 5
    let levelTag := padTag levelTag
    let body := highlights.foldl (fun body h => regex.replaceAll h.pattern h.render body) message
    return GRAY ++ '[' :: time ++ ']' :: RESET ++ ' ' :: color ++ levelTag ++ RESET ++ ' ' ::
      WHITE ++ body ++ RESET

/-! ### The console writer -/

/-- `split_inclusive` at a character -/
def splitInclusive (sep : Char) : Text → List Text
  | [] => []
  | c :: rest =>
    if c = sep then [c] :: splitInclusive sep rest
    else match splitInclusive sep rest with
      | [] => [[c]]
      | piece :: pieces => (c :: piece) :: pieces

structure ConsoleWriter where
  /-- the lines sent that the writer thread has not received -/
  queue : List Text
  droppedSinceNotice : Nat
  useColor : Bool

def ConsoleWriter.trySend (self : ConsoleWriter) (line : Text) : ConsoleWriter :=
  if self.queue.length < MAX_QUEUED_LINES then { self with queue := self.queue ++ [line] }
  else { self with droppedSinceNotice := self.droppedSinceNotice + 1 }

def ConsoleWriter.formatted (regex : Regex) (self : ConsoleWriter) (line : Text) : Option Text :=
  if self.useColor then colorize regex line else some line

/-- The body of the loop of `write`. -/
def ConsoleWriter.writeLine (regex : Regex) (self : ConsoleWriter) (rawLine : Text) :
    Option ConsoleWriter :=
  let line := trimEndMatches (· = '\n') rawLine
  if line.isEmpty then some self
  else (self.formatted regex line).map self.trySend

def ConsoleWriter.write (regex : Regex) (self : ConsoleWriter) (buf : Bytes) :
    Option ConsoleWriter :=
  (splitInclusive '\n' (fromUtf8Lossy buf)).foldlM (ConsoleWriter.writeLine regex) self

/-! ### When a line is coloured -/

theorem Regex.Matches.captured {regex : Regex} {line time level message : Text}
    (found : regex.Matches line time level message) :
    regex.captures line = some (time, level, message) := by
  obtain ⟨whole, isTime, nonempty, word⟩ := found
  have eight : time.length = 8 := by
    unfold Regex.isTime at isTime
    split at isTime
    · rfl
    · cases isTime
  have front : line.take 8 = time := by
    rw [whole, ← eight, List.take_append_length]
  have back : line.drop 8 = ' ' :: '[' :: (level ++ ']' :: ' ' :: message) := by
    rw [whole, ← eight, List.drop_append_length]
  have isWord := List.all_eq_true.mp word
  -- `\w+` is greedy and the bracket is no word character, so it ends where the level does
  have taken : (level ++ ']' :: ' ' :: message).takeWhile regex.isWord = level := by
    rw [List.takeWhile_append_of_pos isWord, List.takeWhile_cons_of_neg (by simp [regex.bracket]),
      List.append_nil]
  have left : (level ++ ']' :: ' ' :: message).dropWhile regex.isWord = ']' :: ' ' :: message := by
    rw [List.dropWhile_append_of_pos isWord, List.dropWhile_cons_of_neg (by simp [regex.bracket])]
  rw [Regex.captures, back]
  simp only [left, taken, front, isTime, nonempty, ne_eq, not_false_iff, and_self, if_true]

private theorem Regex.captures_eq_some_iff {regex : Regex} {line time level message : Text} :
    regex.captures line = some (time, level, message) ↔
      regex.Matches line time level message := by
  refine ⟨fun captured => ?_, Regex.Matches.captured⟩
  unfold Regex.captures at captured
  split at captured
  next rest behind =>
    split at captured
    next message' left =>
      rw [Option.ite_none_right_eq_some] at captured
      obtain ⟨⟨isTime, nonempty⟩, same⟩ := captured
      cases same
      refine ⟨?_, isTime, nonempty, List.all_takeWhile⟩
      rw [← left, List.takeWhile_append_dropWhile, ← behind, List.take_append_drop]
    · cases captured
  · cases captured

private theorem truncate_isSome_iff {s : Text} {n : Nat} :
    (truncate s n).isSome ↔ byteLen s < n ∨ IsCharBoundary s n := by
  rw [truncate, isCharBoundary_iff]
  by_cases long : n ≤ byteLen s
  · rw [if_pos long, Option.isSome_map]
    simp [Nat.not_lt_of_le long]
  · rw [if_neg long]
    simp [Nat.lt_of_not_le long]

/-- The tag takes five bytes. -/
theorem byteLen_padTag {level tag : Text} (cut : truncate level 5 = some tag) :
    byteLen (padTag tag) = 5 := by
  have short : byteLen tag ≤ 5 := by
    rw [truncate] at cut
    split at cut
    · obtain ⟨⟨front, back⟩, split, rfl⟩ := Option.map_eq_some_iff.mp cut
      exact Nat.le_of_eq (splitAtByte_eq_some.mp split).2
    · cases cut
      omega
  -- what is missing to five bytes is filled with spaces of one byte each
  have spaces (k : Nat) : byteLen (List.replicate k ' ') = k := by
    induction k with
    | zero => rfl
    | succ k ih =>
      rw [List.replicate_succ, byteLen_cons, ih, Nat.add_comm]
      rfl
  rw [padTag, byteLen_append, spaces]
  omega

/-- A character of the line's level lies across its fifth byte. -/
def CutsLevel (regex : Regex) (line : Text) : Prop :=
  ∃ time level message, regex.Matches line time level message ∧
    5 < byteLen level ∧ ¬ IsCharBoundary level 5

private theorem colorize_isSome_iff {regex : Regex} {line : Text} :
    (colorize regex line).isSome ↔ ¬ CutsLevel regex line := by
  unfold colorize
  cases captured : regex.captures line with
  | none =>
    refine iff_of_true rfl ?_
    rintro ⟨time, level, message, found, -⟩
    cases captured.symm.trans found.captured
  | some captures =>
    obtain ⟨time, level, message⟩ := captures
    have tag : (truncate level 5).isSome ↔ ¬ CutsLevel regex line := by
      rw [truncate_isSome_iff, CutsLevel]
      constructor
      · rintro fits ⟨time', level', message', found, long, cut⟩
        cases captured.symm.trans found.captured
        exact fits.elim (fun short => by omega) cut
      · intro whole
        by_contra cut
        rw [not_or, Nat.not_lt] at cut
        have long : byteLen level ≠ 5 := fun five => cut.2 ⟨level, [], by simp, five⟩
        exact whole ⟨time, level, message, Regex.captures_eq_some_iff.mp captured, by omega, cut.2⟩
    -- nothing behind the tag can panic
    rw [← tag]
    change (Option.bind (truncate level 5) _).isSome ↔ _
    cases truncate level 5 <;> rfl

/-- `colorize` returns for every line but those whose level has a character across its fifth
byte. -/
theorem colorize_returns_iff (regex : Regex) (line : Text) :
    (∃ shown, colorize regex line = some shown) ↔ ¬ CutsLevel regex line := by
  rw [← Option.isSome_iff_exists, colorize_isSome_iff]

/-- The alphabets of two scripts, and no text that a highlight would match. -/
def latinAndGreek : Regex where
  isDigit := Char.isDigit
  isWord c := c.isAlphanum || c = '_' || ('α' ≤ c && c ≤ 'ω')
  replaceAll _ _ body := body
  bracket := by decide

/-- Each `α` takes two bytes, so the third lies across the fifth byte. -/
theorem greekLevel_panics :
    ¬ ∀ (regex : Regex) (line : Text), ∃ shown, colorize regex line = some shown := by
  intro returns
  obtain ⟨shown, coloured⟩ := returns latinAndGreek "12:34:56 [ααα] x".toList
  have panics : colorize latinAndGreek "12:34:56 [ααα] x".toList = none := by decide
  cases panics.symm.trans coloured

/-! ### When a write returns -/

private theorem not_cutsLevel_nil (regex : Regex) : ¬ CutsLevel regex [] := by
  rintro ⟨time, level, message, found, -⟩
  exact absurd (congrArg List.length found.whole) (by simp)

private theorem ConsoleWriter.writeLine_isSome_iff {regex : Regex} {self : ConsoleWriter}
    {rawLine : Text} :
    (self.writeLine regex rawLine).isSome ↔
      (self.useColor → ¬ CutsLevel regex (trimEndMatches (· = '\n') rawLine)) := by
  simp only [writeLine, formatted]
  generalize trimEndMatches (· = '\n') rawLine = line
  cases line with
  | nil => simp [not_cutsLevel_nil]
  | cons c rest =>
    rw [← colorize_isSome_iff]
    by_cases color : self.useColor
    · simp [color]
    · simp [color]

private theorem ConsoleWriter.writeLine_useColor {regex : Regex} {self after : ConsoleWriter}
    {rawLine : Text} (written : self.writeLine regex rawLine = some after) :
    after.useColor = self.useColor := by
  simp only [writeLine] at written
  split at written
  · cases written
    rfl
  · obtain ⟨formatted, -, rfl⟩ := Option.map_eq_some_iff.mp written
    unfold ConsoleWriter.trySend
    split <;> rfl

/-- What is written is not only the logger's own line: each line of a message counts, and one
that a client forged panics as well. -/
theorem ConsoleWriter.write_isSome_iff {regex : Regex} {self : ConsoleWriter} {buf : Bytes} :
    (self.write regex buf).isSome ↔
      (self.useColor → ∀ rawLine ∈ splitInclusive '\n' (fromUtf8Lossy buf),
        ¬ CutsLevel regex (trimEndMatches (· = '\n') rawLine)) := by
  unfold ConsoleWriter.write
  generalize splitInclusive '\n' (fromUtf8Lossy buf) = lines
  -- over the lines: none of them changes whether colours are used
  induction lines generalizing self with
  | nil => simp
  | cons rawLine rest ih =>
    rw [List.foldlM_cons, List.forall_mem_cons]
    have first := @writeLine_isSome_iff regex self rawLine
    cases written : self.writeLine regex rawLine with
    | none =>
      simp only [written, Option.isSome_none, Bool.false_eq_true, false_iff] at first
      refine iff_of_false (by simp) fun all => first fun color => (all color).1
    | some after =>
      simp only [written, Option.isSome_some, true_iff] at first
      rw [Option.bind_eq_bind, Option.bind_some, ih, writeLine_useColor written]
      exact ⟨fun others color => ⟨first color, others color⟩, fun all color => (all color).2⟩

/-- A host that a client sent, with a line of its own in it. -/
example : (ConsoleWriter.mk [] 0 true).write latinAndGreek
    (literal "12:00:00 [INFO] Connection: host='\n12:34:56 [ααα] x' from 192.0.2.1:40000\n") =
      none := by
  decide

end MCGate.Logging

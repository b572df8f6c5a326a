import MCGate.Protocol.Rendering

/-!
# Console lines

A console line is a command, and after a space what the command is told. The command is matched
in lower case, and the rest is cut off the line behind as many bytes as the lower-case command
takes. That is behind the command itself as long as lowering its letters keeps their number of
bytes; a few letters take more or fewer.
-/
namespace MCGate.Console

open TextFormat

/-- What `handle_command` does for a line; the commands that take one get the rest of it. -/
inductive Command where
  | stop
  | help
  | players
  | list (rest : Text)
  | routes
  | metrics (rest : Text)
  | version
  | reload
  | uptime
  | kick (rest : Text)
  | transfer (rest : Text)
  | bans
  | ban (rest : Text)
  | unban (rest : Text)
  | whoisUsage
  | whois (rest : Text)
  | ping (rest : Text)
  | nothing
  | unknown (trimmed : Text)
  deriving DecidableEq, Repr

/-- The `match` of `handle_command`. -/
def dispatch (trimmed command rest : Text) : Command :=
  if command = "stop".toList ∨ command = "shutdown".toList ∨ command = "exit".toList then .stop
  else if command = "help".toList ∨ command = "?".toList then .help
  else if command = "players".toList ∨ command = "playerlist".toList then .players
  else if command = "list".toList then .list rest
  else if command = "routes".toList then .routes
  else if command = "metrics".toList then .metrics rest
  else if command = "version".toList then .version
  else if command = "reload".toList then .reload
  else if command = "uptime".toList then .uptime
  else if command = "kick".toList then .kick rest
  else if command = "transfer".toList then .transfer rest
  else if command = "bans".toList then .bans
  else if command = "ban".toList then .ban rest
  else if command = "unban".toList then .unban rest
  else if command = "whois".toList then if rest.isEmpty then .whoisUsage else .whois rest
  else if command = "ping".toList then .ping rest
  else if command = [] then .nothing
  else .unknown trimmed

section
variable (toLowercase : Text → Text) (line : Text)

/-- `trimmed.split(' ').next()` -/
def firstToken (trimmed : Text) : Text := trimmed.takeWhile fun c => c ≠ ' '

/-- The trimmed line behind its first token. -/
def afterToken (trimmed : Text) : Text := trimmed.dropWhile fun c => c ≠ ' '

/-- `trimmed`, `command` and `rest`. The slice panics past the end of the line and inside a
character. -/
def splitCommand : Option (Text × Text × Text) :=
  let trimmed := trim line
  let command := toLowercase (firstToken trimmed)
  (splitAtByte (byteLen command) trimmed).map fun cut => (trimmed, command, trim cut.2)

def handleCommand : Option Command :=
  (splitCommand toLowercase line).map fun (trimmed, command, rest) => dispatch trimmed command rest

/-- Behind as many bytes as the lower-case token takes a character of the line starts, and
nothing but whitespace is between there and the end of the token. -/
def CutAtToken : Prop :=
  ∃ front back, trim line = front ++ back ∧
    byteLen front = byteLen (toLowercase (firstToken (trim line))) ∧
    ((∃ gap, front = firstToken (trim line) ++ gap ∧ gap.all isWhitespace) ∨
      ∃ gap, firstToken (trim line) = front ++ gap ∧ gap.all isWhitespace)

end

private theorem firstToken_append_afterToken (trimmed : Text) :
    firstToken trimmed ++ afterToken trimmed = trimmed := List.takeWhile_append_dropWhile

/-! ### Trimmed text -/

/-- A tail of a trimmed line is trimmed at its end. -/
theorem trim_suffix {line s : Text} (suffix : s <:+ trim line) :
    trim s = s.dropWhile isWhitespace := by
  have tail {t : Text} (suffix : t <:+ trim line) : t.rdropWhile isWhitespace = t := by
    rw [List.rdropWhile_eq_self_iff]
    intro nonempty
    have whole : (trim line).rdropWhile isWhitespace = trim line := List.rdropWhile_idempotent _ _
    have nonempty' : trim line ≠ [] := by
      rintro empty
      rw [empty, List.suffix_nil] at suffix
      exact nonempty suffix
    have last := List.rdropWhile_eq_self_iff.mp whole nonempty'
    rwa [← suffix.getLast nonempty] at last
  exact tail ((List.dropWhile_suffix _).trans suffix)

/-- What is trimmed off in front of a tail is whitespace. -/
theorem trim_gap_iff {line gap back : Text} (suffix : gap ++ back <:+ trim line) :
    trim (gap ++ back) = trim back ↔ gap.all isWhitespace := by
  rw [trim_suffix suffix, trim_suffix ((List.suffix_append gap back).trans suffix)]
  constructor
  · intro same
    by_contra other
    -- a character of the gap would be left in front of the whole tail
    have left : gap.dropWhile isWhitespace ≠ [] := by
      rwa [ne_eq, List.dropWhile_eq_nil_iff, ← List.all_eq_true]
    have longer := congrArg List.length same
    rw [List.dropWhile_append, if_neg (by simpa using left), List.length_append] at longer
    have positive := List.length_pos_iff.mpr left
    have shorter := (List.dropWhile_suffix (l := back) isWhitespace).length_le
    omega
  · intro blank
    exact List.dropWhile_append_of_pos (List.all_eq_true.mp blank)

/-! ### The rest of a line -/

/-- The argument text is what follows the first token exactly when the cut is at the token. -/
theorem trim_cut_iff {line front back : Text} (whole : trim line = front ++ back) :
    trim back = trim (afterToken (trim line)) ↔
      (∃ gap, front = firstToken (trim line) ++ gap ∧ gap.all isWhitespace) ∨
        ∃ gap, firstToken (trim line) = front ++ gap ∧ gap.all isWhitespace := by
  have parts := firstToken_append_afterToken (trim line)
  rcases List.append_eq_append_iff.mp (parts.trans whole) with
    ⟨gap, later, rest⟩ | ⟨gap, sooner, rest⟩
  -- the cut is behind the token
  · have suffix : gap ++ back <:+ trim line := ⟨firstToken (trim line), by rw [← rest, parts]⟩
    rw [rest, eq_comm, trim_gap_iff suffix]
    constructor
    · exact fun blank => Or.inl ⟨gap, later, blank⟩
    · rintro (⟨gap', later', blank⟩ | ⟨gap', sooner', -⟩)
      · rwa [List.append_cancel_left (later.symm.trans later')]
      · rw [later, List.append_assoc, List.self_eq_append_right] at sooner'
        rw [(List.append_eq_nil_iff.mp sooner').1]
        rfl
  -- the cut is in the token
  · have suffix : gap ++ afterToken (trim line) <:+ trim line :=
      ⟨front, by rw [← List.append_assoc, ← sooner, parts]⟩
    rw [rest, trim_gap_iff suffix]
    constructor
    · exact fun blank => Or.inr ⟨gap, sooner, blank⟩
    · rintro (⟨gap', later', -⟩ | ⟨gap', sooner', blank⟩)
      · rw [sooner, List.append_assoc, List.self_eq_append_right] at later'
        rw [(List.append_eq_nil_iff.mp later').1]
        rfl
      · rwa [List.append_cancel_left (sooner.symm.trans sooner')]

/-- Split at its token, a line is dispatched on the token and with what follows it. -/
theorem handleCommand_of_split {toLowercase : Text → Text} {line : Text}
    (split : splitCommand toLowercase line =
      some (trim line, toLowercase (firstToken (trim line)), trim (afterToken (trim line)))) :
    handleCommand toLowercase line =
      some (dispatch (trim line) (toLowercase (firstToken (trim line)))
        (trim (afterToken (trim line)))) := by
  rw [handleCommand, split]
  rfl

/-- Lowering that keeps the number of bytes, as it does for ASCII, keeps the cut at the token. -/
theorem cutAtToken_of_byteLen {toLowercase : Text → Text} {line : Text}
    (same : byteLen (toLowercase (firstToken (trim line))) = byteLen (firstToken (trim line))) :
    CutAtToken toLowercase line :=
  ⟨firstToken (trim line), afterToken (trim line),
    (firstToken_append_afterToken (trim line)).symm, same.symm,
    Or.inl ⟨[], (List.append_nil _).symm, rfl⟩⟩

/-- `handle_command` splits a line into its first token, in lower case, and the trimmed rest
behind it exactly when the lower-case token ends in bytes where the token ends, but for
whitespace. -/
theorem splits_iff (toLowercase : Text → Text) (line : Text) :
    splitCommand toLowercase line =
        some (trim line, toLowercase (firstToken (trim line)), trim (afterToken (trim line))) ↔
      CutAtToken toLowercase line := by
  simp only [splitCommand, Option.map_eq_some_iff, Prod.exists, Prod.mk.injEq, true_and,
    splitAtByte_eq_some, CutAtToken]
  constructor
  · rintro ⟨front, back, ⟨whole, length⟩, same⟩
    exact ⟨front, back, whole, length, (trim_cut_iff whole).mp same⟩
  · rintro ⟨front, back, whole, length, atToken⟩
    exact ⟨front, back, ⟨whole, length⟩, (trim_cut_iff whole).mpr atToken⟩

/-- ASCII letters, and the Kelvin sign: it takes three bytes, and a `k` takes one. -/
def lowercaseKelvin (s : Text) : Text :=
  s.map fun c => if c = '\u212a' then 'k' else c.toLower

example : handleCommand lowercaseKelvin "KICK Steve bye".toList =
    some (.kick "Steve bye".toList) := by decide

-- The letters of the token that the cut leaves become part of the player's name.
example : handleCommand lowercaseKelvin "\u212aick Steve".toList =
    some (.kick "ck Steve".toList) := by decide

theorem kelvin_panics :
    ¬ ∀ (toLowercase : Text → Text) (line : Text), splitCommand toLowercase line =
      some (trim line, toLowercase (firstToken (trim line)), trim (afterToken (trim line))) := by
  intro splits
  have panics : splitCommand lowercaseKelvin "\u212a".toList = none := by decide
  cases panics.symm.trans (splits lowercaseKelvin "\u212a".toList)

end MCGate.Console

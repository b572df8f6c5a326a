import MCGate.Std.Text

/-!
# The text exposition format

What Prometheus scrapes is a text of lines, each of which ends in a newline. Comment lines start
with `#`, and those with `HELP` and `TYPE` say something of a metric. A sample line has the name
of a metric, label pairs in braces, and a value. In the value of a label a backslash, a quote and
a newline are escaped, so no value ends its quotes or its line (`reads_sample`).

The reader here is a strict one: it takes one space before a value and no timestamp behind it.
-/
namespace MCGate.Exposition

structure Sample where
  name : Text
  labels : List (Text × Text)
  value : Text
  deriving DecidableEq, Repr

inductive Line where
  | blank
  | comment (text : Text)
  | help (name doc : Text)
  | type (name kind : Text)
  | sample (sample : Sample)
  deriving DecidableEq, Repr

/-! ### Reading -/

def isLabelStart (c : Char) : Bool := c.isAlpha || c = '_'

def isLabelChar (c : Char) : Bool := isLabelStart c || c.isDigit

def isNameStart (c : Char) : Bool := isLabelStart c || c = ':'

def isNameChar (c : Char) : Bool := isNameStart c || c.isDigit

/-- The characters in front that are `inside` a name, if the first of them may be its `start`. -/
def readName (start inside : Char → Bool) (s : Text) : Option (Text × Text) :=
  let name := s.takeWhile inside
  if name.head?.any start then some (name, s.dropWhile inside) else none

/-- The value of a label, up to the quote that ends it, and what follows the quote. -/
def readQuoted : Text → Option (Text × Text)
  | [] => none
  | '"' :: rest => some ([], rest)
  | '\\' :: '\\' :: rest => (readQuoted rest).map fun read => ('\\' :: read.1, read.2)
  | '\\' :: '"' :: rest => (readQuoted rest).map fun read => ('"' :: read.1, read.2)
  | '\\' :: 'n' :: rest => (readQuoted rest).map fun read => ('\n' :: read.1, read.2)
  | '\\' :: _ => none
  | c :: rest => (readQuoted rest).map fun read => (c :: read.1, read.2)

/-- A label pair, up to the quote that ends its value. -/
def readLabel (s : Text) : Option ((Text × Text) × Text) := do
  let (name, s) ← readName isLabelStart isLabelChar s
  match s with
  | '=' :: '"' :: s =>
    let (value, s) ← readQuoted s
    return ((name, value), s)
  | _ => none

/-- The label pairs behind a `{`, up to the `}`. Each pair takes one of `fuel`. -/
def readLabels : Nat → Text → Option (List (Text × Text) × Text)
  | 0, _ => none
  | fuel + 1, s => do
    let (label, s) ← readLabel s
    match s with
    | '}' :: s => return ([label], s)
    | ',' :: s =>
      let (labels, s) ← readLabels fuel s
      return (label :: labels, s)
    | _ => none

/-- A decimal number, of which there need not be a part before the point or one behind it. -/
def isDecimal (s : Text) : Bool :=
  match s.dropWhile Char.isDigit with
  | [] => s ≠ []
  | '.' :: fraction => fraction.all Char.isDigit ∧ s ≠ ['.']
  | _ => false

/-- A value is a float in decimal notation, infinite, or not a number. -/
def isValue (s : Text) : Bool :=
  match s with
  | '-' :: s => isDecimal s ∨ s = "inf".toList
  | s => isDecimal s ∨ s = "inf".toList ∨ s = "NaN".toList

def readValue : Text → Option Text
  | ' ' :: value => if isValue value then some value else none
  | _ => none

def readSample (line : Text) : Option Sample := do
  let (name, s) ← readName isNameStart isNameChar line
  match s with
  | '{' :: s =>
    let (labels, s) ← readLabels s.length s
    let value ← readValue s
    return ⟨name, labels, value⟩
  | s =>
    let value ← readValue s
    return ⟨name, [], value⟩

def kinds : List Text :=
  ["counter", "gauge", "histogram", "summary", "untyped"].map String.toList

def readComment (text : Text) : Option Line :=
  if " HELP ".toList.isPrefixOf text then do
    let (name, s) ← readName isNameStart isNameChar (text.drop 6)
    match s with
    | ' ' :: doc => return .help name doc
    | _ => none
  else if " TYPE ".toList.isPrefixOf text then do
    let (name, s) ← readName isNameStart isNameChar (text.drop 6)
    match s with
    | ' ' :: kind =>
      if kinds.contains kind then return .type name kind else none
    | _ => none
  else some (.comment text)

def readLine : Text → Option Line
  | [] => some .blank
  | '#' :: text => readComment text
  | line => (readSample line).map .sample

/-- The lines of a text, with the front of the first one already taken. The last line has to end
in a newline as well. -/
def readLines : Text → Text → Option (List Line)
  | [], [] => some []
  | _ :: _, [] => none
  | line, '\n' :: rest => do
    let first ← readLine line
    let others ← readLines [] rest
    return first :: others
  | line, c :: rest => readLines (line ++ [c]) rest

def readText (text : Text) : Option (List Line) := readLines [] text

/-- However it goes on, a text that starts with `front` starts with these lines. -/
def Reads (front : Text) (lines : List Line) : Prop :=
  ∀ rest, readText (front ++ rest) = (readText rest).map (lines ++ ·)

/-! ### Writing -/

def escapeChar (c : Char) : Text :=
  if c = '\\' then ['\\', '\\'] else if c = '"' then ['\\', '"']
  else if c = '\n' then ['\\', 'n'] else [c]

def escape (value : Text) : Text := value.flatMap escapeChar

def writeLabel (label : Text × Text) : Text := label.1 ++ '=' :: '"' :: (escape label.2 ++ ['"'])

def writeLabels (label : Text × Text) : List (Text × Text) → Text
  | [] => writeLabel label
  | next :: more => writeLabel label ++ ',' :: writeLabels next more

def Sample.write (sample : Sample) : Text :=
  match sample.labels with
  | [] => sample.name ++ ' ' :: sample.value
  | label :: more =>
    sample.name ++ '{' :: (writeLabels label more ++ '}' :: ' ' :: sample.value)

def isLabelName (s : Text) : Bool := s.head?.any isLabelStart && s.all isLabelChar

def isName (s : Text) : Bool := s.head?.any isNameStart && s.all isNameChar

/-- The names are names, and the value is one. The values of labels may be anything. -/
structure Sample.Valid (sample : Sample) : Prop where
  name : isName sample.name
  labels : sample.labels.all fun label => isLabelName label.1
  value : isValue sample.value

/-! ### What is written is read -/

theorem readName_append {start inside : Char → Bool} {name rest : Text} {c : Char}
    (begins : name.head?.any start) (all : name.all inside) (ends : inside c = false) :
    readName start inside (name ++ c :: rest) = some (name, c :: rest) := by
  have members := List.all_eq_true.mp all
  rw [readName, List.takeWhile_append_of_pos members, List.dropWhile_append_of_pos members,
    List.takeWhile_cons_of_neg (by simp [ends]), List.dropWhile_cons_of_neg (by simp [ends]),
    List.append_nil, if_pos begins]

theorem readQuoted_escape (value rest : Text) :
    readQuoted (escape value ++ '"' :: rest) = some (value, rest) := by
  induction value with
  | nil => rfl
  | cons c value ih =>
    rw [escape, List.flatMap_cons, List.append_assoc, ← escape, escapeChar]
    split_ifs with backslash quote newline
    · subst backslash
      simp [readQuoted, ih]
    · subst quote
      simp [readQuoted, ih]
    · subst newline
      simp [readQuoted, ih]
    · simp [readQuoted, ih, backslash]

theorem readLabel_write {label : Text × Text} (valid : isLabelName label.1) (rest : Text) :
    readLabel (writeLabel label ++ rest) = some (label, rest) := by
  rw [isLabelName, Bool.and_eq_true] at valid
  have named := @readName_append isLabelStart isLabelChar label.1
    ('"' :: (escape label.2 ++ '"' :: rest)) '=' valid.1 valid.2 (by decide)
  rw [readLabel, writeLabel]
  simp only [List.append_assoc, List.cons_append, List.nil_append, named, Option.bind_eq_bind,
    Option.bind_some, readQuoted_escape]
  rfl

theorem readLabels_write {label : Text × Text} {more : List (Text × Text)} {fuel : Nat}
    (valid : (label :: more).all fun label => isLabelName label.1) (enough : more.length < fuel)
    (rest : Text) :
    readLabels fuel (writeLabels label more ++ '}' :: rest) = some (label :: more, rest) := by
  induction more generalizing label fuel with
  | nil =>
    rw [List.all_cons, Bool.and_eq_true] at valid
    obtain ⟨fuel, rfl⟩ := Nat.exists_eq_add_one_of_ne_zero (Nat.ne_of_gt enough)
    rw [readLabels, writeLabels, readLabel_write valid.1]
    rfl
  | cons next more ih =>
    rw [List.all_cons, Bool.and_eq_true] at valid
    rw [List.length_cons] at enough
    obtain ⟨fuel, rfl⟩ := Nat.exists_eq_add_one_of_ne_zero (show fuel ≠ 0 by omega)
    have later := ih valid.2 (show more.length < fuel by omega)
    rw [readLabels, writeLabels, List.append_assoc, readLabel_write valid.1]
    simp only [List.cons_append, Option.bind_eq_bind, Option.bind_some, later]
    rfl

/-- Each label pair takes at least one character. -/
theorem length_lt_writeLabels (label : Text × Text) (more : List (Text × Text)) :
    more.length < (writeLabels label more).length := by
  induction more generalizing label with
  | nil =>
    simp only [writeLabels, writeLabel, List.length_append, List.length_cons, List.length_nil]
    omega
  | cons next more ih =>
    have := ih next
    simp only [writeLabels, List.length_append, List.length_cons]
    omega

theorem readValue_write {value : Text} (valid : isValue value) :
    readValue (' ' :: value) = some value := if_pos valid

theorem readSample_write {sample : Sample} (valid : sample.Valid) :
    readSample sample.write = some sample := by
  obtain ⟨name, labels, value⟩ := sample
  obtain ⟨named, labelled, isValue⟩ := valid
  rw [isName, Bool.and_eq_true] at named
  cases labels with
  | nil =>
    have front := @readName_append isNameStart isNameChar name value ' ' named.1 named.2
      (by decide)
    rw [readSample, Sample.write]
    simp only [front, Option.bind_eq_bind, Option.bind_some]
    change (readValue (' ' :: value)).bind _ = _
    rw [readValue_write isValue]
    rfl
  | cons label more =>
    have front := @readName_append isNameStart isNameChar name
      (writeLabels label more ++ '}' :: ' ' :: value) '{' named.1 named.2 (by decide)
    have braces := readLabels_write labelled
      (show more.length < (writeLabels label more ++ '}' :: ' ' :: value).length by
        have := length_lt_writeLabels label more
        rw [List.length_append]
        omega) (' ' :: value)
    rw [readSample, Sample.write]
    simp only [front, Option.bind_eq_bind, Option.bind_some, braces, readValue_write isValue]
    rfl

/-! ### No value ends its line -/

theorem newline_notMem_escape (value : Text) : '\n' ∉ escape value := by
  intro member
  obtain ⟨c, -, escaped⟩ := List.mem_flatMap.mp member
  rw [escapeChar] at escaped
  split_ifs at escaped with backslash quote newline
  · simp at escaped
  · simp at escaped
  · simp at escaped
  · exact newline (List.mem_singleton.mp escaped).symm

theorem newline_notMem_of_all {inside : Char → Bool} {s : Text} (all : s.all inside)
    (outside : inside '\n' = false) : '\n' ∉ s := by
  intro member
  rw [List.all_eq_true.mp all _ member] at outside
  cases outside

theorem newline_notMem_writeLabel {label : Text × Text} (valid : isLabelName label.1) :
    '\n' ∉ writeLabel label := by
  rw [isLabelName, Bool.and_eq_true] at valid
  have name := newline_notMem_of_all valid.2 (by decide)
  have value := newline_notMem_escape label.2
  simp [writeLabel, name, value]

theorem newline_notMem_writeLabels {label : Text × Text} {more : List (Text × Text)}
    (valid : (label :: more).all fun label => isLabelName label.1) :
    '\n' ∉ writeLabels label more := by
  induction more generalizing label with
  | nil =>
    rw [List.all_cons, Bool.and_eq_true] at valid
    exact newline_notMem_writeLabel valid.1
  | cons next more ih =>
    rw [List.all_cons, Bool.and_eq_true] at valid
    simp [writeLabels, newline_notMem_writeLabel valid.1, ih valid.2]

theorem newline_notMem_isDecimal {s : Text} (decimal : isDecimal s) : '\n' ∉ s := by
  -- digits, and behind a point digits again
  have front : '\n' ∉ s.takeWhile Char.isDigit := fun member =>
    absurd (List.mem_takeWhile_imp member) (by decide)
  intro member
  rw [← @List.takeWhile_append_dropWhile _ Char.isDigit s, List.mem_append] at member
  have back := member.resolve_left front
  unfold isDecimal at decimal
  split at decimal
  next none => simp [none] at back
  next fraction point =>
    rw [point] at back
    rw [decide_eq_true_eq] at decimal
    have fractional := newline_notMem_of_all decimal.1 (by decide)
    simp [fractional] at back
  · cases decimal

theorem newline_notMem_isValue {s : Text} (value : isValue s) : '\n' ∉ s := by
  have inf : '\n' ∉ "inf".toList := by decide
  have nan : '\n' ∉ "NaN".toList := by decide
  unfold isValue at value
  split at value
  next s =>
    rw [decide_eq_true_eq] at value
    rcases value with decimal | rfl
    · simp [newline_notMem_isDecimal decimal]
    · decide
  next s _ =>
    rw [decide_eq_true_eq] at value
    rcases value with decimal | rfl | rfl
    · exact newline_notMem_isDecimal decimal
    · exact inf
    · exact nan

theorem newline_notMem_write {sample : Sample} (valid : sample.Valid) : '\n' ∉ sample.write := by
  obtain ⟨name, labels, value⟩ := sample
  obtain ⟨named, labelled, isValue⟩ := valid
  rw [isName, Bool.and_eq_true] at named
  have front := newline_notMem_of_all named.2 (by decide)
  have back := newline_notMem_isValue isValue
  cases labels with
  | nil => simp [Sample.write, front, back]
  | cons label more => simp [Sample.write, front, back, newline_notMem_writeLabels labelled]

/-! ### Lines put together -/

theorem readLines_append {front : Text} (inLine : '\n' ∉ front) (line rest : Text) :
    readLines line (front ++ rest) = readLines (line ++ front) rest := by
  induction front generalizing line with
  | nil => rw [List.nil_append, List.append_nil]
  | cons c front ih =>
    rw [List.mem_cons, not_or] at inLine
    rw [List.cons_append, readLines, ih inLine.2, List.append_assoc, List.singleton_append]
    exact fun newline => inLine.1 newline.symm

theorem reads_line {text : Text} {line : Line} (inLine : '\n' ∉ text)
    (read : readLine text = some line) : Reads (text ++ ['\n']) [line] := by
  intro rest
  rw [readText, List.append_assoc, readLines_append inLine, List.nil_append, List.singleton_append,
    readLines, read, readText]
  cases readLines [] rest <;> rfl

theorem Reads.nil : Reads [] [] := by
  intro rest
  rw [List.nil_append]
  exact Option.map_id'.symm

theorem Reads.append {front back : Text} {lines lines' : List Line} (first : Reads front lines)
    (second : Reads back lines') : Reads (front ++ back) (lines ++ lines') := by
  intro rest
  rw [List.append_assoc, first, second, Option.map_map]
  simp [Function.comp_def]

/-- A loop that writes lines for each item. -/
theorem Reads.flatMap {α : Type} {items : List α} {text : α → Text} {lines : α → List Line}
    (each : ∀ item, Reads (text item) (lines item)) :
    Reads (items.flatMap text) (items.flatMap lines) := by
  induction items with
  | nil => exact Reads.nil
  | cons item items ih => exact (each item).append ih

theorem Reads.read {text : Text} {lines : List Line} (reads : Reads text lines) :
    readText text = some lines := by
  have whole := reads []
  rw [List.append_nil] at whole
  rw [whole]
  simp [readText, readLines]

/-- A sample is read back whatever its labels hold. -/
theorem reads_sample {sample : Sample} (valid : sample.Valid) :
    Reads (sample.write ++ ['\n']) [.sample sample] := by
  have found := readSample_write valid
  refine reads_line (newline_notMem_write valid) ?_
  -- a name does not start like a comment
  have named := valid.name
  rw [isName, Bool.and_eq_true] at named
  obtain ⟨c, name, same⟩ : ∃ c name, sample.name = c :: name := by
    cases begins : sample.name with
    | nil => simp [begins] at named
    | cons c name => exact ⟨c, name, rfl⟩
  have other : c ≠ '#' := by
    rintro rfl
    rw [same] at named
    exact absurd named.1 (show isNameStart '#' ≠ true by decide)
  obtain ⟨rest, whole⟩ : ∃ rest, sample.write = c :: rest := by
    rw [Sample.write, same]
    split
    · exact ⟨_, rfl⟩
    · exact ⟨_, rfl⟩
  rw [whole] at found ⊢
  unfold readLine
  split
  next empty => cases empty
  next hash => exact absurd (List.cons.inj hash).1 other
  next => rw [found]; rfl

theorem readComment_help {name : Text} (named : isName name) (doc : Text) :
    readComment (" HELP ".toList ++ (name ++ ' ' :: doc)) = some (.help name doc) := by
  rw [isName, Bool.and_eq_true] at named
  have help : " HELP ".toList.isPrefixOf (" HELP ".toList ++ (name ++ ' ' :: doc)) :=
    List.isPrefixOf_iff_prefix.mpr (List.prefix_append _ _)
  have six : " HELP ".toList.length = 6 := by decide
  rw [readComment, if_pos help, List.drop_left' six,
    readName_append named.1 named.2 (by decide)]
  rfl

theorem readComment_type {name kind : Text} (named : isName name) (known : kinds.contains kind) :
    readComment (" TYPE ".toList ++ (name ++ ' ' :: kind)) = some (.type name kind) := by
  rw [isName, Bool.and_eq_true] at named
  have noHelp : ¬ " HELP ".toList.isPrefixOf (" TYPE ".toList ++ (name ++ ' ' :: kind)) := by
    have apart : ∀ rest : Text, " HELP ".toList.isPrefixOf (" TYPE ".toList ++ rest) = false :=
      fun _ => rfl
    rw [apart]
    exact Bool.false_ne_true
  have type : " TYPE ".toList.isPrefixOf (" TYPE ".toList ++ (name ++ ' ' :: kind)) :=
    List.isPrefixOf_iff_prefix.mpr (List.prefix_append _ _)
  have six : " TYPE ".toList.length = 6 := by decide
  rw [readComment, if_neg noHelp, if_pos type, List.drop_left' six,
    readName_append named.1 named.2 (by decide)]
  exact if_pos known

theorem newline_notMem_isName {name : Text} (named : isName name) : '\n' ∉ name := by
  rw [isName, Bool.and_eq_true] at named
  exact newline_notMem_of_all named.2 (by decide)

theorem reads_help {name doc : Text} (named : isName name) (inLine : '\n' ∉ doc) :
    Reads ('#' :: (" HELP ".toList ++ (name ++ ' ' :: doc)) ++ ['\n']) [.help name doc] := by
  refine reads_line ?_ (readComment_help named doc)
  have inName := newline_notMem_isName named
  simp [inName, inLine]

theorem reads_type {name kind : Text} (named : isName name) (known : kinds.contains kind) :
    Reads ('#' :: (" TYPE ".toList ++ (name ++ ' ' :: kind)) ++ ['\n']) [.type name kind] := by
  refine reads_line ?_ (readComment_type named known)
  have inName := newline_notMem_isName named
  have inKind : '\n' ∉ kind := by
    have all : ∀ kind ∈ kinds, '\n' ∉ kind := by decide
    exact all kind (List.contains_iff_mem.mp known)
  simp [inName, inKind]

/-! ### Groups of lines -/

/-- The metric that a line is about. -/
def Line.metric : Line → Option Text
  | .help name _ => some name
  | .type name _ => some name
  | .sample s => some s.name
  | _ => none

/-- The lines about a metric stand together. -/
def Contiguous (name : Text) (lines : List Line) : Prop :=
  ∃ before group after, lines = before ++ (group ++ after) ∧
    (∀ line ∈ group, line.metric = some name) ∧
      (∀ line ∈ before, line.metric ≠ some name) ∧ ∀ line ∈ after, line.metric ≠ some name

def Grouped (lines : List Line) : Prop := ∀ name, Contiguous name lines

def Line.sample? : Line → Option Sample
  | .sample s => some s
  | _ => none

def samples (lines : List Line) : List Sample := lines.filterMap Line.sample?

/-- The samples of one metric. -/
def samplesOf (name : Text) (lines : List Line) : List Sample :=
  (samples lines).filter fun sample => sample.name = name

@[simp] theorem samples_append (front back : List Line) :
    samples (front ++ back) = samples front ++ samples back := List.filterMap_append

@[simp] theorem samples_sample (sample : Sample) (lines : List Line) :
    samples (.sample sample :: lines) = sample :: samples lines := rfl

@[simp] theorem samples_nil : samples [] = [] := rfl

theorem samples_flatMap {α : Type} (items : List α) (lines : α → List Line) :
    samples (items.flatMap lines) = items.flatMap fun item => samples (lines item) :=
  List.filterMap_flatMap

/-- No two samples are of one metric with the same set of labels. -/
def SamplesDistinct (lines : List Line) : Prop :=
  (samples lines).Pairwise fun a b => ¬ (a.name = b.name ∧ a.labels.Perm b.labels)

/-- Between two lines about a metric there is no other line. -/
theorem Contiguous.between {name : Text} {lines : List Line} {a b c : Line}
    (contiguous : Contiguous name lines) (order : [a, b, c].Sublist lines)
    (first : a.metric = some name) (last : c.metric = some name) : b.metric = some name := by
  obtain ⟨before, group, after, rfl, own, othersBefore, othersAfter⟩ := contiguous
  have notBefore : a ∉ before := fun member => othersBefore a member first
  have notAfter : c ∉ after := fun member => othersAfter c member last
  -- the first of the three is in the group or behind it, and the last one is not behind it
  have inRest : [a, b, c].Sublist (group ++ after) := by
    obtain ⟨front, back, split, inBefore, inRest⟩ := List.sublist_append_iff.mp order
    cases front with
    | nil => rwa [split, List.nil_append]
    | cons x front =>
      obtain ⟨rfl, -⟩ := List.cons.inj split
      exact absurd (inBefore.subset List.mem_cons_self) notBefore
  obtain ⟨mid, tail, split, inGroup, inAfter⟩ := List.sublist_append_iff.mp inRest
  rcases List.eq_nil_or_concat tail with rfl | ⟨tail, x, rfl⟩
  · rw [List.append_nil] at split
    exact own b (inGroup.subset (by simp [← split]))
  · have ends := congrArg List.getLast? split
    simp only [List.concat_eq_append, ← List.append_assoc, List.getLast?_concat] at ends
    obtain rfl : c = x := by simpa using ends
    exact absurd (inAfter.subset (by simp)) notAfter

/-- Blocks of lines about different metrics. -/
theorem grouped_blocks {blocks : List (Text × List Line)} (distinct : (blocks.map Prod.fst).Nodup)
    (own : ∀ block ∈ blocks, ∀ line ∈ block.2, line.metric = some block.1) :
    Grouped (blocks.flatMap Prod.snd) := by
  intro name
  have others {side : List (Text × List Line)} (sub : side ⊆ blocks)
      (absent : name ∉ side.map Prod.fst) :
      ∀ line ∈ side.flatMap Prod.snd, line.metric ≠ some name := by
    intro line member same
    obtain ⟨block, inSide, inBlock⟩ := List.mem_flatMap.mp member
    rw [own block (sub inSide) line inBlock, Option.some_inj] at same
    exact absent (List.mem_map.mpr ⟨block, inSide, same⟩)
  by_cases known : name ∈ blocks.map Prod.fst
  · obtain ⟨⟨_, group⟩, member, rfl⟩ := List.mem_map.mp known
    obtain ⟨before, after, rfl⟩ := List.append_of_mem member
    rw [List.map_append, List.map_cons, List.nodup_append, List.nodup_cons] at distinct
    obtain ⟨-, ⟨notAfter, -⟩, apart⟩ := distinct
    refine ⟨before.flatMap Prod.snd, group, after.flatMap Prod.snd, by simp, own _ member, ?_, ?_⟩
    · exact others (by simp) fun twice => apart _ twice _ List.mem_cons_self rfl
    · exact others (by simp) notAfter
  · exact ⟨blocks.flatMap Prod.snd, [], [], by simp, nofun,
      others (List.Subset.refl _) known, nofun⟩

end MCGate.Exposition

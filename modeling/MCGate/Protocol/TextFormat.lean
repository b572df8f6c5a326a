import Mathlib.Algebra.GroupWithZero.Nat
import MCGate.Std.Net

/-!
# Rich text

Config texts mix `&`-codes and MiniMessage tags. `parseRuns` turns such a text into
runs of equally styled characters in three passes: `&`-codes become tags, tags become
a tree of nodes, and the tree is flattened with the style each tag leaves in force.

A slice off a character boundary panics in the source; a function that can panic
returns `none` for it. `str::to_lowercase` is a parameter: no fact about it is used.
-/
namespace MCGate.TextFormat

structure Rgb where
  r : UInt8
  g : UInt8
  b : UInt8
  deriving DecidableEq, Repr

def namedColors : List (Text × Char × Rgb) :=
  [("black".toList, '0', ⟨0, 0, 0⟩),
   ("dark_blue".toList, '1', ⟨0, 0, 170⟩),
   ("dark_green".toList, '2', ⟨0, 170, 0⟩),
   ("dark_aqua".toList, '3', ⟨0, 170, 170⟩),
   ("dark_red".toList, '4', ⟨170, 0, 0⟩),
   ("dark_purple".toList, '5', ⟨170, 0, 170⟩),
   ("gold".toList, '6', ⟨255, 170, 0⟩),
   ("gray".toList, '7', ⟨170, 170, 170⟩),
   ("dark_gray".toList, '8', ⟨85, 85, 85⟩),
   ("blue".toList, '9', ⟨85, 85, 255⟩),
   ("green".toList, 'a', ⟨85, 255, 85⟩),
   ("aqua".toList, 'b', ⟨85, 255, 255⟩),
   ("red".toList, 'c', ⟨255, 85, 85⟩),
   ("light_purple".toList, 'd', ⟨255, 85, 255⟩),
   ("yellow".toList, 'e', ⟨255, 255, 85⟩),
   ("white".toList, 'f', ⟨255, 255, 255⟩)]

def namedColor (name : Text) : Option Rgb :=
  (namedColors.find? fun entry => entry.1 = name).map fun entry => entry.2.2

def legacyCharForRgb (rgb : Rgb) : Option Char :=
  (namedColors.find? fun entry => entry.2.2 = rgb).map fun entry => entry.2.1

/-! ### Hexadecimal colours -/

/-- The digit loop of `u8::from_str_radix`: a digit that overflows `u8` is an error. -/
def radix16Digits : Nat → Text → Option Nat
  | acc, [] => some acc
  | acc, c :: rest =>
    match toDigit 16 c with
    | none => none
    | some d => if 255 < acc * 16 + d then none else radix16Digits (acc * 16 + d) rest

/-- `u8::from_str_radix(src, 16).ok()`: one leading `+` is allowed, a sign alone is not. -/
def u8FromStrRadix16 (src : Text) : Option UInt8 :=
  match src with
  | [] => none
  | ['+'] => none
  | '+' :: digits => (radix16Digits 0 digits).map UInt8.ofNat
  | digits => (radix16Digits 0 digits).map UInt8.ofNat

/-- `str::len`: the number of bytes. -/
def byteLen (s : Text) : Nat := (s.map Char.utf8Size).sum

/-- `(&s[..n], &s[n..])`; `none` is the panic when `n` is not a character boundary. -/
def splitAtByte : Nat → Text → Option (Text × Text)
  | 0, s => some ([], s)
  | _ + 1, [] => none
  | n + 1, c :: s =>
    if c.utf8Size ≤ n + 1 then
      (splitAtByte (n + 1 - c.utf8Size) s).map fun cut => (c :: cut.1, cut.2)
    else none

/-- `parse_hex`. The outer `none` is a panic: the length is checked in bytes, so a slice
can end inside a character. -/
def parseHex (s : Text) : Option (Option Rgb) :=
  match s with
  | '#' :: s =>
    if byteLen s ≠ 6 then some none
    else do
      let (r, s) ← splitAtByte 2 s
      match u8FromStrRadix16 r with
      | none => some none
      | some r => do
        let (g, s) ← splitAtByte 2 s
        match u8FromStrRadix16 g with
        | none => some none
        | some g => some ((u8FromStrRadix16 s).map fun b => ⟨r, g, b⟩)
  | _ => some none

def colorFromStr (s : Text) : Option (Option Rgb) :=
  match s with
  | '#' :: _ => parseHex s
  | _ => some (namedColor s)

example : parseHex "#+f1234".toList = some (some ⟨15, 0x12, 0x34⟩) := by decide

-- `é` takes two bytes, and the second slice would cut it.
example : parseHex "#001é1".toList = none := by decide

/-! ### Parsing -/

def legacyTagFor : Char → Option Text
  | '0' => some "black".toList
  | '1' => some "dark_blue".toList
  | '2' => some "dark_green".toList
  | '3' => some "dark_aqua".toList
  | '4' => some "dark_red".toList
  | '5' => some "dark_purple".toList
  | '6' => some "gold".toList
  | '7' => some "gray".toList
  | '8' => some "dark_gray".toList
  | '9' => some "blue".toList
  | 'a' => some "green".toList
  | 'b' => some "aqua".toList
  | 'c' => some "red".toList
  | 'd' => some "light_purple".toList
  | 'e' => some "yellow".toList
  | 'f' => some "white".toList
  | 'k' => some "obfuscated".toList
  | 'l' => some "bold".toList
  | 'm' => some "strikethrough".toList
  | 'n' => some "underlined".toList
  | 'o' => some "italic".toList
  | 'r' => some "reset".toList
  | _ => none

def legacyCodesToTags : Text → Text
  | [] => []
  | '&' :: code :: rest =>
    match legacyTagFor code.toLower with
    | some tag => '<' :: (tag ++ '>' :: legacyCodesToTags rest)
    | none => '&' :: legacyCodesToTags (code :: rest)
  | c :: rest => c :: legacyCodesToTags rest

inductive Node where
  | text (s : Text)
  | tag (name : Text) (args : List Text) (children : List Node)

/-- The text gathered so far becomes a node, unless it is empty. -/
def pushText (text : Text) (nodes : List Node) : List Node :=
  if text.isEmpty then nodes else .text text :: nodes

/-- What stands before the first `>`, and what follows it. -/
def tagInner : Text → Option (Text × Text)
  | [] => none
  | c :: rest =>
    if c = '>' then some ([], rest)
    else (tagInner rest).map fun cut => (c :: cut.1, cut.2)

/-- `split(':')` as its first piece and the others. -/
def splitColon : Text → Text × List Text
  | [] => ([], [])
  | c :: rest =>
    let (first, others) := splitColon rest
    if c = ':' then ([], first :: others) else (c :: first, others)

/-- The loop of `parse_nodes` on `chars[*pos..]` with `text` gathered: the nodes, and
the characters it has not consumed. Each round consumes one, so a `fuel` of as many
rounds as there are characters is enough (`parseNodesFuel_enough`). -/
def parseNodesFuel : Nat → Bool → Text → Text → List Node × Text
  | _, _, text, [] => (pushText text [], [])
  | 0, _, text, chars => (pushText text [], chars)
  | fuel + 1, nested, text, '\\' :: c :: rest =>
    parseNodesFuel fuel nested (text ++ [c]) rest
  | fuel + 1, nested, text, '<' :: rest =>
    match tagInner rest with
    | none => parseNodesFuel fuel nested (text ++ ['<']) rest
    | some ('/' :: closeName, after) =>
      if nested then (pushText text [], after)
      -- a stray closing tag at the top level is shown as it is
      else parseNodesFuel fuel nested (text ++ '<' :: '/' :: closeName ++ ['>']) after
    | some (inner, after) =>
      let (tagName, args) := splitColon inner
      if tagName.isEmpty then parseNodesFuel fuel nested (text ++ ['<']) rest
      else
        let (children, after) := parseNodesFuel fuel true [] after
        let (nodes, after) := parseNodesFuel fuel nested [] after
        (pushText text (.tag tagName args children :: nodes), after)
  | fuel + 1, nested, text, c :: rest => parseNodesFuel fuel nested (text ++ [c]) rest

def parseNodes (chars : Text) (nested : Bool) : List Node × Text :=
  parseNodesFuel chars.length nested [] chars

/-! ### Styles -/

structure Style where
  color : Option Rgb := none
  bold : Bool := false
  italic : Bool := false
  underlined : Bool := false
  strikethrough : Bool := false
  obfuscated : Bool := false
  deriving DecidableEq, Repr

/-- A parsed colour replaces the style's own, anything else leaves the style alone. -/
def Style.recolored (style : Style) : Option Rgb → Style
  | some rgb => { style with color := some rgb }
  | none => style

structure StyledRun where
  text : Text
  style : Style
  deriving DecidableEq, Repr

mutual

def nodeVisibleLen : Node → Nat
  | .text s => s.length
  | .tag _ _ children => visibleLen children

def visibleLen : List Node → Nat
  | [] => 0
  | node :: rest => nodeVisibleLen node + visibleLen rest

end

/-- `(a as f64 + (b as f64 - a as f64) * frac).round() as u8` -/
def mixChannel (a b : UInt8) (frac : Float) : UInt8 :=
  (a.toFloat + (b.toFloat - a.toFloat) * frac).round.toUInt8

/-- `interpolate`; an index past the stops panics. -/
def interpolate (stops : List Rgb) (t : Float) : Option Rgb :=
  if stops.length = 1 then stops[0]?
  else do
    let t := if t < 0.0 then 0.0 else if t > 1.0 then 1.0 else t
    let scaled := t * Float.ofNat (stops.length - 1)
    let idx := min scaled.floor.toUInt64.toNat (stops.length - 2)
    let frac := scaled - Float.ofNat idx
    let a ← stops[idx]?
    let b ← stops[idx + 1]?
    return ⟨mixChannel a.r b.r frac, mixChannel a.g b.g frac, mixChannel a.b b.b frac⟩

/-- The colours among the arguments, in order. -/
def argColors : List Text → Option (List Rgb)
  | [] => some []
  | arg :: rest => do
    let color ← colorFromStr arg
    let others ← argColors rest
    return color.toList ++ others

def gradientStops (args : List Text) : Option (List Rgb) := do
  let stops ← argColors args
  return if stops.isEmpty then [⟨255, 255, 255⟩] else stops

/-- The loop of `flatten_gradient` over the characters of one text node. -/
def gradientChars (style : Style) (stops : List Rgb) (total : Nat) :
    Nat → Text → Option (List StyledRun × Nat)
  | pos, [] => some ([], pos)
  | pos, c :: rest => do
    let t := if total ≤ 1 then 0.0 else Float.ofNat pos / Float.ofNat (total - 1)
    let color ← interpolate stops t
    let (runs, pos) ← gradientChars style stops total (pos + 1) rest
    return (⟨[c], { style with color := some color }⟩ :: runs, pos)

section Flatten

variable (toLowercase : Text → Text)

def applyTag (style : Style) (name : Text) (args : List Text) : Option Style :=
  let lower := toLowercase name
  if lower = "reset".toList then some {}
  else if lower = "bold".toList ∨ lower = "b".toList then some { style with bold := true }
  else if lower = "italic".toList ∨ lower = "i".toList ∨ lower = "em".toList then
    some { style with italic := true }
  else if lower = "underlined".toList ∨ lower = "u".toList then
    some { style with underlined := true }
  else if lower = "strikethrough".toList ∨ lower = "st".toList then
    some { style with strikethrough := true }
  else if lower = "obfuscated".toList ∨ lower = "obf".toList then
    some { style with obfuscated := true }
  else if lower = "color".toList ∨ lower = "colour".toList then
    match args with
    | [] => some style
    | arg :: _ => (colorFromStr arg).map style.recolored
  else if lower.head? = some '#' then (parseHex lower).map style.recolored
  else some (style.recolored (namedColor lower))

mutual

/-- The body of the loop of `flatten_gradient`: the runs of one node, and the position
after its last visible character. -/
def flattenGradientNode (style : Style) (stops : List Rgb) (total pos : Nat) :
    Node → Option (List StyledRun × Nat)
  | .text s => gradientChars style stops total pos s
  | .tag name args children =>
    if eqIgnoreAsciiCase name "gradient".toList then do
      -- a nested gradient counts its own characters
      let innerStops ← gradientStops args
      let innerTotal := max (visibleLen children) 1
      let (runs, _) ← flattenGradient style innerStops innerTotal 0 children
      return (runs, pos)
    else do
      let newStyle ← applyTag toLowercase style name args
      flattenGradient newStyle stops total pos children

def flattenGradient (style : Style) (stops : List Rgb) (total pos : Nat) :
    List Node → Option (List StyledRun × Nat)
  | [] => some ([], pos)
  | node :: rest => do
    let (front, pos) ← flattenGradientNode style stops total pos node
    let (back, pos) ← flattenGradient style stops total pos rest
    return (front ++ back, pos)

end

mutual

/-- The body of the loop of `flatten`. -/
def flattenNode (style : Style) : Node → Option (List StyledRun)
  | .text s => some (if s.isEmpty then [] else [⟨s, style⟩])
  | .tag name args children =>
    if eqIgnoreAsciiCase name "gradient".toList then do
      let stops ← gradientStops args
      let total := max (visibleLen children) 1
      let (runs, _) ← flattenGradient toLowercase style stops total 0 children
      return runs
    else do
      let newStyle ← applyTag toLowercase style name args
      flatten newStyle children

def flatten (style : Style) : List Node → Option (List StyledRun)
  | [] => some []
  | node :: rest => do
    let front ← flattenNode style node
    let back ← flatten style rest
    return front ++ back

end

def parseRuns (input : Text) : Option (List StyledRun) :=
  flatten toLowercase {} (parseNodes (legacyCodesToTags input) false).1

end Flatten

/-! ### What parsing consumes -/

theorem tagInner_eq {chars inner after : Text} (found : tagInner chars = some (inner, after)) :
    chars = inner ++ '>' :: after := by
  induction chars generalizing inner with
  | nil => cases found
  | cons c rest ih =>
    simp only [tagInner] at found
    split at found
    next close =>
      cases found
      rw [close]
      rfl
    next =>
      obtain ⟨cut, inRest, same⟩ := Option.map_eq_some_iff.mp found
      cases same
      rw [ih inRest]
      rfl

/-- What is left over is a tail of the input, so its characters are the input's. -/
theorem parseNodesFuel_rest (fuel : Nat) (nested : Bool) (text chars : Text) :
    (parseNodesFuel fuel nested text chars).2 <:+ chars := by
  fun_induction parseNodesFuel fuel nested text chars
  case case1 => exact List.suffix_rfl
  case case2 => exact List.suffix_rfl
  case case3 c rest ih => exact ih.trans ((List.suffix_cons c rest).trans (List.suffix_cons _ _))
  case case4 ih => exact ih.trans (List.suffix_cons _ _)
  case case5 rest closeName after found =>
    rw [tagInner_eq found]
    exact ⟨'<' :: '/' :: closeName ++ ['>'], by simp⟩
  case case6 rest closeName after found _ ih =>
    refine ih.trans ?_
    rw [tagInner_eq found]
    exact ⟨'<' :: '/' :: closeName ++ ['>'], by simp⟩
  case case7 ih => exact ih.trans (List.suffix_cons _ _)
  case case8 rest inner after _ found _ _ _ _ _ _ children _ _ siblings ihChildren ihRest =>
    rw [children] at ihChildren
    rw [siblings] at ihRest
    refine (ihRest.trans ihChildren).trans ?_
    rw [tagInner_eq found]
    exact ⟨'<' :: inner ++ ['>'], by simp⟩
  case case9 ih => exact ih.trans (List.suffix_cons _ _)

/-- A round of the loop that consumes a character leaves room for the next ones. -/
theorem parseNodesFuel_enough (fuel : Nat) (nested : Bool) (text chars : Text)
    (enough : chars.length ≤ fuel) (more : Nat) :
    parseNodesFuel (fuel + more) nested text chars = parseNodesFuel fuel nested text chars := by
  fun_induction parseNodesFuel fuel nested text chars
  case case1 => simp only [parseNodesFuel]
  case case2 chars nonempty =>
    rw [List.length_eq_zero_iff.mp (Nat.le_zero.mp enough)] at nonempty
    exact absurd rfl nonempty
  case case3 fuel nested text c rest ih =>
    simp only [List.length_cons] at enough
    rw [Nat.succ_add, parseNodesFuel]
    exact ih (by omega)
  case case4 fuel nested text rest missing ih =>
    simp only [List.length_cons] at enough
    rw [Nat.succ_add, parseNodesFuel, missing]
    exact ih (by omega)
  -- the nested parse ends here, with or without more fuel
  case case5 fuel text rest closeName after found =>
    rw [Nat.succ_add, parseNodesFuel, found]
    rfl
  case case6 fuel nested text rest closeName after found top ih =>
    have shorter := congrArg List.length (tagInner_eq found)
    simp only [List.length_cons, List.length_append] at enough shorter
    rw [Nat.succ_add, parseNodesFuel, found]
    exact (if_neg top).trans (ih (by omega))
  case case7 fuel nested text rest inner after plain found first others pieces unnamed ih =>
    simp only [List.length_cons] at enough
    rw [Nat.succ_add, parseNodesFuel, found]
    simp only [pieces, unnamed]
    exact ih (by omega)
  case case8 fuel nested text rest inner after plain found first others pieces named children
      after1 inside siblings after2 behind ihChildren ihRest =>
    have shorter := congrArg List.length (tagInner_eq found)
    -- the children leave less than what stands behind the tag, so there is fuel for the siblings
    have suffix := (parseNodesFuel_rest fuel true [] after).length_le
    rw [inside] at suffix
    simp only [List.length_cons, List.length_append] at enough shorter suffix
    rw [Nat.succ_add, parseNodesFuel, found]
    simp only [pieces, named, ihChildren (by omega), inside, ihRest (by omega), behind]
    rfl
  case case9 fuel nested text c rest noEscape noTag ih =>
    simp only [List.length_cons] at enough
    rw [Nat.succ_add, parseNodesFuel]
    · exact ih (by omega)
    · exact noEscape
    · exact noTag

mutual

def nodeText : Node → Text
  | .text s => s
  | .tag _ _ children => nodesText children

/-- The text of the nodes in document order. -/
def nodesText : List Node → Text
  | [] => []
  | node :: rest => nodeText node ++ nodesText rest

end

@[simp] theorem nodesText_pushText (text : Text) (nodes : List Node) :
    nodesText (pushText text nodes) = text ++ nodesText nodes := by
  cases text <;> rfl

/-- Parsing shows no character that the input does not hold. -/
theorem mem_of_mem_nodesText {c : Char} (fuel : Nat) (nested : Bool) (text chars : Text)
    (shown : c ∈ nodesText (parseNodesFuel fuel nested text chars).1) : c ∈ text ∨ c ∈ chars := by
  fun_induction parseNodesFuel fuel nested text chars
  case case1 => simpa [nodesText] using shown
  case case2 => left; simpa [nodesText] using shown
  case case3 ih => have := ih shown; simp at this ⊢; grind
  case case4 ih => have := ih shown; simp at this ⊢; grind
  case case5 => left; simpa [nodesText] using shown
  case case6 found _ ih =>
    have := ih shown
    rw [tagInner_eq found]
    simp at this ⊢
    grind
  case case7 ih => have := ih shown; simp at this ⊢; grind
  case case8 fuel nested text rest inner after _ found _ _ _ _ _ _ inside _ _ behind
      ihChildren ihRest =>
    rw [inside] at ihChildren
    rw [behind] at ihRest
    have tail := parseNodesFuel_rest fuel true [] after
    rw [inside] at tail
    simp only [nodesText_pushText, nodesText, nodeText, List.mem_append] at shown
    rw [tagInner_eq found]
    rcases shown with before | child | sibling
    · exact .inl before
    · have := ihChildren child
      simp at this ⊢
      grind
    · have := (ihRest sibling).resolve_left (List.not_mem_nil)
      have := tail.subset this
      simp
      grind
  case case9 ih => have := ih shown; simp at this ⊢; grind

/-! ### What flattening keeps -/

private theorem gradientChars_text {style : Style} {stops : List Rgb} {total pos next : Nat}
    {s : Text} {runs : List StyledRun}
    (done : gradientChars style stops total pos s = some (runs, next)) :
    runs.flatMap StyledRun.text = s ∧ ∀ run ∈ runs, run.text ≠ [] := by
  induction s generalizing pos runs with
  | nil =>
    cases done
    simp
  | cons c rest ih =>
    simp only [gradientChars, Option.bind_eq_bind, Option.bind_eq_some_iff] at done
    obtain ⟨color, -, tail, later, same⟩ := done
    cases same
    obtain ⟨kept, nonempty⟩ := ih later
    exact ⟨by simp [kept], by simpa using nonempty⟩

section Flatten

variable {toLowercase : Text → Text}

mutual

private theorem flattenGradientNode_text {style : Style} {stops : List Rgb} {total pos next : Nat}
    {runs : List StyledRun} : (node : Node) →
    flattenGradientNode toLowercase style stops total pos node = some (runs, next) →
    runs.flatMap StyledRun.text = nodeText node ∧ ∀ run ∈ runs, run.text ≠ []
  | .text s, done => gradientChars_text done
  | .tag name args children, done => by
    simp only [flattenGradientNode] at done
    split at done
    · simp only [Option.bind_eq_bind, Option.bind_eq_some_iff] at done
      obtain ⟨innerStops, -, inner, flat, same⟩ := done
      cases same
      exact flattenGradient_text children flat
    · simp only [Option.bind_eq_bind, Option.bind_eq_some_iff] at done
      obtain ⟨newStyle, -, flat⟩ := done
      exact flattenGradient_text children flat

private theorem flattenGradient_text {style : Style} {stops : List Rgb} {total pos next : Nat}
    {runs : List StyledRun} : (nodes : List Node) →
    flattenGradient toLowercase style stops total pos nodes = some (runs, next) →
    runs.flatMap StyledRun.text = nodesText nodes ∧ ∀ run ∈ runs, run.text ≠ []
  | [], done => by
    cases done
    simp [nodesText]
  | node :: rest, done => by
    simp only [flattenGradient, Option.bind_eq_bind, Option.bind_eq_some_iff] at done
    obtain ⟨front, first, back, later, same⟩ := done
    cases same
    obtain ⟨kept, nonempty⟩ := flattenGradientNode_text node first
    obtain ⟨keptRest, nonemptyRest⟩ := flattenGradient_text rest later
    refine ⟨by simp [kept, keptRest, nodesText], fun run mem => ?_⟩
    exact (List.mem_append.mp mem).elim (nonempty run) (nonemptyRest run)

end

mutual

private theorem flattenNode_text {style : Style} {runs : List StyledRun} : (node : Node) →
    flattenNode toLowercase style node = some runs →
    runs.flatMap StyledRun.text = nodeText node ∧ ∀ run ∈ runs, run.text ≠ []
  | .text s, done => by
    cases done
    cases s <;> simp [nodeText]
  | .tag name args children, done => by
    simp only [flattenNode] at done
    split at done
    · simp only [Option.bind_eq_bind, Option.bind_eq_some_iff] at done
      obtain ⟨stops, -, inner, flat, same⟩ := done
      cases same
      exact flattenGradient_text children flat
    · simp only [Option.bind_eq_bind, Option.bind_eq_some_iff] at done
      obtain ⟨newStyle, -, flat⟩ := done
      exact flatten_text children flat

/-- Flattening shows the text of the nodes in document order, in runs that are not empty. -/
theorem flatten_text {style : Style} {runs : List StyledRun} : (nodes : List Node) →
    flatten toLowercase style nodes = some runs →
    runs.flatMap StyledRun.text = nodesText nodes ∧ ∀ run ∈ runs, run.text ≠ []
  | [], done => by
    cases done
    simp [nodesText]
  | node :: rest, done => by
    simp only [flatten, Option.bind_eq_bind, Option.bind_eq_some_iff] at done
    obtain ⟨front, first, back, later, same⟩ := done
    cases same
    obtain ⟨kept, nonempty⟩ := flattenNode_text node first
    obtain ⟨keptRest, nonemptyRest⟩ := flatten_text rest later
    refine ⟨by simp [kept, keptRest, nodesText], fun run mem => ?_⟩
    exact (List.mem_append.mp mem).elim (nonempty run) (nonemptyRest run)

end

end Flatten

end MCGate.TextFormat

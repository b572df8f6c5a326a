import MCGate.Protocol.JsonComponent

/-!
# Rendering any text

The two renderers take texts as they come. A text whose characters are all escaped is shown as
it is, whatever it looks like. Any text is parsed within bounds, but not every text is shown: a
colour of six bytes is cut into pairs of bytes, and a cut inside a character panics. So a text
is rendered exactly when no tag in it names such a colour.
-/
namespace MCGate.TextFormat

open Api
open Json (Spelled)

/-! ### Escaped text -/

/-- A backslash in front of every character. -/
def escapeAll (s : Text) : Text := s.flatMap fun c => ['\\', c]

private theorem escapeAll_cons (c : Char) (s : Text) :
    escapeAll (c :: s) = '\\' :: c :: escapeAll s := rfl

/-- No code starts in an escaped text: what follows an ampersand is a backslash. -/
theorem legacyCodesToTags_escapeAll (s : Text) :
    legacyCodesToTags (escapeAll s) = escapeAll s := by
  -- a character of the text, and the escaped ones behind it
  have behind (c : Char) (s : Text) (ih : legacyCodesToTags (escapeAll s) = escapeAll s) :
      legacyCodesToTags (c :: escapeAll s) = c :: escapeAll s := by
    have noCode : legacyTagFor (Char.toLower '\\') = none := by decide
    cases s with
    | nil => simp [escapeAll, legacyCodesToTags]
    | cons d s =>
      rw [escapeAll_cons] at ih ⊢
      by_cases code : c = '&'
      · subst code
        simp only [legacyCodesToTags, noCode, ih]
      · rw [legacyCodesToTags, ih]
        rintro _ _ rfl
        exact absurd rfl code
  induction s with
  | nil => rfl
  | cons c s ih =>
    rw [escapeAll_cons, legacyCodesToTags, behind c s ih]
    intro _ _ ampersand
    exact absurd ampersand (by decide)

private theorem parseNodesFuel_escapeAll (s : Text) {fuel : Nat} (nested : Bool) (text : Text)
    (enough : (escapeAll s).length ≤ fuel) :
    parseNodesFuel fuel nested text (escapeAll s) = (pushText (text ++ s) [], []) := by
  induction s generalizing fuel text with
  | nil =>
    rw [List.append_nil]
    cases fuel <;> rfl
  | cons c s ih =>
    rw [escapeAll_cons, List.length_cons, List.length_cons] at enough
    obtain ⟨fuel, rfl⟩ := Nat.exists_eq_add_one_of_ne_zero (show fuel ≠ 0 by omega)
    rw [escapeAll_cons, parseNodesFuel, ih (text ++ [c]) (by omega), List.append_assoc]
    rfl

/-- An escaped text is one run without a style. -/
theorem parseRuns_escapeAll (toLowercase : Text → Text) (s : Text) :
    parseRuns toLowercase (escapeAll s) = some (if s.isEmpty then [] else [⟨s, {}⟩]) := by
  rw [parseRuns, legacyCodesToTags_escapeAll, parseNodes,
    parseNodesFuel_escapeAll s false [] (Nat.le_refl _)]
  cases s <;> rfl

/-- Escaping is complete: any text can be shown as it is. -/
theorem escapeAll_shown (toLowercase : Text → Text) (s : Text) :
    toLegacyText toLowercase (escapeAll s) = some s ∧
      ∃ text, toJsonComponent toLowercase (escapeAll s) = some text ∧
        Json.read text = some (.object [("text".toList, .string s)]) := by
  have parsed := parseRuns_escapeAll toLowercase s
  have found := (spells_writeComponent (if s.isEmpty then [] else [⟨s, {}⟩])).read (by decide)
  constructor
  · rw [toLegacyText, parsed]
    cases s with
    | nil => rfl
    | cons c s => simp [writeRuns, writeLegacyStyle, writeDecoration]
  · refine ⟨_, by rw [toJsonComponent, parsed]; rfl, ?_⟩
    cases s <;> exact found

/-! ### Colours -/

/-- `s.is_char_boundary(n)` -/
def IsCharBoundary (s : Text) (n : Nat) : Prop :=
  ∃ front back, s = front ++ back ∧ byteLen front = n

/-- A `#` and six bytes, of which the first pair ends inside a character, or is a number and the
second pair ends so. -/
def CutsCharacter (s : Text) : Prop :=
  ∃ digits, s = '#' :: digits ∧ byteLen digits = 6 ∧
    (¬ IsCharBoundary digits 2 ∨
      ¬ IsCharBoundary digits 4 ∧
        ∃ pair rest, digits = pair ++ rest ∧ byteLen pair = 2 ∧ (u8FromStrRadix16 pair).isSome)

@[simp] theorem byteLen_nil : byteLen [] = 0 := rfl

@[simp] theorem byteLen_cons (c : Char) (s : Text) : byteLen (c :: s) = c.utf8Size + byteLen s := by
  simp [byteLen]

@[simp] theorem byteLen_append (front back : Text) :
    byteLen (front ++ back) = byteLen front + byteLen back := by
  simp [byteLen]

private theorem byteLen_eq_zero {s : Text} : byteLen s = 0 ↔ s = [] := by
  cases s with
  | nil => simp
  | cons c s =>
    have size := c.utf8Size_pos
    simp
    omega

/-- A text splits at a number of bytes into a front of as many, and what is behind it. -/
theorem splitAtByte_eq_some {n : Nat} {s front back : Text} :
    splitAtByte n s = some (front, back) ↔ s = front ++ back ∧ byteLen front = n := by
  fun_induction splitAtByte n s generalizing front
  case case1 s =>
    rw [byteLen_eq_zero, Option.some_inj, Prod.mk.injEq]
    constructor
    · rintro ⟨rfl, rfl⟩
      exact ⟨rfl, rfl⟩
    · rintro ⟨rfl, rfl⟩
      exact ⟨rfl, rfl⟩
  case case2 n =>
    refine iff_of_false nofun ?_
    rintro ⟨empty, length⟩
    obtain ⟨rfl, -⟩ := List.append_eq_nil_iff.mp empty.symm
    cases length
  case case3 n c s fits ih =>
    cases front with
    | nil => simp
    | cons d front =>
      have front' := @ih front
      simp only [Option.map_eq_some_iff, Prod.exists, Prod.mk.injEq, List.cons.injEq,
        List.cons_append, byteLen_cons]
      constructor
      · rintro ⟨first, rest, split, ⟨rfl, rfl⟩, rfl⟩
        obtain ⟨whole, length⟩ := front'.mp split
        exact ⟨⟨rfl, whole⟩, by omega⟩
      · rintro ⟨⟨rfl, whole⟩, length⟩
        exact ⟨front, back, front'.mpr ⟨whole, by omega⟩, ⟨rfl, rfl⟩, rfl⟩
  case case4 n c s wide =>
    refine iff_of_false nofun ?_
    rintro ⟨whole, length⟩
    cases front with
    | nil => cases length
    | cons d front =>
      obtain ⟨rfl, -⟩ := List.cons.inj whole
      rw [byteLen_cons] at length
      omega

theorem isCharBoundary_iff {s : Text} {n : Nat} :
    IsCharBoundary s n ↔ (splitAtByte n s).isSome := by
  simp only [IsCharBoundary, Option.isSome_iff_exists, Prod.exists, splitAtByte_eq_some]

private theorem isCharBoundary_append {front back : Text} {n : Nat} :
    IsCharBoundary (front ++ back) (byteLen front + n) ↔ IsCharBoundary back n := by
  constructor
  · rintro ⟨first, second, whole, length⟩
    rcases List.append_eq_append_iff.mp whole with ⟨mid, rfl, rfl⟩ | ⟨mid, rfl, rfl⟩
    · exact ⟨mid, second, rfl, by simpa using length⟩
    · rw [byteLen_append] at length
      exact ⟨[], back, rfl, by rw [byteLen_nil]; omega⟩
  · rintro ⟨first, second, rfl, rfl⟩
    exact ⟨front ++ first, second, by simp, by simp⟩

/-- The second pair is only looked at when the first is a number. -/
theorem parseHex_isSome_iff {digits : Text} (six : byteLen digits = 6) :
    (parseHex ('#' :: digits)).isSome ↔ IsCharBoundary digits 2 ∧
      ((∃ pair rest, digits = pair ++ rest ∧ byteLen pair = 2 ∧
        (u8FromStrRadix16 pair).isSome) → IsCharBoundary digits 4) := by
  rw [parseHex, if_neg (not_not.mpr six), isCharBoundary_iff]
  cases first : splitAtByte 2 digits with
  | none => simp
  | some cut =>
    obtain ⟨pair, rest⟩ := cut
    obtain ⟨rfl, two⟩ := splitAtByte_eq_some.mp first
    have own : (∃ pair' rest', pair ++ rest = pair' ++ rest' ∧ byteLen pair' = 2 ∧
        (u8FromStrRadix16 pair').isSome) ↔ (u8FromStrRadix16 pair).isSome := by
      constructor
      · rintro ⟨pair', rest', whole, length, number⟩
        have again := splitAtByte_eq_some.mpr ⟨whole, length⟩
        rw [first] at again
        obtain ⟨rfl, rfl⟩ := Prod.mk.inj (Option.some.inj again)
        exact number
      · exact fun number => ⟨pair, rest, rfl, two, number⟩
    have behind := @isCharBoundary_append pair rest 2
    rw [two, isCharBoundary_iff] at behind
    rw [own, isCharBoundary_iff, behind, isCharBoundary_iff]
    simp only [Option.bind_eq_bind, Option.bind_some, Option.isSome_some, true_and]
    cases u8FromStrRadix16 pair with
    | none => simp
    | some r =>
      cases splitAtByte 2 rest with
      | none => simp
      | some cut =>
        simp only [Option.bind_some]
        split <;> simp

private theorem colorFromStr_isSome_iff {s : Text} :
    (colorFromStr s).isSome ↔ ¬ CutsCharacter s := by
  unfold colorFromStr
  split
  case h_1 digits =>
    by_cases six : byteLen digits = 6
    · rw [parseHex_isSome_iff six]
      simp only [CutsCharacter, List.cons.injEq, true_and, exists_eq_left', six, not_or, not_not,
        not_and']
    · simp [parseHex, CutsCharacter, six]
  case h_2 plain =>
    refine iff_of_true rfl ?_
    rintro ⟨digits, rfl, -⟩
    exact plain digits rfl

/-! ### Tags -/

mutual

def nodeTags : Node → List (Text × List Text)
  | .text _ => []
  | .tag name args children => (name, args) :: nodesTags children

/-- The tags of the nodes in document order. -/
def nodesTags : List Node → List (Text × List Text)
  | [] => []
  | node :: rest => nodeTags node ++ nodesTags rest

end

/-- The texts that a tag has read as colours. -/
def colorTexts (toLowercase : Text → Text) (tag : Text × List Text) : List Text :=
  if eqIgnoreAsciiCase tag.1 "gradient".toList then tag.2
  else if toLowercase tag.1 = "color".toList ∨ toLowercase tag.1 = "colour".toList then
    tag.2.take 1
  else if (toLowercase tag.1).head? = some '#' then [toLowercase tag.1]
  else []

def NoneCut (toLowercase : Text → Text) (tag : Text × List Text) : Prop :=
  ∀ s ∈ colorTexts toLowercase tag, ¬ CutsCharacter s

private theorem argColors_isSome_iff (args : List Text) :
    (argColors args).isSome ↔ ∀ arg ∈ args, ¬ CutsCharacter arg := by
  induction args with
  | nil => simp [argColors]
  | cons arg rest ih =>
    rw [List.forall_mem_cons, ← colorFromStr_isSome_iff, ← ih, argColors]
    cases colorFromStr arg <;> cases argColors rest <;> simp

/-- There is always a stop. -/
theorem gradientStops_ne_nil {args : List Text} {stops : List Rgb}
    (found : gradientStops args = some stops) : stops ≠ [] := by
  obtain ⟨colors, -, same⟩ := Option.bind_eq_some_iff.mp found
  cases same
  cases colors <;> simp

private theorem gradientStops_isSome_iff (args : List Text) :
    (gradientStops args).isSome ↔ ∀ arg ∈ args, ¬ CutsCharacter arg := by
  rw [← argColors_isSome_iff, gradientStops]
  cases argColors args <;> simp

/-- The index is kept away from the last stop, so both stops are there. -/
theorem interpolate_isSome {stops : List Rgb} (some : stops ≠ []) (t : Float) :
    (interpolate stops t).isSome := by
  have positive := List.length_pos_iff.mpr some
  unfold interpolate
  split
  next one => simp [one]
  next many =>
    extract_lets t scaled idx frac
    have below : idx + 1 < stops.length := by
      have := Nat.min_le_right scaled.floor.toUInt64.toNat (stops.length - 2)
      omega
    rw [List.getElem?_eq_getElem (Nat.lt_of_succ_lt below), List.getElem?_eq_getElem below]
    rfl

private theorem gradientChars_isSome {stops : List Rgb} (some : stops ≠ []) (style : Style)
    (total pos : Nat) (s : Text) : (gradientChars style stops total pos s).isSome := by
  induction s generalizing pos with
  | nil => rfl
  | cons c rest ih =>
    obtain ⟨later, found⟩ := Option.isSome_iff_exists.mp (ih (pos + 1))
    obtain ⟨color, mixed⟩ := Option.isSome_iff_exists.mp (interpolate_isSome some
      (if total ≤ 1 then 0.0 else Float.ofNat pos / Float.ofNat (total - 1)))
    simp only [gradientChars, mixed, found, Option.bind_eq_bind, Option.bind_some]
    rfl

section Flatten

variable {toLowercase : Text → Text}

private theorem applyTag_isSome_iff {style : Style} {name : Text} {args : List Text}
    (other : ¬ eqIgnoreAsciiCase name "gradient".toList) :
    (applyTag toLowercase style name args).isSome ↔ NoneCut toLowercase (name, args) := by
  simp only [NoneCut, colorTexts, if_neg other]
  unfold applyTag
  generalize toLowercase name = lower
  by_cases named : lower ∈ ["reset", "bold", "b", "italic", "i", "em", "underlined", "u",
    "strikethrough", "st", "obfuscated", "obf"].map String.toList
  · simp only [List.map_cons, List.map_nil, List.mem_cons, List.not_mem_nil, or_false] at named
    rcases named with rfl | rfl | rfl | rfl | rfl | rfl | rfl | rfl | rfl | rfl | rfl | rfl <;>
      exact iff_of_true rfl (List.forall_mem_nil _)
  · simp only [List.map_cons, List.map_nil, List.mem_cons, List.not_mem_nil, or_false,
      not_or] at named
    obtain ⟨n1, n2, n3, n4, n5, n6, n7, n8, n9, n10, n11, n12⟩ := named
    simp only [n1, n2, n3, n4, n5, n6, n7, n8, n9, n10, n11, n12, or_self, if_false]
    split
    · cases args with
      | nil => simp
      | cons arg rest => simpa using colorFromStr_isSome_iff
    · split
      next hash =>
        obtain ⟨digits, rfl⟩ := List.head?_eq_some_iff.mp hash
        have read := @colorFromStr_isSome_iff ('#' :: digits)
        rw [colorFromStr] at read
        simpa using read
      next => simp

private theorem noneCut_gradient {name : Text} {args : List Text}
    (gradient : eqIgnoreAsciiCase name "gradient".toList) :
    NoneCut toLowercase (name, args) ↔ ∀ arg ∈ args, ¬ CutsCharacter arg := by
  simp only [NoneCut, colorTexts, if_pos gradient]

mutual

private theorem flattenGradientNode_isSome_iff {style : Style} {stops : List Rgb} {total pos : Nat}
    (some : stops ≠ []) : (node : Node) →
    ((flattenGradientNode toLowercase style stops total pos node).isSome ↔
      ∀ tag ∈ nodeTags node, NoneCut toLowercase tag)
  | .text s => by simp [flattenGradientNode, nodeTags, gradientChars_isSome some]
  | .tag name args children => by
    rw [nodeTags, List.forall_mem_cons, flattenGradientNode]
    split
    next gradient =>
      rw [noneCut_gradient gradient, ← gradientStops_isSome_iff]
      cases found : gradientStops args with
      | none => simp
      | some innerStops =>
        have inner := @flattenGradient_isSome_iff style innerStops (max (visibleLen children) 1) 0
          (gradientStops_ne_nil found) children
        rw [← inner]
        cases done : flattenGradient toLowercase style innerStops
          (max (visibleLen children) 1) 0 children <;> simp [done]
    next other =>
      rw [← applyTag_isSome_iff other]
      cases applied : applyTag toLowercase style name args with
      | none => simp
      | some newStyle =>
        simpa using @flattenGradient_isSome_iff newStyle stops total pos some children

private theorem flattenGradient_isSome_iff {style : Style} {stops : List Rgb} {total pos : Nat}
    (some : stops ≠ []) : (nodes : List Node) →
    ((flattenGradient toLowercase style stops total pos nodes).isSome ↔
      ∀ tag ∈ nodesTags nodes, NoneCut toLowercase tag)
  | [] => by simp [flattenGradient, nodesTags]
  | node :: rest => by
    have first := @flattenGradientNode_isSome_iff style stops total pos some node
    rw [nodesTags, List.forall_mem_append, ← first, flattenGradient]
    cases flattenGradientNode toLowercase style stops total pos node with
    | none => simp
    | some front =>
      have later := @flattenGradient_isSome_iff style stops total front.2 some rest
      rw [← later]
      cases done : flattenGradient toLowercase style stops total front.2 rest <;> simp [done]

end

mutual

private theorem flattenNode_isSome_iff {style : Style} : (node : Node) →
    ((flattenNode toLowercase style node).isSome ↔
      ∀ tag ∈ nodeTags node, NoneCut toLowercase tag)
  | .text s => by simp [flattenNode, nodeTags]
  | .tag name args children => by
    rw [nodeTags, List.forall_mem_cons, flattenNode]
    split
    next gradient =>
      rw [noneCut_gradient gradient, ← gradientStops_isSome_iff]
      cases found : gradientStops args with
      | none => simp
      | some stops =>
        have inner := @flattenGradient_isSome_iff toLowercase style stops
          (max (visibleLen children) 1) 0 (gradientStops_ne_nil found) children
        rw [← inner]
        cases done : flattenGradient toLowercase style stops
          (max (visibleLen children) 1) 0 children <;> simp [done]
    next other =>
      rw [← applyTag_isSome_iff other]
      cases applied : applyTag toLowercase style name args with
      | none => simp
      | some newStyle => simpa using @flatten_isSome_iff newStyle children

/-- Every tag is visited, so the nodes are flattened exactly when no colour in them is cut. -/
theorem flatten_isSome_iff {style : Style} : (nodes : List Node) →
    ((flatten toLowercase style nodes).isSome ↔
      ∀ tag ∈ nodesTags nodes, NoneCut toLowercase tag)
  | [] => by simp [flatten, nodesTags]
  | node :: rest => by
    rw [nodesTags, List.forall_mem_append, ← @flattenNode_isSome_iff style node,
      ← @flatten_isSome_iff style rest, flatten]
    cases flattenNode toLowercase style node <;> cases flatten toLowercase style rest <;> simp

end

end Flatten

/-! ### Tags of a text -/

/-- The tags in a text, from its first character to its last. How they are nested does not
matter: a closing tag is passed over, whether it closes one or not. -/
def scanTags : Text → List (Text × List Text)
  | [] => []
  | '\\' :: _ :: rest => scanTags rest
  | '<' :: rest =>
    match found : tagInner rest with
    | none => scanTags rest
    | some ('/' :: _, after) =>
      have := congrArg List.length (tagInner_eq found)
      scanTags after
    | some (inner, after) =>
      have := congrArg List.length (tagInner_eq found)
      if (splitColon inner).1.isEmpty then scanTags rest else splitColon inner :: scanTags after
  | _ :: rest => scanTags rest
termination_by text => text.length
decreasing_by all_goals simp_all; try omega

private theorem nodesTags_pushText (text : Text) (nodes : List Node) :
    nodesTags (pushText text nodes) = nodesTags nodes := by
  cases text <;> rfl

private theorem scanTags_unclosed {rest : Text} (missing : tagInner rest = none) :
    scanTags ('<' :: rest) = scanTags rest := by
  rw [scanTags]
  split
  case h_1 => rfl
  case h_2 found => cases missing.symm.trans found
  case h_3 found => cases missing.symm.trans found

private theorem scanTags_closing {rest closeName after : Text}
    (found : tagInner rest = some ('/' :: closeName, after)) :
    scanTags ('<' :: rest) = scanTags after := by
  rw [scanTags]
  split
  case h_1 missing => cases missing.symm.trans found
  case h_2 same =>
    cases found.symm.trans same
    rfl
  case h_3 plain same =>
    cases found.symm.trans same
    exact absurd rfl (plain _)

private theorem scanTags_opening {rest inner after : Text}
    (found : tagInner rest = some (inner, after)) (plain : ∀ closeName, inner ≠ '/' :: closeName) :
    scanTags ('<' :: rest) =
      if (splitColon inner).1.isEmpty then scanTags rest
      else splitColon inner :: scanTags after := by
  rw [scanTags]
  split
  case h_1 missing => cases missing.symm.trans found
  case h_2 same =>
    cases found.symm.trans same
    exact absurd rfl (plain _)
  case h_3 same =>
    cases found.symm.trans same
    rfl

/-- The tags of the nodes, and of what is left over, are those of the text. -/
theorem scanTags_eq (fuel : Nat) (nested : Bool) (text chars : Text)
    (enough : chars.length ≤ fuel) :
    nodesTags (parseNodesFuel fuel nested text chars).1 ++
      scanTags (parseNodesFuel fuel nested text chars).2 = scanTags chars := by
  fun_induction parseNodesFuel fuel nested text chars
  case case1 =>
    rw [nodesTags_pushText]
    rfl
  case case2 chars nonempty =>
    rw [List.length_eq_zero_iff.mp (Nat.le_zero.mp enough)] at nonempty
    exact absurd rfl nonempty
  case case3 fuel nested text c rest ih =>
    simp only [List.length_cons] at enough
    rw [scanTags]
    exact ih (by omega)
  -- a tag that is not closed is text, and the scan goes on behind its bracket
  case case4 fuel nested text rest missing ih =>
    simp only [List.length_cons] at enough
    rw [scanTags_unclosed missing]
    exact ih (by omega)
  -- a closing tag ends the nested parse, which leaves the rest to its caller
  case case5 fuel text rest closeName after found =>
    rw [scanTags_closing found, nodesTags_pushText]
    rfl
  case case6 fuel nested text rest closeName after found top ih =>
    have shorter := congrArg List.length (tagInner_eq found)
    simp only [List.length_cons, List.length_append] at enough shorter
    rw [scanTags_closing found]
    exact ih (by omega)
  case case7 fuel nested text rest inner after plain found first others pieces unnamed ih =>
    simp only [List.length_cons] at enough
    rw [scanTags_opening found plain, pieces, if_pos unnamed]
    exact ih (by omega)
  case case8 fuel nested text rest inner after plain found first others pieces named children
      after1 inside siblings after2 behind ihChildren ihRest =>
    have shorter := congrArg List.length (tagInner_eq found)
    -- the children consume no more than what stands behind the tag
    have suffix := (parseNodesFuel_rest fuel true [] after).length_le
    rw [inside] at suffix ihChildren
    rw [behind] at ihRest
    simp only [List.length_cons, List.length_append] at enough shorter suffix
    rw [scanTags_opening found plain, pieces, if_neg named, ← ihChildren (by omega),
      ← ihRest (by omega), nodesTags_pushText]
    simp [nodesTags, nodeTags]
  case case9 fuel nested text c rest noEscape noTag ih =>
    simp only [List.length_cons] at enough
    rw [scanTags]
    · exact ih (by omega)
    · exact noEscape
    · exact noTag

/-- At the top level nothing is left over. -/
theorem parseNodesFuel_top {fuel : Nat} {nested : Bool} {text chars : Text}
    (top : nested = false) (enough : chars.length ≤ fuel) :
    (parseNodesFuel fuel nested text chars).2 = [] := by
  fun_induction parseNodesFuel fuel nested text chars
  case case1 => rfl
  case case2 chars nonempty =>
    rw [List.length_eq_zero_iff.mp (Nat.le_zero.mp enough)] at nonempty
    exact absurd rfl nonempty
  case case3 ih =>
    simp only [List.length_cons] at enough
    exact ih top (by omega)
  case case4 ih =>
    simp only [List.length_cons] at enough
    exact ih top (by omega)
  -- only a nested parse stops at a closing tag
  case case5 => cases top
  case case6 found _ ih =>
    have shorter := congrArg List.length (tagInner_eq found)
    simp only [List.length_cons, List.length_append] at enough shorter
    exact ih top (by omega)
  case case7 ih =>
    simp only [List.length_cons] at enough
    exact ih top (by omega)
  case case8 fuel nested text rest inner after plain found first others pieces named children
      after1 inside siblings after2 behind ihChildren ihRest =>
    have shorter := congrArg List.length (tagInner_eq found)
    have suffix := (parseNodesFuel_rest fuel true [] after).length_le
    rw [inside] at suffix
    rw [behind] at ihRest
    simp only [List.length_cons, List.length_append] at enough shorter suffix
    exact ihRest top (by omega)
  case case9 ih =>
    simp only [List.length_cons] at enough
    exact ih top (by omega)

private theorem nodesTags_parseNodes (chars : Text) :
    nodesTags (parseNodes chars false).1 = scanTags chars := by
  have whole := scanTags_eq chars.length false [] chars (Nat.le_refl _)
  rw [parseNodesFuel_top rfl (Nat.le_refl _), scanTags, List.append_nil] at whole
  exact whole

/-- A text is parsed into runs exactly when no tag in it has a colour cut. -/
theorem parseRuns_isSome_iff (toLowercase : Text → Text) (input : Text) :
    (parseRuns toLowercase input).isSome ↔
      ∀ tag ∈ scanTags (legacyCodesToTags input), NoneCut toLowercase tag := by
  rw [parseRuns, flatten_isSome_iff, nodesTags_parseNodes]

/-! ### Positions -/

/-- `&chars[start..]` -/
def sliceFrom (chars : Text) (start : Nat) : Option Text :=
  if start ≤ chars.length then some (chars.drop start) else none

/-- `&chars[start..stop]` -/
def slice (chars : Text) (start stop : Nat) : Option Text :=
  if start ≤ stop ∧ stop ≤ chars.length then some ((chars.take stop).drop start) else none

/-- `parse_nodes` as it walks over `chars` by position; an index or a slice out of bounds
panics. -/
def parseNodesAt (chars : Text) : Nat → Bool → Text → Nat → Option (List Node × Nat)
  | 0, _, text, pos => some (pushText text [], pos)
  | fuel + 1, nested, text, pos =>
    if pos < chars.length then do
      let c ← chars[pos]?
      if c = '\\' ∧ pos + 1 < chars.length then
        let next ← chars[pos + 1]?
        parseNodesAt chars fuel nested (text ++ [next]) (pos + 2)
      else if c = '<' then
        let rest ← sliceFrom chars pos
        match rest.findIdx? (fun c => c = '>') with
        | none => parseNodesAt chars fuel nested (text ++ [c]) (pos + 1)
        | some gtOffset =>
          let tagEnd := pos + gtOffset
          let inner ← slice chars (pos + 1) tagEnd
          if inner.head? = some '/' then
            if nested then some (pushText text [], tagEnd + 1)
            else parseNodesAt chars fuel nested (text ++ '<' :: inner ++ ['>']) (tagEnd + 1)
          else
            let (tagName, args) := splitColon inner
            if tagName.isEmpty then parseNodesAt chars fuel nested (text ++ [c]) (pos + 1)
            else
              let (children, pos) ← parseNodesAt chars fuel true [] (tagEnd + 1)
              let (nodes, pos) ← parseNodesAt chars fuel nested [] pos
              return (pushText text (.tag tagName args children :: nodes), pos)
      else parseNodesAt chars fuel nested (text ++ [c]) (pos + 1)
    else some (pushText text [], pos)

private theorem findIdx_tagInner (rest : Text) :
    rest.findIdx? (fun c => c = '>') = (tagInner rest).map fun cut => cut.1.length := by
  induction rest with
  | nil => rfl
  | cons c rest ih =>
    rw [List.findIdx?_cons, tagInner]
    by_cases close : c = '>'
    · simp [close]
    · simp [close, ih, Function.comp_def]

private theorem slice_append (front inner back : Text) :
    slice (front ++ (inner ++ back)) front.length (front.length + inner.length) = some inner := by
  rw [slice, if_pos (by simp), List.take_append, List.drop_append]
  simp

section Walk

variable {front rest text : Text} {fuel : Nat} {nested : Bool}

/-- The round at a `<` with a `>` behind it. -/
theorem parseNodesAt_tag {inner after : Text} (found : tagInner rest = some (inner, after)) :
    parseNodesAt (front ++ '<' :: rest) (fuel + 1) nested text front.length =
      if inner.head? = some '/' then
        if nested then some (pushText text [], front.length + (inner.length + 2))
        else parseNodesAt (front ++ '<' :: rest) fuel nested (text ++ '<' :: inner ++ ['>'])
          (front.length + (inner.length + 2))
      else if (splitColon inner).1.isEmpty then
        parseNodesAt (front ++ '<' :: rest) fuel nested (text ++ ['<']) (front.length + 1)
      else do
        let (children, pos) ←
          parseNodesAt (front ++ '<' :: rest) fuel true [] (front.length + (inner.length + 2))
        let (nodes, pos) ← parseNodesAt (front ++ '<' :: rest) fuel nested [] pos
        return (pushText text (.tag (splitColon inner).1 (splitColon inner).2 children :: nodes),
          pos) := by
  have offset : ('<' :: rest).findIdx? (fun c => c = '>') = some (inner.length + 1) := by
    simp [List.findIdx?_cons, findIdx_tagInner, found]
  have tail : sliceFrom (front ++ '<' :: rest) front.length = some ('<' :: rest) := by
    simp [sliceFrom]
  have between : slice (front ++ '<' :: rest) (front.length + 1)
      (front.length + (inner.length + 1)) = some inner := by
    have cut := slice_append (front ++ ['<']) inner ('>' :: after)
    rw [← tagInner_eq found] at cut
    simpa [Nat.add_assoc, Nat.add_comm 1] using cut
  rw [parseNodesAt, if_pos (by simp)]
  simp [tail, offset, between, Nat.add_assoc]

private theorem parseNodesAt_unclosed (missing : tagInner rest = none) :
    parseNodesAt (front ++ '<' :: rest) (fuel + 1) nested text front.length =
      parseNodesAt (front ++ '<' :: rest) fuel nested (text ++ ['<']) (front.length + 1) := by
  have offset : ('<' :: rest).findIdx? (fun c => c = '>') = none := by
    simp [List.findIdx?_cons, findIdx_tagInner, missing]
  have tail : sliceFrom (front ++ '<' :: rest) front.length = some ('<' :: rest) := by
    simp [sliceFrom]
  rw [parseNodesAt, if_pos (by simp)]
  simp [tail, offset]

private theorem parseNodesAt_escape (c : Char) :
    parseNodesAt (front ++ '\\' :: c :: rest) (fuel + 1) nested text front.length =
      parseNodesAt (front ++ '\\' :: c :: rest) fuel nested (text ++ [c]) (front.length + 2) := by
  rw [parseNodesAt, if_pos (by simp)]
  simp

private theorem parseNodesAt_plain {c : Char} (noEscape : ∀ d later, c = '\\' → rest ≠ d :: later)
    (noTag : c ≠ '<') :
    parseNodesAt (front ++ c :: rest) (fuel + 1) nested text front.length =
      parseNodesAt (front ++ c :: rest) fuel nested (text ++ [c]) (front.length + 1) := by
  have last : ¬ (c = '\\' ∧ front.length + 1 < (front ++ c :: rest).length) := by
    rintro ⟨backslash, more⟩
    cases rest with
    | nil => simp at more
    | cons d later => exact noEscape d later backslash rfl
  have here : (front ++ c :: rest)[front.length]? = some c := by simp
  rw [parseNodesAt, if_pos (by simp)]
  simp only [here, Option.bind_eq_bind, Option.bind_some, last, if_false, noTag]

end Walk

/-- Walking by position stays within bounds, and is the walk over what is left. -/
theorem parseNodesAt_eq (fuel : Nat) (nested : Bool) (text front rest : Text)
    (enough : rest.length ≤ fuel) :
    parseNodesAt (front ++ rest) fuel nested text front.length =
      some ((parseNodesFuel fuel nested text rest).1,
        (front ++ rest).length - (parseNodesFuel fuel nested text rest).2.length) := by
  fun_induction parseNodesFuel fuel nested text rest generalizing front
  case case1 fuel nested text =>
    cases fuel <;> simp [parseNodesAt]
  case case2 chars nonempty =>
    rw [List.length_eq_zero_iff.mp (Nat.le_zero.mp enough)] at nonempty
    exact absurd rfl nonempty
  case case3 fuel nested text c rest ih =>
    simp only [List.length_cons] at enough
    rw [parseNodesAt_escape]
    simpa using ih (front ++ ['\\', c]) (by omega)
  case case4 fuel nested text rest missing ih =>
    simp only [List.length_cons] at enough
    rw [parseNodesAt_unclosed missing]
    simpa using ih (front ++ ['<']) (by omega)
  case case5 fuel text rest closeName after found =>
    rw [parseNodesAt_tag found, tagInner_eq found]
    simp
    omega
  case case6 fuel nested text rest closeName after found top ih =>
    have shorter := congrArg List.length (tagInner_eq found)
    simp only [List.length_cons, List.length_append] at enough shorter
    rw [parseNodesAt_tag found, if_pos (show ('/' :: closeName).head? = some '/' from rfl),
      if_neg top, tagInner_eq found]
    have later := ih (front ++ '<' :: '/' :: closeName ++ ['>']) (by omega)
    simpa using later
  case case7 fuel nested text rest inner after plain found first others pieces unnamed ih =>
    simp only [List.length_cons] at enough
    have opening : inner.head? ≠ some '/' := fun close =>
      (List.head?_eq_some_iff.mp close).elim fun closeName same => plain closeName same
    rw [parseNodesAt_tag found, if_neg opening, pieces, if_pos unnamed]
    simpa using ih (front ++ ['<']) (by omega)
  case case8 fuel nested text rest inner after plain found first others pieces named children
      after1 inside siblings after2 behind ihChildren ihRest =>
    have opening : inner.head? ≠ some '/' := fun close =>
      (List.head?_eq_some_iff.mp close).elim fun closeName same => plain closeName same
    have shorter := congrArg List.length (tagInner_eq found)
    have tail := parseNodesFuel_rest fuel true [] after
    rw [inside] at tail ihChildren
    rw [behind] at ihRest
    obtain ⟨mid, rfl⟩ := tail
    simp only [List.length_cons, List.length_append] at enough shorter
    -- the text up to the children, and up to the siblings
    have whole : front ++ '<' :: rest = front ++ '<' :: inner ++ ['>'] ++ (mid ++ after1) := by
      rw [tagInner_eq found]
      simp
    have inner' := ihChildren (front ++ '<' :: inner ++ ['>']) (by simp; omega)
    have later := ihRest (front ++ '<' :: inner ++ ['>'] ++ mid) (by omega)
    rw [← whole] at inner'
    rw [List.append_assoc, ← whole] at later
    have between : (front ++ '<' :: inner ++ ['>']).length = front.length + (inner.length + 2) := by
      simp
    have position : (front ++ '<' :: rest).length - after1.length =
        (front ++ '<' :: inner ++ ['>'] ++ mid).length := by
      rw [whole]
      simp
      omega
    rw [between] at inner'
    rw [position] at inner'
    rw [parseNodesAt_tag found, if_neg opening, pieces, if_neg named, inner']
    simp only [Option.bind_eq_bind, Option.bind_some, later]
    rfl
  case case9 fuel nested text c rest noEscape noTag ih =>
    simp only [List.length_cons] at enough
    rw [parseNodesAt_plain (fun d later slash same => noEscape d later slash same) noTag]
    simpa using ih (front ++ [c]) (by omega)

/-- `parse_nodes` over all of a text, with all its indices and slices checked. -/
def parseNodesChecked (chars : Text) : Option (List Node) :=
  (parseNodesAt chars chars.length false [] 0).map Prod.fst

private theorem parseNodesChecked_eq (chars : Text) :
    parseNodesChecked chars = some (parseNodes chars false).1 := by
  have walked := parseNodesAt_eq chars.length false [] [] chars (Nat.le_refl _)
  rw [List.nil_append, List.length_nil] at walked
  rw [parseNodesChecked, walked]
  rfl

/-- Both renderers return, and nothing is indexed or sliced out of bounds on the way, exactly
when no tag of the text has a colour cut. -/
theorem renders_iff (toLowercase : Text → Text) (input : Text) :
    ((parseNodesChecked (legacyCodesToTags input)).isSome ∧
        (toLegacyText toLowercase input).isSome ∧ (toJsonComponent toLowercase input).isSome) ↔
      ∀ tag ∈ scanTags (legacyCodesToTags input), NoneCut toLowercase tag := by
  rw [← parseRuns_isSome_iff, parseNodesChecked_eq, toLegacyText, toJsonComponent,
    Option.isSome_map, Option.isSome_map]
  simp

/-- `é` takes two bytes, and the second pair ends inside it. -/
theorem cutColor_panics :
    ¬ ∀ input, (toLegacyText (List.map Char.toLower) input).isSome ∧
      (toJsonComponent (List.map Char.toLower) input).isSome := by
  intro renders
  exact absurd (renders "<gradient:#001é1>Hi".toList).1 (by decide +kernel)

end MCGate.TextFormat

import MCGate.Protocol.Rendering

/-!
# What parsing consumes, and flattening keeps

`parse_nodes` shares one position with its nested calls, and moves it over each character once.
`flatten` keeps the text of all nodes in document order. Under a gradient each character has a
position of its own below the gradient's total, since a nested gradient counts for itself and
leaves the outer position where it is. Only a colour cut stops a flattening.
-/
namespace MCGate.TextFormat

/-! ### The positions consumed -/

/-- `parse_nodes` with a log of the positions that `*pos` is moved over, in the order of the
moves. -/
def parseNodesLogged (chars : Text) :
    Nat → Bool → Text → Nat → Option ((List Node × Nat) × List Nat)
  | 0, _, text, pos => some ((pushText text [], pos), [])
  | fuel + 1, nested, text, pos =>
    if pos < chars.length then do
      let c ← chars[pos]?
      if c = '\\' ∧ pos + 1 < chars.length then
        let next ← chars[pos + 1]?
        let (parsed, log) ← parseNodesLogged chars fuel nested (text ++ [next]) (pos + 2)
        return (parsed, List.range' pos 2 ++ log)
      else if c = '<' then
        let rest ← sliceFrom chars pos
        match rest.findIdx? (fun c => c = '>') with
        | none =>
          let (parsed, log) ← parseNodesLogged chars fuel nested (text ++ [c]) (pos + 1)
          return (parsed, List.range' pos 1 ++ log)
        | some gtOffset =>
          let tagEnd := pos + gtOffset
          let moved := List.range' pos (gtOffset + 1)
          let inner ← slice chars (pos + 1) tagEnd
          if inner.head? = some '/' then
            if nested then some ((pushText text [], tagEnd + 1), moved)
            else
              let (parsed, log) ←
                parseNodesLogged chars fuel nested (text ++ '<' :: inner ++ ['>']) (tagEnd + 1)
              return (parsed, moved ++ log)
          else
            let (tagName, args) := splitColon inner
            if tagName.isEmpty then
              let (parsed, log) ← parseNodesLogged chars fuel nested (text ++ [c]) (pos + 1)
              return (parsed, List.range' pos 1 ++ log)
            else
              let ((children, pos), inside) ← parseNodesLogged chars fuel true [] (tagEnd + 1)
              let ((nodes, pos), behind) ← parseNodesLogged chars fuel nested [] pos
              return ((pushText text (.tag tagName args children :: nodes), pos),
                moved ++ inside ++ behind)
      else
        let (parsed, log) ← parseNodesLogged chars fuel nested (text ++ [c]) (pos + 1)
        return (parsed, List.range' pos 1 ++ log)
    else some ((pushText text [], pos), [])

section Log

variable {chars text : Text} {fuel pos stop : Nat} {nested : Bool} {nodes : List Node}

/-- The positions between the start and the end of a call, each of them once. -/
def logged (pos : Nat) (parsed : List Node × Nat) : (List Node × Nat) × List Nat :=
  (parsed, List.range' pos (parsed.2 - pos))

private theorem parseNodesAt_forward
    (parsed : parseNodesAt chars fuel nested text pos = some (nodes, stop)) : pos ≤ stop := by
  induction fuel generalizing nested text pos nodes stop with
  | zero =>
    cases parsed
    exact Nat.le_refl _
  | succ fuel ih =>
    rw [parseNodesAt] at parsed
    split at parsed
    · simp only [Option.bind_eq_bind, Option.bind_eq_some_iff] at parsed
      obtain ⟨c, here, parsed⟩ := parsed
      split at parsed
      · obtain ⟨next, -, parsed⟩ := Option.bind_eq_some_iff.mp parsed
        have := ih parsed
        omega
      · split at parsed
        · obtain ⟨rest, -, parsed⟩ := Option.bind_eq_some_iff.mp parsed
          split at parsed
          · have := ih parsed
            omega
          · obtain ⟨inner, -, parsed⟩ := Option.bind_eq_some_iff.mp parsed
            split at parsed
            · split at parsed
              · cases parsed
                omega
              · have := ih parsed
                omega
            · split at parsed
              · have := ih parsed
                omega
              · simp only [Option.bind_eq_some_iff] at parsed
                -- the children end at `mid`, from where the siblings go on
                obtain ⟨⟨children, mid⟩, inside, ⟨siblings, last⟩, behind, same⟩ := parsed
                cases same
                have := ih inside
                have := ih behind
                omega
        · have := ih parsed
          omega
    · cases parsed
      exact Nat.le_refl _

/-- A move of `k` characters, and the rest of the call behind it. -/
theorem logged_move {k : Nat}
    (later : parseNodesLogged chars fuel nested text (pos + k) =
      (parseNodesAt chars fuel nested text (pos + k)).map (logged (pos + k))) :
    ((parseNodesLogged chars fuel nested text (pos + k)).bind fun walked =>
        some (walked.1, List.range' pos k ++ walked.2)) =
      (parseNodesAt chars fuel nested text (pos + k)).map (logged pos) := by
  rw [later]
  cases parsed : parseNodesAt chars fuel nested text (pos + k) with
  | none => rfl
  | some found =>
    have forward := parseNodesAt_forward parsed
    simp only [Option.map_some, Option.bind_some, logged, List.range'_append_1]
    congr 3
    omega

/-- A tag of `k` characters, its children, and the rest of the call behind them. -/
theorem logged_tag {k : Nat} {name : Text} {args : List Text}
    (later : ∀ nested text pos, parseNodesLogged chars fuel nested text pos =
      (parseNodesAt chars fuel nested text pos).map (logged pos)) :
    ((parseNodesLogged chars fuel true [] (pos + k)).bind fun inside =>
        (parseNodesLogged chars fuel nested [] inside.1.2).bind fun behind =>
          some ((pushText text (.tag name args inside.1.1 :: behind.1.1), behind.1.2),
            List.range' pos k ++ inside.2 ++ behind.2)) =
      ((parseNodesAt chars fuel true [] (pos + k)).bind fun inside =>
        (parseNodesAt chars fuel nested [] inside.2).bind fun behind =>
          some (pushText text (.tag name args inside.1 :: behind.1), behind.2)).map
        (logged pos) := by
  rw [later]
  cases children : parseNodesAt chars fuel true [] (pos + k) with
  | none => rfl
  | some inside =>
    have forward := parseNodesAt_forward children
    simp only [Option.map_some, Option.bind_some, logged, later]
    cases siblings : parseNodesAt chars fuel nested [] inside.2 with
    | none => rfl
    | some behind =>
      have forward' := parseNodesAt_forward siblings
      have joined : List.range' pos k ++ List.range' (pos + k) (inside.2 - (pos + k)) ++
          List.range' inside.2 (behind.2 - inside.2) = List.range' pos (behind.2 - pos) := by
        rw [List.range'_append_1, show k + (inside.2 - (pos + k)) = inside.2 - pos by omega]
        conv_lhs => rw [show inside.2 = pos + (inside.2 - pos) by omega]
        rw [show pos + (inside.2 - pos) - pos = inside.2 - pos by omega, List.range'_append_1]
        congr 1
        omega
      simp only [Option.map_some, Option.bind_some, logged, joined]

/-- A call moves the position over all that it consumes, over each character once. -/
theorem parseNodesLogged_eq :
    parseNodesLogged chars fuel nested text pos =
      (parseNodesAt chars fuel nested text pos).map (logged pos) := by
  induction fuel generalizing nested text pos with
  | zero => simp [parseNodesLogged, parseNodesAt, logged]
  | succ fuel ih =>
    rw [parseNodesLogged, parseNodesAt]
    by_cases more : pos < chars.length
    · rw [if_pos more, if_pos more]
      simp only [Option.bind_eq_bind]
      cases chars[pos]? with
      | none => rfl
      | some c =>
        simp only [Option.bind_some]
        -- an escape takes the character behind the backslash with it
        by_cases escape : c = '\\' ∧ pos + 1 < chars.length
        · rw [if_pos escape, if_pos escape]
          cases chars[pos + 1]? with
          | none => rfl
          | some next => exact logged_move ih
        rw [if_neg escape, if_neg escape]
        by_cases angle : c = '<'
        · rw [if_pos angle, if_pos angle]
          cases sliceFrom chars pos with
          | none => rfl
          | some rest =>
            simp only [Option.bind_some]
            -- a bracket that nothing closes is text
            cases rest.findIdx? (fun c => c = '>') with
            | none => exact logged_move ih
            | some gtOffset =>
              simp only
              cases slice chars (pos + 1) (pos + gtOffset) with
              | none => rfl
              | some inner =>
                simp only [Option.bind_some]
                -- a closing tag ends a nested call, and is text at the top
                by_cases closing : inner.head? = some '/'
                · rw [if_pos closing, if_pos closing]
                  cases nested with
                  | true =>
                    simp only [if_true, Option.map_some, logged]
                    congr 3
                    omega
                  | false =>
                    simp only [Bool.false_eq_true, if_false]
                    exact logged_move (k := gtOffset + 1) ih
                rw [if_neg closing, if_neg closing]
                by_cases unnamed : (splitColon inner).1.isEmpty
                · rw [if_pos unnamed, if_pos unnamed]
                  exact logged_move ih
                -- what is left is an opening tag
                rw [if_neg unnamed, if_neg unnamed]
                exact logged_tag (k := gtOffset + 1) (fun _ _ _ => ih)
        · rw [if_neg angle, if_neg angle]
          exact logged_move ih
    · rw [if_neg more, if_neg more]
      simp [logged]

end Log

/-- However much fuel there is beyond one round for each character, the top-level call ends with
the position behind the last character, after moving it over each character once. -/
def ConsumesAll (chars : Text) : Prop :=
  ∀ fuel, chars.length ≤ fuel →
    parseNodesLogged chars fuel false [] 0 =
      some (((parseNodes chars false).1, chars.length), List.range chars.length)

private theorem consumesAll (chars : Text) : ConsumesAll chars := by
  intro fuel enough
  have walked := parseNodesAt_eq fuel false [] [] chars enough
  have same := parseNodesFuel_enough chars.length false [] chars (Nat.le_refl _)
    (fuel - chars.length)
  rw [Nat.add_sub_of_le enough] at same
  rw [List.nil_append, List.length_nil, same, parseNodesFuel_top rfl (Nat.le_refl _)] at walked
  rw [parseNodesLogged_eq, walked]
  simp [logged, parseNodes, List.range_eq_range']

/-! ### Positions under a gradient -/

/-- What ends a flattening early: a panic of the code, or the check that a character's position
is below its gradient's total. -/
inductive Halt where
  | panic
  | pastTotal
  deriving DecidableEq, Repr

def orPanic {α : Type} : Option α → Except Halt α
  | some a => .ok a
  | none => .error .panic

private theorem orPanic_bind {α β : Type} (x : Option α) (f : α → Option β) :
    orPanic (x >>= f) = orPanic x >>= fun a => orPanic (f a) := by
  cases x <;> rfl

/-- The loop of `flatten_gradient` over one text node, with each position checked. -/
def gradientCharsChecked (style : Style) (stops : List Rgb) (total : Nat) :
    Nat → Text → Except Halt (List StyledRun × Nat)
  | pos, [] => .ok ([], pos)
  | pos, c :: rest =>
    if pos < total then do
      let t := if total ≤ 1 then 0.0 else Float.ofNat pos / Float.ofNat (total - 1)
      let color ← orPanic (interpolate stops t)
      let (runs, pos) ← gradientCharsChecked style stops total (pos + 1) rest
      return (⟨[c], { style with color := some color }⟩ :: runs, pos)
    else .error .pastTotal

section Checked

variable (toLowercase : Text → Text)

mutual

def flattenGradientNodeChecked (style : Style) (stops : List Rgb) (total pos : Nat) :
    Node → Except Halt (List StyledRun × Nat)
  | .text s => gradientCharsChecked style stops total pos s
  | .tag name args children =>
    if eqIgnoreAsciiCase name "gradient".toList then do
      let innerStops ← orPanic (gradientStops args)
      let innerTotal := max (visibleLen children) 1
      let (runs, _) ← flattenGradientChecked style innerStops innerTotal 0 children
      return (runs, pos)
    else do
      let newStyle ← orPanic (applyTag toLowercase style name args)
      flattenGradientChecked newStyle stops total pos children

/-- `flatten_gradient` with the position of each character checked against the total. -/
def flattenGradientChecked (style : Style) (stops : List Rgb) (total pos : Nat) :
    List Node → Except Halt (List StyledRun × Nat)
  | [] => .ok ([], pos)
  | node :: rest => do
    let (front, pos) ← flattenGradientNodeChecked style stops total pos node
    let (back, pos) ← flattenGradientChecked style stops total pos rest
    return (front ++ back, pos)

end

mutual

def flattenNodeChecked (style : Style) : Node → Except Halt (List StyledRun)
  | .text s => .ok (if s.isEmpty then [] else [⟨s, style⟩])
  | .tag name args children =>
    if eqIgnoreAsciiCase name "gradient".toList then do
      let stops ← orPanic (gradientStops args)
      let total := max (visibleLen children) 1
      let (runs, _) ← flattenGradientChecked toLowercase style stops total 0 children
      return runs
    else do
      let newStyle ← orPanic (applyTag toLowercase style name args)
      flattenChecked newStyle children

/-- `flatten`, with `flattenGradientChecked` under each gradient. -/
def flattenChecked (style : Style) : List Node → Except Halt (List StyledRun)
  | [] => .ok []
  | node :: rest => do
    let front ← flattenNodeChecked style node
    let back ← flattenChecked style rest
    return front ++ back

end

end Checked

private theorem gradientChars_position {style : Style} {stops : List Rgb} {total pos stop : Nat}
    {s : Text} {runs : List StyledRun}
    (done : gradientChars style stops total pos s = some (runs, stop)) :
    stop = pos + s.length := by
  induction s generalizing pos runs with
  | nil =>
    cases done
    rfl
  | cons c rest ih =>
    simp only [gradientChars, Option.bind_eq_bind, Option.bind_eq_some_iff] at done
    obtain ⟨color, -, ⟨later, last⟩, behind, same⟩ := done
    cases same
    rw [ih behind, List.length_cons]
    omega

private theorem gradientCharsChecked_eq {style : Style} {stops : List Rgb} {total pos : Nat}
    {s : Text} (room : pos + s.length ≤ total) :
    gradientCharsChecked style stops total pos s =
      orPanic (gradientChars style stops total pos s) := by
  induction s generalizing pos with
  | nil => rfl
  | cons c rest ih =>
    rw [List.length_cons] at room
    simp only [gradientCharsChecked, if_pos (show pos < total by omega), gradientChars,
      orPanic_bind, ih (show pos + 1 + rest.length ≤ total by omega)]
    rfl

section Checked

variable {toLowercase : Text → Text}

mutual

/-- The position moves over the visible characters of a node at most: a nested gradient leaves
it where it is. -/
theorem flattenGradientNode_position {style : Style} {stops : List Rgb} {total pos stop : Nat}
    {runs : List StyledRun} : (node : Node) →
    flattenGradientNode toLowercase style stops total pos node = some (runs, stop) →
      stop ≤ pos + nodeVisibleLen node
  | .text s, done => Nat.le_of_eq (gradientChars_position done)
  | .tag name args children, done => by
    rw [flattenGradientNode] at done
    split at done
    · simp only [Option.bind_eq_bind, Option.bind_eq_some_iff] at done
      obtain ⟨innerStops, -, inner, -, same⟩ := done
      cases same
      exact Nat.le_add_right _ _
    · simp only [Option.bind_eq_bind, Option.bind_eq_some_iff] at done
      obtain ⟨newStyle, -, flat⟩ := done
      exact flattenGradient_position children flat

private theorem flattenGradient_position {style : Style} {stops : List Rgb} {total pos stop : Nat}
    {runs : List StyledRun} : (nodes : List Node) →
    flattenGradient toLowercase style stops total pos nodes = some (runs, stop) →
      stop ≤ pos + visibleLen nodes
  | [], done => by
    cases done
    exact Nat.le_add_right _ _
  | node :: rest, done => by
    simp only [flattenGradient, Option.bind_eq_bind, Option.bind_eq_some_iff] at done
    obtain ⟨⟨front, mid⟩, first, ⟨back, last⟩, later, same⟩ := done
    cases same
    have := flattenGradientNode_position node first
    have := flattenGradient_position rest later
    rw [visibleLen]
    omega

end

mutual

private theorem flattenGradientNodeChecked_eq {style : Style} {stops : List Rgb} {total pos : Nat} :
    (node : Node) → pos + nodeVisibleLen node ≤ total →
    flattenGradientNodeChecked toLowercase style stops total pos node =
      orPanic (flattenGradientNode toLowercase style stops total pos node)
  | .text s, room => gradientCharsChecked_eq room
  | .tag name args children, room => by
    rw [flattenGradientNodeChecked, flattenGradientNode]
    split
    -- the nested gradient's total has room for all its characters
    · have inside : 0 + visibleLen children ≤ max (visibleLen children) 1 := by omega
      simp only [orPanic_bind, flattenGradientChecked_eq children inside]
      rfl
    · simp only [orPanic_bind, flattenGradientChecked_eq children room]

private theorem flattenGradientChecked_eq {style : Style} {stops : List Rgb} {total pos : Nat} :
    (nodes : List Node) → pos + visibleLen nodes ≤ total →
    flattenGradientChecked toLowercase style stops total pos nodes =
      orPanic (flattenGradient toLowercase style stops total pos nodes)
  | [], _ => rfl
  | node :: rest, room => by
    rw [visibleLen] at room
    rw [flattenGradientChecked, flattenGradient, flattenGradientNodeChecked_eq node (by omega)]
    cases first : flattenGradientNode toLowercase style stops total pos node with
    | none => rfl
    -- the first node leaves the others their room
    | some front =>
      have moved := flattenGradientNode_position node first
      have later := @flattenGradientChecked_eq style stops total front.2 rest (by omega)
      change (flattenGradientChecked toLowercase style stops total front.2 rest >>= _) =
        orPanic (flattenGradient toLowercase style stops total front.2 rest >>= _)
      rw [later, orPanic_bind]
      rfl

end

mutual

private theorem flattenNodeChecked_eq {style : Style} : (node : Node) →
    flattenNodeChecked toLowercase style node = orPanic (flattenNode toLowercase style node)
  | .text s => rfl
  | .tag name args children => by
    rw [flattenNodeChecked, flattenNode]
    split
    · have inside : 0 + visibleLen children ≤ max (visibleLen children) 1 := by omega
      simp only [orPanic_bind, flattenGradientChecked_eq children inside]
      rfl
    · simp only [orPanic_bind, flattenChecked_eq children]

/-- The check never fails: each gradient's total has room for its characters. -/
theorem flattenChecked_eq {style : Style} : (nodes : List Node) →
    flattenChecked toLowercase style nodes = orPanic (flatten toLowercase style nodes)
  | [] => rfl
  | node :: rest => by
    rw [flattenChecked, flatten, orPanic_bind, flattenNodeChecked_eq node]
    simp only [orPanic_bind, flattenChecked_eq rest]
    rfl

end

end Checked

/-- The runs of the nodes are emitted, and show their text in document order. -/
def Conserved (toLowercase : Text → Text) (style : Style) (nodes : List Node) : Prop :=
  ∃ runs, flattenChecked toLowercase style nodes = .ok runs ∧
    runs.flatMap StyledRun.text = nodesText nodes

private theorem conserved_iff {toLowercase : Text → Text} {style : Style} {nodes : List Node} :
    Conserved toLowercase style nodes ↔ ∀ tag ∈ nodesTags nodes, NoneCut toLowercase tag := by
  rw [← @flatten_isSome_iff toLowercase style nodes, Conserved, flattenChecked_eq]
  cases flat : flatten toLowercase style nodes with
  | none => simp [orPanic]
  | some runs => simp [orPanic, (flatten_text nodes flat).1]

/-- No character under a gradient has a position at its total or past it. -/
theorem flattenChecked_ne_pastTotal (toLowercase : Text → Text) (style : Style)
    (nodes : List Node) : flattenChecked toLowercase style nodes ≠ .error .pastTotal := by
  rw [flattenChecked_eq]
  cases flatten toLowercase style nodes <;> simp [orPanic]

/-- Any text is parsed to its end, each character consumed once, and no position reaches its
gradient's total. The runs of the nodes are emitted, with no text lost, exactly when no tag
among the nodes has a colour cut. -/
theorem consumes_and_conserves_iff (toLowercase : Text → Text) (chars : Text) (style : Style)
    (nodes : List Node) :
    (ConsumesAll chars ∧ Conserved toLowercase style nodes ∧
        flattenChecked toLowercase style nodes ≠ .error .pastTotal) ↔
      ∀ tag ∈ nodesTags nodes, NoneCut toLowercase tag := by
  rw [← @conserved_iff toLowercase style nodes]
  constructor
  · rintro ⟨-, conserved, -⟩
    exact conserved
  · intro conserved
    exact ⟨consumesAll chars, conserved, flattenChecked_ne_pastTotal toLowercase style nodes⟩

/-- `é` takes two bytes, and the second pair of the tag's colour ends inside it: the `Hi` under
the tag is lost with everything else. -/
theorem cutColor_not_conserved :
    ¬ ∀ chars nodes, ConsumesAll chars ∧ Conserved (List.map Char.toLower) {} nodes ∧
      flattenChecked (List.map Char.toLower) {} nodes ≠ .error .pastTotal := by
  intro holds
  obtain ⟨-, ⟨runs, flat, -⟩, -⟩ := holds [] (parseNodes "<#001é1>Hi".toList false).1
  have halts : flattenChecked (List.map Char.toLower) {} (parseNodes "<#001é1>Hi".toList false).1 =
      .error .panic := by decide +kernel
  cases halts.symm.trans flat

end MCGate.TextFormat

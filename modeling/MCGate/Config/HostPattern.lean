import MCGate.Std.Text

/-!
# Host patterns

`*` matches any sequence of characters and `?` any single one. `match_host` decides a
match with a table over the suffixes of pattern and text, then walks the pattern from
the left and gives each `*` the longest span the rest of the pattern still allows.
-/
namespace MCGate

structure HostPattern where
  raw : Text
  pattern : Text
  wildcardCount : Nat
  deriving DecidableEq, Repr

namespace HostPattern

section

variable (toLowercase : Text → Text)

def new (raw : Text) : HostPattern :=
  let pattern := toLowercase (trimEndMatches (· = '.') raw)
  { raw, pattern, wildcardCount := (pattern.filter fun c => c = '*' ∨ c = '?').length }

/-- Row `i` of the table, from row `i + 1`: one entry for each suffix of the text. -/
def dpRow (pc : Char) : Text → List Bool → List Bool
  | [], below => [pc = '*' && below.headD false]
  | c :: lower, below =>
    let row := dpRow pc lower below.tail
    let entry :=
      if pc = '*' then below.headD false || row.headD false
      else if pc = '?' then below.tail.headD false
      else c = pc && below.tail.headD false
    entry :: row

/-- The rows of the table: entry `j` of row `i` says whether `p[i..]` matches `lower[j..]`. -/
def dpTable (lower : Text) : Text → List (List Bool)
  | [] => [lower.map (fun _ => false) ++ [true]]
  | pc :: p =>
    let table := dpTable lower p
    dpRow pc lower (table.headD []) :: table

/-- The last `k` from `j` on with an entry set, or `j`. -/
def bestEnd (row : List Bool) (j : Nat) : Nat :=
  (row.zipIdx.filter fun entry => entry.1 && j ≤ entry.2).foldl (fun _ entry => entry.2) j

/-- The walk over the pattern from text position `j`, with the rows below the current
one. A slice past the end of the text panics. -/
def captures (textChars : Text) : Text → List (List Bool) → Nat → Option (List Text)
  | [], _, _ => some []
  | pc :: p, rows, j =>
    if pc = '*' then
      let best := bestEnd (rows.headD []) j
      if best ≤ textChars.length then
        (captures textChars p rows.tail best).map ((textChars.take best).drop j :: ·)
      else none
    else if pc = '?' then
      if j + 1 ≤ textChars.length then
        (captures textChars p rows.tail (j + 1)).map ((textChars.take (j + 1)).drop j :: ·)
      else none
    else captures textChars p rows.tail (j + 1)

/-- `match_host`; the outer `none` is a panic, which takes a text that lowercasing makes
longer. -/
def matchHost (self : HostPattern) (hostname : Text) : Option (Option (List Text)) :=
  let text := trimEndMatches (· = '.') hostname
  if 255 < text.length then some none
  else
    let lower := toLowercase text
    let dp := dpTable lower self.pattern
    if (dp.headD []).headD false then (captures text self.pattern dp.tail 0).map some
    else some none

end

/-- `PartialEq`: the normalised patterns are compared, the raw texts are not. -/
def eq (a b : HostPattern) : Bool := a.pattern = b.pattern

example : matchHost (List.map Char.toLower) (new (List.map Char.toLower) "*-?.Example.com.".toList)
    "EU-a-1.example.COM".toList = some (some ["EU-a".toList, "1".toList]) := by decide

end HostPattern

end MCGate

import MCGate.Config.SubstituteParams

/-!
# Host and port of a backend

`resolve_backends` substitutes the captures into a template and splits what comes out at its
last colon. What a template has after its last reference is split as it was written: no capture
reaches into it.
-/
namespace MCGate

/-- `str::rfind` of a character -/
def rfind (c : Char) : Text → Option Nat
  | [] => none
  | d :: rest =>
    match rfind c rest with
    | some i => some (i + 1)
    | none => if d = c then some 0 else none

def splitHostPort (value : Text) (defaultPort : UInt16) : Text × UInt16 :=
  match rfind ':' value with
  -- what follows the last colon is the port, or the default one where it does not parse
  | some i => (value.take i, (parseU16 (value.drop (i + 1))).getD defaultPort)
  | none => (value, defaultPort)

/-- What `resolve_backends` looks up for a template. -/
def backendHostPort (template : Text) (captures : List Text) : Option (Text × UInt16) :=
  (substituteParams template captures).map fun value => splitHostPort value 25565

example : backendHostPort "$1.internal:25566".toList ["evil:1".toList] =
    some ("evil:1.internal".toList, 25566) := by decide +kernel

theorem rfind_eq_none {c : Char} {text : Text} (absent : c ∉ text) : rfind c text = none := by
  induction text with
  | nil => rfl
  | cons d text ih =>
    obtain ⟨apart, later⟩ := List.ne_and_not_mem_of_not_mem_cons absent
    rw [rfind, ih later]
    exact if_neg (Ne.symm apart)

private theorem rfind_append {c : Char} {text : Text} (before : Text) (absent : c ∉ text) :
    rfind c (before ++ c :: text) = some before.length := by
  induction before with
  | nil =>
    rw [List.nil_append, rfind, rfind_eq_none absent]
    exact if_pos rfl
  | cons d before ih => rw [List.cons_append, rfind, ih, List.length_cons]

/-- A port of digits is read as their value. -/
theorem parseU16_numeral {digits : Text} (numeral : Numeral digits)
    (small : numeralValue digits ≤ 65535) :
    parseU16 digits = some (UInt16.ofNat (numeralValue digits)) := by
  obtain ⟨d, later, read, value⟩ := readDigits_numeral numeral
  rw [← value] at small ⊢
  rw [parseU16, if_neg numeral.unsigned, read]
  exact if_pos small

private theorem colon_notMem_numeral {digits : Text} (numeral : Numeral digits) : ':' ∉ digits := by
  intro colon
  exact absurd (numeral.2 ':' colon) (by decide)

/-- The last colon decides where the host ends. -/
theorem splitHostPort_last (host : Text) {last : Text} (absent : ':' ∉ last)
    (defaultPort : UInt16) :
    splitHostPort (host ++ ':' :: last) defaultPort =
      (host, (parseU16 last).getD defaultPort) := by
  rw [splitHostPort, rfind_append host absent]
  dsimp only
  rw [List.take_left, ← List.drop_drop, List.drop_left, List.drop_one, List.tail_cons]

private theorem splitHostPort_append {digits : Text} (host : Text) (numeral : Numeral digits)
    (small : numeralValue digits ≤ 65535) (defaultPort : UInt16) :
    splitHostPort (host ++ ':' :: digits) defaultPort =
      (host, UInt16.ofNat (numeralValue digits)) := by
  rw [splitHostPort_last host (colon_notMem_numeral numeral), parseU16_numeral numeral small,
    Option.getD_some]

/-! ### What no capture reaches -/

private theorem tokens_plain {text : Text} (noDollar : '$' ∉ text) :
    Tokens text (text.map .plain) := by
  induction text with
  | nil => exact .done
  | cons c text ih =>
    obtain ⟨apart, later⟩ := List.ne_and_not_mem_of_not_mem_cons noDollar
    exact .plain (fun dollar => absurd dollar.symm apart) (ih later)

private theorem replaced_plain (captures : List Text) (text : Text) :
    (text.map Token.plain).flatMap (Token.replaced captures) = text := by
  induction text with
  | nil => rfl
  | cons c text ih =>
    rw [List.map_cons, List.flatMap_cons, ih]
    rfl

/-- A text that starts with no digit does not reach into the reference before it. -/
theorem NoDigit.append {text back : Text} (stop : NoDigit 10 text) (start : NoDigit 10 back) :
    NoDigit 10 (text ++ back) := by
  cases text with
  | nil => exact start
  | cons c text =>
    rintro d ⟨⟩
    exact stop c rfl

theorem Tokens.append {front back : Text} {tokens tokens' : List Token}
    (start : NoDigit 10 back) (read : Tokens front tokens) (read' : Tokens back tokens') :
    Tokens (front ++ back) (tokens ++ tokens') := by
  induction read with
  | done => exact read'
  | plain dollar _ ih => exact .plain (fun same => (dollar same).append start) ih
  | ref numeral stop _ ih =>
    rw [List.cons_append, List.append_assoc]
    exact .ref numeral (stop.append start) ih

/-- Substituting leaves what follows the last reference as it was written. -/
theorem substituteParams_append {captures : List Text} {front back : Text}
    (noDollar : '$' ∉ back) (start : NoDigit 10 back)
    (fit : ∀ digits, Refers (front ++ back) digits → numeralValue digits ≤ usizeMax) :
    ∃ result, substituteParams front captures = some result ∧
      Substituted captures front result ∧
      substituteParams (front ++ back) captures = some (result ++ back) := by
  obtain ⟨tokens, read⟩ := tokens_exist front
  -- the whole is read as the front's tokens and then characters that stand for themselves
  have whole := read.append start (tokens_plain noDollar)
  have fitFront : ∀ digits, Refers front digits → numeralValue digits ≤ usizeMax := by
    intro digits refers
    have member := List.mem_append_left (back.map Token.plain) (read.mem_iff.mpr refers)
    exact fit digits (whole.mem_iff.mp member)
  obtain ⟨result, returned, tokens', read', rfl⟩ :=
    @substituteParams_of_fit captures front (.inr fitFront)
  obtain ⟨all, returnedAll, substituted⟩ := @substituteParams_of_fit captures _ (.inr fit)
  refine ⟨_, returned, ⟨tokens', read', rfl⟩, ?_⟩
  have same := substituted.unique ⟨_, whole, rfl⟩
  rw [returnedAll, same, List.flatMap_append, replaced_plain, read.unique read']

/-- Whatever is captured, a template that ends in a host's end and a port gives that port, and
the host is what the rest of the template gives before it. -/
theorem backendHostPort_literal (captures : List Text) {front host port : Text}
    (noDollar : '$' ∉ host ++ ':' :: port) (start : NoDigit 10 (host ++ ':' :: port))
    (numeral : Numeral port) (small : numeralValue port ≤ 65535)
    (fit : ∀ digits, Refers (front ++ (host ++ ':' :: port)) digits →
      numeralValue digits ≤ usizeMax) :
    ∃ result, substituteParams front captures = some result ∧
      Substituted captures front result ∧
      backendHostPort (front ++ (host ++ ':' :: port)) captures =
        some (result ++ host, UInt16.ofNat (numeralValue port)) := by
  obtain ⟨result, returned, substituted, whole⟩ :=
    @substituteParams_append captures _ _ noDollar start fit
  refine ⟨result, returned, substituted, ?_⟩
  rw [backendHostPort, whole, Option.map_some, ← List.append_assoc,
    splitHostPort_append (result ++ host) numeral small]

/-- Captures with colons, digits and references in them. -/
theorem backendHostPort_literal_hostile :
    ∃ result, substituteParams "$1.srv-$2".toList ["evil:1".toList, "$1:2".toList] = some result ∧
      Substituted ["evil:1".toList, "$1:2".toList] "$1.srv-$2".toList result ∧
      backendHostPort ("$1.srv-$2".toList ++ (".internal".toList ++ ':' :: "25566".toList))
          ["evil:1".toList, "$1:2".toList] =
        some (result ++ ".internal".toList, UInt16.ofNat (numeralValue "25566".toList)) := by
  have digits : ("25566".toList.all fun c => (toDigit 10 c).isSome) = true := by decide
  have returned : substituteParams ("$1.srv-$2".toList ++ (".internal".toList ++ ':' ::
      "25566".toList)) ["evil:1".toList, "$1:2".toList] =
        some "evil:1.srv-$1:2.internal:25566".toList := by decide +kernel
  exact backendHostPort_literal ["evil:1".toList, "$1:2".toList] (by decide)
    (noDigit_cons (by decide)) ⟨by decide, List.all_eq_true.mp digits⟩ (by decide)
    fun _ => fit_of_returned (List.cons_ne_nil _ _) returned

end MCGate

import Mathlib.Algebra.Group.Int.Defs
import MCGate.Std.Net

/-!
# Durations and byte sizes

Both are an integer amount and a unit. The amount is an `i64`; the product of a duration
wraps in a release build, the product of a byte size is checked.
-/
namespace MCGate.Config

/-- Why loading a config stops: an error with its message, or a panic. -/
inductive LoadError where
  | failed (message : Text)
  | panicked
  deriving DecidableEq, Repr

/-- The result is an error, and not a panic. -/
def failed {α : Type} : Except LoadError α → Bool
  | .error (.failed _) => true
  | _ => false

/-- `bail!` -/
def bail {α : Type} (message : String) : Except LoadError α := .error (.failed message.toList)

def isI64 (n : Int) : Bool := -2 ^ 63 ≤ n ∧ n < 2 ^ 63

/-- `str::parse::<i64>().ok()`: an optional sign, at least one digit, and in range. -/
def parseI64 (s : Text) : Option Int64 :=
  let signed : Int × Text :=
    match s with
    | '-' :: digits => (-1, digits)
    | '+' :: digits => (1, digits)
    | digits => (1, digits)
  match readDigits 10 signed.2 with
  | ([], _) => none
  | (digits, []) =>
    let n := signed.1 * digitsValue 10 digits
    if isI64 n then some (Int64.ofInt n) else none
  | _ => none

/-- The part of an amount: digits, and minus signs anywhere. -/
def isAmountChar (c : Char) : Bool := c.isDigit || c = '-'

def parseDurationMillis (value : Text) : Except LoadError Int64 :=
  let value := trim value
  let amount := value.takeWhile isAmountChar
  let unit := value.dropWhile isAmountChar
  -- a value of amount characters only has no unit to find
  if unit.isEmpty then bail ("Invalid duration: " ++ String.ofList value)
  else
    match parseI64 amount with
    | none => bail ("Invalid duration: " ++ String.ofList value)
    | some amount =>
      if unit = "ms".toList then .ok amount
      else if unit = "s".toList then .ok (amount * 1000)
      else if unit = "m".toList then .ok (amount * 60000)
      else if unit = "h".toList then .ok (amount * 3600000)
      else if unit = "d".toList then .ok (amount * 86400000)
      else bail ("Invalid duration unit: " ++ String.ofList value)

/-- `strip_suffix("ib")`, else `strip_suffix('b')`, else the text itself. -/
def stripByteSuffix (unit : Text) : Text :=
  if ['i', 'b'].isSuffixOf unit then unit.take (unit.length - 2)
  else if ['b'].isSuffixOf unit then unit.take (unit.length - 1)
  else unit

/-- The power of 1024 that a unit stands for. -/
def byteFactor (unit : Text) : Option Int :=
  if unit = [] then some 1
  else if unit = ['k'] then some 1024
  else if unit = ['m'] then some (1024 ^ 2)
  else if unit = ['g'] then some (1024 ^ 3)
  else if unit = ['t'] then some (1024 ^ 4)
  else if unit = ['p'] then some (1024 ^ 5)
  else none

def parseByteSize (toLowercase : Text → Text) (value : Text) : Except LoadError Int64 :=
  let invalid := bail ("invalid byte size: " ++ String.ofList value ++
    " (try e.g. 100g, 512m, 5242880, or -1)")
  let trimmed := trim value
  let digits := trimmed.takeWhile isAmountChar
  if digits.isEmpty ∨ digits = ['-'] then invalid
  else
    match parseI64 digits with
    | none => invalid
    | some amount =>
      if amount < 0 then .ok (-1)
      else
        let unit := toLowercase (trim (trimmed.dropWhile isAmountChar))
        match byteFactor (stripByteSuffix unit) with
        | none => bail ("invalid byte size unit: " ++ String.ofList value)
        | some factor =>
          if isI64 (amount.toInt * factor) then .ok (Int64.ofInt (amount.toInt * factor))
          else bail ("byte size out of range: " ++ String.ofList value)

example : (parseDurationMillis " -1s ".toList).toOption = some (-1000) := by decide

example : (parseByteSize (List.map Char.toLower) "100GiB".toList).toOption =
    some (100 * 1024 * 1024 * 1024) := by decide

end MCGate.Config

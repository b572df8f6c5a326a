import Mathlib.Data.List.Basic

/-!
# Readers that depend only on what they consume

A reader looks at a buffer and returns a value with the number of tokens it
consumed, or an error. It is `Local` when an accepted value is decided by the
consumed tokens alone, whatever follows them. The encodings such a reader
accepts to the last token form a prefix code: no buffer starts with two of them
(`Reads.unique`). The words of any prefix code are recovered from their
concatenation (`flatten_prefix`).
-/
namespace MCGate.Reader

variable {τ ε α : Type}

/-- An accepted value is decided by the tokens consumed for it. -/
structure Local (p : List τ → Except ε (α × Nat)) : Prop where
  within : ∀ {b v n}, p b = .ok (v, n) → n ≤ b.length
  stable : ∀ {b v n}, p b = .ok (v, n) → ∀ r, p (b.take n ++ r) = .ok (v, n)

/-- `enc` is read to its last token as `v`. -/
def Reads (p : List τ → Except ε (α × Nat)) (enc : List τ) (v : α) : Prop :=
  p enc = .ok (v, enc.length)

variable {p : List τ → Except ε (α × Nat)}

theorem Local.reads (h : Local p) {b : List τ} {v : α} {n : Nat} (read : p b = .ok (v, n)) :
    Reads p (b.take n) v := by
  have whole := h.stable read []
  rw [List.append_nil] at whole
  rw [Reads, whole, List.length_take, Nat.min_eq_left (h.within read)]

/-- A buffer that is read splits into what was consumed and the rest. -/
theorem Local.split (h : Local p) {b : List τ} {v : α} {n : Nat} (read : p b = .ok (v, n)) :
    ∃ enc rest, b = enc ++ rest ∧ enc.length = n ∧ Reads p enc v := by
  refine ⟨b.take n, b.drop n, (List.take_append_drop n b).symm, ?_, h.reads read⟩
  rw [List.length_take, Nat.min_eq_left (h.within read)]

theorem Reads.append (h : Local p) {enc : List τ} {v : α} (reads : Reads p enc v)
    (r : List τ) : p (enc ++ r) = .ok (v, enc.length) := by
  have whole := h.stable reads r
  rwa [List.take_length] at whole

theorem Reads.unique (h : Local p) {enc enc' r r' : List τ} {v v' : α}
    (left : Reads p enc v) (right : Reads p enc' v') (same : enc ++ r = enc' ++ r') :
    enc = enc' ∧ r = r' ∧ v = v' := by
  -- both encodings are read off the same buffer, so they have one length
  have read := left.append h r
  rw [same, right.append h r'] at read
  simp only [Except.ok.injEq, Prod.mk.injEq] at read
  obtain ⟨encEq, restEq⟩ := List.append_inj same read.2.symm
  exact ⟨encEq, restEq, read.1.symm⟩

/-- A cut behind what was consumed changes nothing. -/
theorem Local.take (h : Local p) {b : List τ} {v : α} {n m : Nat} (read : p b = .ok (v, n))
    (behind : n ≤ m) : p (b.take m) = .ok (v, n) := by
  have front := List.take_append_drop n (b.take m)
  rw [List.take_take, Nat.min_eq_left behind] at front
  rw [← front]
  exact h.stable read _

theorem Local.of_take (h : Local p) {b : List τ} {v : α} {n m : Nat}
    (read : p (b.take m) = .ok (v, n)) : p b = .ok (v, n) := by
  have inside := h.within read
  rw [List.length_take] at inside
  have front : b = (b.take m).take n ++ b.drop n := by
    rw [List.take_take, Nat.min_eq_left (by omega), List.take_append_drop]
  rw [front]
  exact h.stable read _

/-- Cut before its last token, an encoding is not read. -/
theorem Reads.cut (h : Local p) {enc : List τ} {v w : α} {n m : Nat} (reads : Reads p enc v)
    (short : n < enc.length) : p (enc.take n) ≠ .ok (w, m) := by
  intro read
  have inside := h.within read
  have whole := h.of_take read
  rw [reads, Except.ok.injEq, Prod.mk.injEq] at whole
  rw [List.length_take] at inside
  omega

/-- No word of `code` is a proper prefix of another. -/
def PrefixFree (code : List τ → Prop) : Prop :=
  ∀ c d r s, code c → code d → c ++ r = d ++ s → c = d

/-- Words of a prefix code are recovered from their concatenation: a whole number
of them at the front of a concatenation is made of its first words. -/
theorem flatten_prefix {code : List τ → Prop} (free : PrefixFree code)
    {cs ds : List (List τ)} (left : ∀ c ∈ cs, code c) (right : ∀ d ∈ ds, code d)
    (nonempty : ∀ c ∈ cs, c ≠ []) {r : List τ} (same : cs.flatten ++ r = ds.flatten) :
    ∃ k, k ≤ ds.length ∧ cs = ds.take k ∧ r = (ds.drop k).flatten := by
  induction cs generalizing ds with
  | nil => exact ⟨0, Nat.zero_le _, by simp, by simpa using same⟩
  | cons c cs ih =>
    cases ds with
    | nil =>
      simp only [List.flatten_cons, List.flatten_nil, List.append_eq_nil_iff] at same
      exact absurd same.1.1 (nonempty c (by simp))
    | cons d ds =>
      simp only [List.flatten_cons, List.append_assoc] at same
      -- the first words are both at the front of one list, and neither is inside the other
      have head : c = d := free c d _ _ (left c (by simp)) (right d (by simp)) same
      subst head
      obtain ⟨k, le, words, rest⟩ := ih (fun c h => left c (by simp [h]))
        (fun d h => right d (by simp [h])) (fun c h => nonempty c (by simp [h]))
        (List.append_cancel_left same)
      exact ⟨k + 1, by simpa using le, by simp [← words], by simpa using rest⟩

end MCGate.Reader

import Mathlib.Data.List.Basic

/-!
# Runs of a partial step function

A component that takes step after step is a function `step : σ → ε → Option σ`:
`none` means that the event is not enabled in the state. A run is a list of
events that are all enabled in turn. Two rules carry every statement about whole
runs:

- an invariant kept by each step holds after every run (`run_invariant`);
- an invariant kept by each step that meets a condition holds in every state of
  every run whose steps all meet it (`always_of_guarded`), and when the
  condition is exactly what keeps it, the two say the same (`always_iff_guarded`).
-/
namespace MCGate.Machine

variable {σ ε : Type} {step : σ → ε → Option σ}

/-- The state after `events`, or `none` once an event is not enabled. -/
def run (step : σ → ε → Option σ) : σ → List ε → Option σ
  | s, [] => some s
  | s, e :: es => (step s e).bind fun s' => run step s' es

theorem run_cons_eq_some {s t : σ} {e : ε} {es : List ε} :
    run step s (e :: es) = some t ↔ ∃ s', step s e = some s' ∧ run step s' es = some t := by
  simp [run, Option.bind_eq_some_iff]

theorem run_append_eq_some {s t : σ} {es fs : List ε} :
    run step s (es ++ fs) = some t ↔ ∃ s', run step s es = some s' ∧ run step s' fs = some t := by
  induction es generalizing s with
  | nil => simp [run]
  | cons e es ih =>
    rw [List.cons_append]
    simp only [run_cons_eq_some, ih]
    constructor
    · rintro ⟨s', first, s'', rest, last⟩
      exact ⟨s'', ⟨s', first, rest⟩, last⟩
    · rintro ⟨s'', ⟨s', first, rest⟩, last⟩
      exact ⟨s', first, s'', rest, last⟩

theorem run_concat_eq_some {s t : σ} {es : List ε} {e : ε} :
    run step s (es ++ [e]) = some t ↔ ∃ s', run step s es = some s' ∧ step s' e = some t := by
  rw [run_append_eq_some]
  simp [run]

/-- What every step keeps holds after every run. -/
theorem run_invariant (inv : σ → Prop)
    (keep : ∀ s e s', inv s → step s e = some s' → inv s')
    {s t : σ} {es : List ε} (initial : inv s) (ran : run step s es = some t) : inv t := by
  induction es generalizing s with
  | nil =>
    cases ran
    exact initial
  | cons e es ih =>
    obtain ⟨s', first, rest⟩ := run_cons_eq_some.mp ran
    -- the step keeps `inv`, and the rest of the run starts from there
    exact ih (keep s e s' initial first) rest

/-- Each step of the run meets `cond`, which sees the state before it and the event. -/
def Guarded (step : σ → ε → Option σ) (cond : σ → ε → Prop) : σ → List ε → Prop
  | _, [] => True
  | s, e :: es => cond s e ∧ ∀ s', step s e = some s' → Guarded step cond s' es

/-- `good` holds in every state of the run, the first and the last included. -/
def Always (step : σ → ε → Option σ) (good : σ → Prop) : σ → List ε → Prop
  | s, [] => good s
  | s, e :: es => good s ∧ ∀ s', step s e = some s' → Always step good s' es

/-- A condition on the events alone. -/
theorem guarded_of_forall {cond : ε → Prop} {s : σ} {es : List ε} (each : ∀ e ∈ es, cond e) :
    Guarded step (fun _ e => cond e) s es := by
  induction es generalizing s with
  | nil => trivial
  | cons e es ih =>
    obtain ⟨now, later⟩ := List.forall_mem_cons.mp each
    exact ⟨now, fun s' _ => ih later⟩

/-- An enabled event has one outcome, so a run that starts with it goes on from there. -/
theorem guarded_cons_iff {cond : σ → ε → Prop} {s s' : σ} {e : ε} {es : List ε}
    (first : step s e = some s') :
    Guarded step cond s (e :: es) ↔ cond s e ∧ Guarded step cond s' es := by
  simp [Guarded, first]

theorem always_cons_iff {good : σ → Prop} {s s' : σ} {e : ε} {es : List ε}
    (first : step s e = some s') :
    Always step good s (e :: es) ↔ good s ∧ Always step good s' es := by
  simp [Always, first]

/-- Along a run that can be computed, a condition that can be decided is decided. -/
instance decidableGuarded {cond : σ → ε → Prop} [∀ s e, Decidable (cond s e)] :
    (s : σ) → (es : List ε) → Decidable (Guarded step cond s es)
  | _, [] => isTrue trivial
  | s, e :: es =>
    match first : step s e with
    | none => decidable_of_iff (cond s e) (by simp [Guarded, first])
    | some s' =>
      have : Decidable (Guarded step cond s' es) := decidableGuarded s' es
      decidable_of_iff (cond s e ∧ Guarded step cond s' es) (guarded_cons_iff first).symm

/-- The same for what should hold in every state. -/
instance decidableAlways {good : σ → Prop} [∀ s, Decidable (good s)] :
    (s : σ) → (es : List ε) → Decidable (Always step good s es)
  | s, [] => inferInstanceAs (Decidable (good s))
  | s, e :: es =>
    match first : step s e with
    | none => decidable_of_iff (good s) (by simp [Always, first])
    | some s' =>
      have : Decidable (Always step good s' es) := decidableAlways s' es
      decidable_of_iff (good s ∧ Always step good s' es) (always_cons_iff first).symm

/-- The rest of a guarded run is guarded. -/
theorem Guarded.rest {cond : σ → ε → Prop} {s t : σ} {es fs : List ε}
    (guarded : Guarded step cond s (es ++ fs)) (ran : run step s es = some t) :
    Guarded step cond t fs := by
  induction es generalizing s with
  | nil =>
    cases ran
    exact guarded
  | cons e es ih =>
    obtain ⟨s', first, rest⟩ := run_cons_eq_some.mp ran
    exact ih (guarded.2 s' first) rest

/-- A guarded run goes on with a step that meets the condition. -/
theorem Guarded.concat {cond : σ → ε → Prop} {s t : σ} {es : List ε} {e : ε}
    (guarded : Guarded step cond s es) (ran : run step s es = some t) (last : cond t e) :
    Guarded step cond s (es ++ [e]) := by
  induction es generalizing s with
  | nil =>
    cases ran
    exact ⟨last, fun _ _ => trivial⟩
  | cons e' es ih =>
    obtain ⟨s', first, rest⟩ := run_cons_eq_some.mp ran
    exact (guarded_cons_iff first).mpr ⟨guarded.1, ih (guarded.2 s' first) rest⟩

/-- Two conditions that the steps of a run meet. -/
theorem Guarded.and {one two : σ → ε → Prop} {s : σ} {es : List ε}
    (guarded : Guarded step one s es) (also : Guarded step two s es) :
    Guarded step (fun s e => one s e ∧ two s e) s es := by
  induction es generalizing s with
  | nil => trivial
  | cons e es ih =>
    obtain ⟨now, later⟩ := guarded
    obtain ⟨now', later'⟩ := also
    exact ⟨⟨now, now'⟩, fun s' first => ih (later s' first) (later' s' first)⟩

theorem Always.first {good : σ → Prop} {s : σ} {es : List ε}
    (always : Always step good s es) : good s := by
  cases es with
  | nil => exact always
  | cons e es => exact always.1

theorem Always.imp {good weaker : σ → Prop} (implies : ∀ s, good s → weaker s) {s : σ}
    {es : List ε} (always : Always step good s es) : Always step weaker s es := by
  induction es generalizing s with
  | nil => exact implies s always
  | cons e es ih => exact ⟨implies s always.1, fun s' first => ih (always.2 s' first)⟩

theorem Always.and {one two : σ → Prop} {s : σ} {es : List ε} (always : Always step one s es)
    (also : Always step two s es) : Always step (fun s => one s ∧ two s) s es := by
  induction es generalizing s with
  | nil => exact ⟨always, also⟩
  | cons e es ih =>
    exact ⟨⟨always.1, also.1⟩, fun s' first => ih (always.2 s' first) (also.2 s' first)⟩

/-- `Always` is about the states that the prefixes of the run reach. -/
theorem always_iff_prefixes {good : σ → Prop} {s : σ} {es : List ε} :
    Always step good s es ↔
      ∀ fs gs t, es = fs ++ gs → run step s fs = some t → good t := by
  induction es generalizing s with
  | nil =>
    constructor
    · intro always fs gs t split ran
      obtain ⟨rfl, rfl⟩ := List.append_eq_nil_iff.mp split.symm
      cases ran
      exact always
    · intro reached
      exact reached [] [] s rfl rfl
  | cons e es ih =>
    constructor
    · rintro ⟨now, later⟩ fs gs t split ran
      cases fs with
      | nil =>
        cases ran
        exact now
      | cons f fs =>
        obtain ⟨rfl, tails⟩ := List.cons.inj split
        obtain ⟨s', first, rest⟩ := run_cons_eq_some.mp ran
        exact ih.mp (later s' first) fs gs t tails rest
    · intro reached
      refine ⟨reached [] (e :: es) s rfl rfl, fun s' first => ih.mpr ?_⟩
      intro fs gs t split ran
      exact reached (e :: fs) gs t (by rw [split]; rfl) (run_cons_eq_some.mpr ⟨s', first, ran⟩)

/-- What every step keeps holds in every state of every run. -/
theorem always_of_keep {good : σ → Prop}
    (keep : ∀ s e s', good s → step s e = some s' → good s') {s : σ} (es : List ε)
    (initial : good s) : Always step good s es := by
  induction es generalizing s with
  | nil => exact initial
  | cons e es ih => exact ⟨initial, fun s' first => ih (keep s e s' initial first)⟩

/-- What each guarded step keeps holds in every state of a guarded run. -/
theorem always_of_guarded {good : σ → Prop} {cond : σ → ε → Prop}
    (keep : ∀ s e s', good s → cond s e → step s e = some s' → good s')
    {s : σ} {es : List ε} (initial : good s) (guarded : Guarded step cond s es) :
    Always step good s es := by
  induction es generalizing s with
  | nil => exact initial
  | cons e es ih =>
    obtain ⟨now, later⟩ := guarded
    exact ⟨initial, fun s' first => ih (keep s e s' initial now first) (later s' first)⟩

/-- What each guarded step keeps, and what follows from it, holds at every step of a guarded
run. -/
theorem guarded_of_guarded {inv : σ → Prop} {cond weaker : σ → ε → Prop}
    (keep : ∀ s e s', inv s → cond s e → step s e = some s' → inv s')
    (gives : ∀ s e, inv s → cond s e → weaker s e) {s : σ} {es : List ε} (initial : inv s)
    (guarded : Guarded step cond s es) : Guarded step weaker s es := by
  induction es generalizing s with
  | nil => trivial
  | cons e es ih =>
    obtain ⟨now, later⟩ := guarded
    refine ⟨gives s e initial now, fun s' first => ?_⟩
    exact ih (keep s e s' initial now first) (later s' first)

/-- When a step keeps `good` exactly if it meets `cond`, `good` holds along an
enabled run exactly if all its steps meet `cond`. `aux` is what holds anyway in a run whose steps
are as `given`. -/
theorem always_iff_guarded_of_guarded {aux good : σ → Prop} {given cond : σ → ε → Prop}
    (keepAux : ∀ s e s', aux s → given s e → step s e = some s' → aux s')
    (exact : ∀ s e s', aux s → good s → step s e = some s' → (good s' ↔ cond s e))
    {s t : σ} {es : List ε} (base : aux s) (initial : good s) (guarded : Guarded step given s es)
    (ran : run step s es = some t) :
    Always step good s es ↔ Guarded step cond s es := by
  induction es generalizing s with
  | nil => exact ⟨fun _ => trivial, fun _ => initial⟩
  | cons e es ih =>
    obtain ⟨s', first, rest⟩ := run_cons_eq_some.mp ran
    obtain ⟨here, onward⟩ := (guarded_cons_iff first).mp guarded
    have next := exact s e s' base initial first
    -- the tail of the run can be compared only once `good` is known after the first step
    have tail := fun held => ih (keepAux s e s' base here first) held onward rest
    rw [always_cons_iff first, guarded_cons_iff first]
    constructor
    · rintro ⟨-, along⟩
      exact ⟨next.mp along.first, (tail along.first).mp along⟩
    · rintro ⟨now, later⟩
      exact ⟨initial, (tail (next.mpr now)).mpr later⟩

/-- The same when `aux` holds in every run. -/
theorem always_iff_guarded {aux good : σ → Prop} {cond : σ → ε → Prop}
    (keepAux : ∀ s e s', aux s → step s e = some s' → aux s')
    (exact : ∀ s e s', aux s → good s → step s e = some s' → (good s' ↔ cond s e))
    {s t : σ} {es : List ε} (base : aux s) (initial : good s) (ran : run step s es = some t) :
    Always step good s es ↔ Guarded step cond s es := by
  have all (s : σ) (es : List ε) : Guarded step (fun _ _ => True) s es := by
    induction es generalizing s with
    | nil => trivial
    | cons e es ih => exact ⟨trivial, fun s' _ => ih s'⟩
  exact always_iff_guarded_of_guarded (fun s e s' held _ => keepAux s e s' held) exact base initial
    (all s es) ran

/-- The same when nothing else is needed. -/
theorem always_iff_guarded_of_keep_iff {good : σ → Prop} {cond : σ → ε → Prop}
    (keep : ∀ s e s', good s → step s e = some s' → (good s' ↔ cond s e))
    {s t : σ} {es : List ε} (initial : good s) (ran : run step s es = some t) :
    Always step good s es ↔ Guarded step cond s es := by
  have keepAux : ∀ s e s', (fun _ : σ => True) s → step s e = some s' → (fun _ : σ => True) s' :=
    fun _ _ _ always _ => always
  exact always_iff_guarded keepAux (fun s e s' _ => keep s e s') trivial initial ran

/-- Conditions that agree wherever an invariant holds guard the same runs. -/
theorem guarded_iff_of_invariant {inv : σ → Prop} {one two : σ → ε → Prop}
    (keep : ∀ s e s', inv s → step s e = some s' → inv s')
    (agree : ∀ s e, inv s → (one s e ↔ two s e)) {s : σ} {es : List ε} (initial : inv s) :
    Guarded step one s es ↔ Guarded step two s es := by
  induction es generalizing s with
  | nil => exact Iff.rfl
  | cons e es ih =>
    apply and_congr (agree s e initial)
    apply forall_congr'
    intro s'
    apply forall_congr'
    intro first
    exact ih (keep s e s' initial first)

end MCGate.Machine

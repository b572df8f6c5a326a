import MCGate.Lib.Reader

/-!
# Decoders that what follows does not change

A decoder takes a value off the front of a stream, and leaves the rest. It is `Stable` when a
value that it finds at the front of a stream is found in every longer stream too, with more left
over: then two streams of which one is a front of the other cannot be decoded to different values
(`Stable.agree`), whatever part of a stream has arrived when it is decoded. Unlike a `Local`
reader, a stable decoder may look at tokens that it leaves.
-/
namespace MCGate

/-- A decoder of streams of `τ`. -/
abbrev Decoder (τ α : Type) := StateT (List τ) Option α

namespace Decoder

variable {τ α β : Type}

def Stable (d : Decoder τ α) : Prop :=
  ∀ stream value rest, d.run stream = some (value, rest) →
    ∀ more, d.run (stream ++ more) = some (value, rest ++ more)

theorem stable_pure (value : α) : Stable (pure value : Decoder τ α) := by
  intro stream value' rest decoded more
  rw [StateT.run_pure] at decoded ⊢
  cases decoded
  rfl

/-- Values decoded one after the other. -/
theorem run_bind_eq_some {d : Decoder τ α} {f : α → Decoder τ β} {stream rest : List τ}
    {value : β} :
    (d >>= f).run stream = some (value, rest) ↔
      ∃ first middle, d.run stream = some (first, middle) ∧
        (f first).run middle = some (value, rest) := by
  rw [StateT.run_bind, Option.bind_eq_bind, Option.bind_eq_some_iff]
  exact Prod.exists

theorem Stable.bind {d : Decoder τ α} {f : α → Decoder τ β} (stable : Stable d)
    (then_stable : ∀ value, Stable (f value)) : Stable (d >>= f) := by
  intro stream value rest decoded more
  obtain ⟨first, middle, front, back⟩ := run_bind_eq_some.mp decoded
  apply run_bind_eq_some.mpr
  exact ⟨first, middle ++ more, stable _ _ _ front more, then_stable first _ _ _ back more⟩

/-- The same front is decoded to the same value. -/
theorem Stable.agree {d : Decoder τ α} (stable : Stable d) {short long rest rest' : List τ}
    {value value' : α} (front : short <+: long) (one : d.run short = some (value, rest))
    (other : d.run long = some (value', rest')) : value = value' ∧ rest <+: rest' := by
  obtain ⟨more, rfl⟩ := front
  rw [stable _ _ _ one more] at other
  cases other
  exact ⟨rfl, List.prefix_append _ _⟩

end Decoder

end MCGate

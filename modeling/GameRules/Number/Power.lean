/-!
# Powers

Bounds such as `2 ^ 64` are powers with a natural exponent. The core library has such powers and
Mathlib has others, which are equal but not the same term. Here those of the core library come first,
so a bound means the same in every module.
-/

namespace GameRules

/-- Powers with a natural exponent are those of the core library. -/
@[default_instance 20000]
instance (priority := 2000) corePower {α : Type} [NatPow α] : Pow α Nat := instPowNat

end GameRules

import Mathlib.Algebra.BigOperators.Group.List.Basic
import Mathlib.Algebra.Ring.Nat

/-!
# Tries

Tries one after another, up to the first that succeeds. A try that fails leaves less to be done
than there was before, by what the try is worth; so tries that are worth more than what is to be
done do not all fail.
-/

set_option autoImplicit false

namespace CloudStore.Library

variable {ι σ : Type}

variable {attempt : ι → σ → Bool × σ} {Ok : ι → Prop} {worth : ι → ℕ} {Left : ℕ → σ → Prop}
  {Done : σ → Prop}

end CloudStore.Library

/- SV300/Library/Literals
   digest: The sizes behind numeric literals, each with one named proof of its side condition. -/

import Mathlib.Algebra.GroupWithZero.Nat
import Mathlib.Data.Nat.Init

set_option autoImplicit false
set_option relaxedAutoImplicit false

namespace SV300.Library.Literals

/-!
A literal of `Fin n` needs `n` to be positive, and a literal of a semiring needs to be at least
two.  A named proof makes it one term wherever it stands, while instance search would build one
anew from the predecessor of each size.
-/

instance twoNeZero : NeZero 2 := ⟨Nat.succ_ne_zero 1⟩
instance threeNeZero : NeZero 3 := ⟨Nat.succ_ne_zero 2⟩
instance fourNeZero : NeZero 4 := ⟨Nat.succ_ne_zero 3⟩
instance fiveNeZero : NeZero 5 := ⟨Nat.succ_ne_zero 4⟩
instance sixNeZero : NeZero 6 := ⟨Nat.succ_ne_zero 5⟩
instance thirtyTwoNeZero : NeZero 32 := ⟨Nat.succ_ne_zero 31⟩
instance ninetySixNeZero : NeZero 96 := ⟨Nat.succ_ne_zero 95⟩

instance twoAtLeastTwo : Nat.AtLeastTwo 2 := ⟨Nat.le_refl 2⟩
instance tenThousandAtLeastTwo : Nat.AtLeastTwo 10000 := ⟨by decide⟩

end SV300.Library.Literals

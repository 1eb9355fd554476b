/-!
Powers of the two bases that numbers are made of.
-/
namespace StateCheck
set_option autoImplicit false

def pow2 (k : Nat) : Nat := Nat.pow 2 k

def pow10 (k : Nat) : Nat := Nat.pow 10 k

end StateCheck

/-!
# Which arithmetic is meant

Powers, zero and the comparison of byte strings are those that come with the language. They are
named here, so that a library of algebra that has its own does not change what a definition says.
-/

namespace Screencast

@[default_instance 20000]
instance (priority := high) natPower : Pow Nat Nat := instPowNat

@[default_instance 19000]
instance (priority := high) intPower : Pow Int Nat := instPowNat

instance (priority := high) natZero : Zero Nat := Zero.ofOfNat0

instance (priority := high) decidableEqBytes : DecidableEq ByteArray := ByteArray.instDecidableEq

end Screencast

/-!
# Standard operations on numbers

Powers and sums of numbers are those of the core language, whatever other
structures on numbers are in sight.
-/

namespace TenantSql.Number

@[default_instance 20000]
instance natPow : Pow Nat Nat := instPowNat

@[default_instance 20000]
instance intPow : Pow Int Nat := instPowNat

instance natZero : Zero Nat := Zero.ofOfNat0

instance intZero : Zero Int := Zero.ofOfNat0

end TenantSql.Number

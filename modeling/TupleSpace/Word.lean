/-!
# Machine words

The bounds of numbers that have to fit into 64 bits.
-/

namespace TupleSpace.Word

/-- The first natural number that does not fit into 64 bits, `2 ^ 64`. -/
def limit : Nat := 18446744073709551616

/-- The first natural number that does not fit into 64 bits with a sign, `2 ^ 63`. -/
def signedLimit : Nat := 9223372036854775808

end TupleSpace.Word

namespace ServiceCompiler.Number

/-!
# Words of 64 bits

The bounds of whole numbers that are kept in 64 bits, with and without a sign.
-/

/-- The number of values of 64 bits. -/
def wordSize : Nat := 0x10000000000000000

/-- The least natural number that does not fit into 64 bits with a sign. -/
def signedLimit : Nat := 0x8000000000000000

/-- Whether a number fits into 64 bits with a sign. -/
def fitsSigned (n : Int) : Bool := decide (-(signedLimit : Int) ≤ n) && decide (n < signedLimit)

end ServiceCompiler.Number

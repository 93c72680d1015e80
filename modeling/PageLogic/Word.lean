/-!
The whole numbers of 64 bits, with and without sign.
-/
namespace PageLogic.Word

/-- One more than the largest number without sign. -/
def limit : Nat := 0x10000000000000000

/-- One more than the largest number with sign; the least of them is its negation. -/
def signedLimit : Nat := 0x8000000000000000

/-- The nearest number with sign. -/
def clamp (i : Int) : Int :=
  max (-(signedLimit : Int)) (min ((signedLimit : Int) - 1) i)

end PageLogic.Word

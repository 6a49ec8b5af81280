/-!
# Whole numbers of 64 bits

The ranges of signed and unsigned whole numbers of 64 bits.
-/

namespace Switchboard.Width

def leastLong : Int := -9223372036854775808

def greatestLong : Int := 9223372036854775807

/-- One past the greatest unsigned number. -/
def wordLimit : Nat := 18446744073709551616

def isLong (n : Int) : Bool := leastLong ≤ n && n ≤ greatestLong

def isWord (n : Int) : Bool := 0 ≤ n && n < wordLimit

end Switchboard.Width

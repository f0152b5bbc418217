/-! Whole numbers of 64 bits. -/

namespace TableScan

abbrev wordBound : Nat := 9223372036854775808

def isWord (n : Int) : Bool := -(wordBound : Int) ≤ n && n < (wordBound : Int)

end TableScan

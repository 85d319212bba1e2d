/-!
# About the program

What the program tells of itself.
-/

namespace ExprCalc

def programName : String := "rpncalc"

def programVersion : String := "1.0.0"

/-- An expression to show to users and to check the calculator with. -/
def sampleExpression : String := "5 ** (4/2)"

end ExprCalc

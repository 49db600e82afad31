/-! The characters of lexemes. Letters and digits are those of ASCII alone. -/

namespace LCode.Lexeme

def isBlank (c : Char) : Bool := c = ' ' || c = '\t' || c = '\x0c'

def isWordStart (c : Char) : Bool := c.isAlpha || c = '_'

def isWordPart (c : Char) : Bool := c.isAlphanum || c = '_'

def isNumeralPart (c : Char) : Bool := c.isAlphanum || c = '_' || c = '.'

def isExponentMark (c : Char) : Bool := c = 'e' || c = 'E'

def isSign (c : Char) : Bool := c = '+' || c = '-'

def isFloatSuffix (c : Char) : Bool := c = 'f' || c = 'F' || c = 'd' || c = 'D'

end LCode.Lexeme

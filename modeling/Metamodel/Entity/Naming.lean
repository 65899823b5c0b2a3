import Metamodel.Entity.Basic
import Metamodel.Text.CaseMap

/-!
# Names of properties and their members

Property names are read off getters (`propertyOfGetter?`) and getters and setters are named for
properties (`Property.getterName`, `Property.setterName`); constants are named by
`upperUnderscore`.
-/

namespace Metamodel.Naming

/-- Whether a character, taken alone, is a capital that has a small letter. Characters beyond the
basic plane have no case of their own here. -/
def isCapital (c : Char) : Bool :=
  c.toNat < 0x10000 && Text.upperChar c == [c] && Text.lowerChar c != [c]

/-- What follows a word in front of a text. -/
def after? (word text : List Char) : Option (List Char) :=
  if word.isPrefixOf text then some (text.drop word.length) else none

/-- The property that a capitalized name behind `get` or `is` stands for. -/
def uncapitalized? : List Char → Option (List Char)
  | [] => none
  | c :: cs => if isCapital c then some (Text.lowerChar c ++ cs) else none

/-- The property that a getter's name stands for. -/
def propertyOfGetter? (method : String) : Option String :=
  (["get".toList, "is".toList].findSome? fun word =>
    (after? word method.toList).bind uncapitalized?).map String.ofList

/-- The text with its first character as a capital; characters beyond the basic plane stay. -/
def capitalizeChars : List Char → List Char
  | [] => []
  | c :: cs => if c.toNat < 0x10000 then Text.upperChar c ++ cs else c :: cs

/-- The name with its first character as a capital. -/
def capitalize (name : String) : String :=
  String.ofList (capitalizeChars name.toList)

/-- The name without the first of the prefixes that it begins with and is longer than. -/
def removePrefixes (name : String) (prefixes : List String) : String :=
  match prefixes.findSome? fun p =>
      (after? p.toList name.toList).filter (!·.isEmpty) with
  | some rest => String.ofList rest
  | none => name

/-- A small letter or a digit. -/
def isLowerOrDigit (c : Char) : Bool :=
  c.isLower || c.isDigit

/-- Puts an underscore between a small letter or digit and the capital behind it. -/
def breakBeforeCapital : List Char → List Char
  | a :: b :: rest =>
    if isLowerOrDigit a && b.isUpper then a :: '_' :: breakBeforeCapital (b :: rest)
    else a :: breakBeforeCapital (b :: rest)
  | cs => cs

/-- Puts an underscore between a capital and the capital behind it that begins a word. -/
def breakAfterCapitals : List Char → List Char
  | a :: b :: c :: rest =>
    if a.isUpper && b.isUpper && c.isLower then a :: '_' :: breakAfterCapitals (b :: c :: rest)
    else a :: breakAfterCapitals (b :: c :: rest)
  | cs => cs

/-- The name as a constant: `emailAddress` gives `EMAIL_ADDRESS`, `homeURL` gives `HOME_URL`. -/
def upperUnderscore (name : String) : String :=
  String.ofList (Text.upper (breakAfterCapitals (breakBeforeCapital name.toList)))

/-- Whether an identifier can start with the character. -/
def isIdentifierStart (c : Char) : Bool :=
  c.isAlpha || c == '_' || c == '$'

/-- Whether an identifier can go on with the character. -/
def isIdentifierChar (c : Char) : Bool :=
  c.isAlphanum || c == '_' || c == '$'

/-- Whether the text is an identifier of the basic alphabet. -/
def isIdentifier (name : String) : Bool :=
  match name.toList with
  | [] => false
  | c :: cs => isIdentifierStart c && cs.all isIdentifierChar

end Metamodel.Naming

namespace Metamodel

/-- Whether values of the type are truth values. -/
def TypeRef.isBoolean (t : TypeRef) : Bool :=
  t.kind == .primitive && t.name == "boolean"

namespace Property

/-- The name of a getter for a property of the given name and type. -/
def getterNameFor (name : String) (type : TypeRef) (style : NameStyle) : String :=
  match style with
  | .fluent | .none => name
  | .bean | .fluentBean => (if type.isBoolean then "is" else "get") ++ Naming.capitalize name

/-- The name of a setter for a property of the given name. -/
def setterNameFor (name : String) (style : NameStyle) : String :=
  match style with
  | .fluent | .none => name
  | .bean | .fluentBean => "set" ++ Naming.capitalize name

/-- The name of the field that tracks a property's state. -/
def stateFieldFor (name : String) : String :=
  "$" ++ name ++ "_state"

def getterName (p : Property) (style : NameStyle) : String :=
  getterNameFor p.name p.type style

def setterName (p : Property) (style : NameStyle) : String :=
  setterNameFor p.name style

def stateField (p : Property) : String :=
  stateFieldFor p.name

end Property

end Metamodel

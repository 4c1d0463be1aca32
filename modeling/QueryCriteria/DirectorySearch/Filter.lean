/-!
# Directory filters

A filter as a tree and its text, in which every node stands in parentheses with its connective in
front. A filter grows by wrapping: what there is becomes the left side of a new group.
-/

namespace QueryCriteria.DirectorySearch

/-- The connective of a group. -/
inductive Connective where
  | and
  | or
deriving Repr, DecidableEq

/-- What a leaf asserts of an attribute and a value. -/
inductive Assertion where
  | equal
  | notEqual
  | greaterOrEqual
deriving Repr, DecidableEq

/-- A filter. -/
inductive Filter where
  /-- The entry has all of these object classes. -/
  | objectClasses (classes : List String)
  | compare (attributeName : String) (assertion : Assertion) (value : String)
  | group (connective : Connective) (left right : Filter)
deriving Repr, DecidableEq

/-- The opening of a group. -/
def Connective.opener : Connective → List Char
  | .and => ['(', '&']
  | .or => ['(', '|']

/-- The mark in front of the attribute. -/
def Assertion.negation : Assertion → List Char
  | .notEqual => ['!']
  | _ => []

/-- The sign between attribute and value. -/
def Assertion.sign : Assertion → List Char
  | .greaterOrEqual => ['>', '=']
  | _ => ['=']

/-- One character of a value. Those that shape a filter are written as a backslash and their code
in two digits; the star stays, since it is the wildcard. -/
def escapeChar (c : Char) : List Char :=
  if c = '\\' then ['\\', '5', 'c']
  else if c = '(' then ['\\', '2', '8']
  else if c = ')' then ['\\', '2', '9']
  else if c = '\x00' then ['\\', '0', '0']
  else [c]

/-- A value as a filter holds it. -/
def escape (value : String) : List Char := value.toList.flatMap escapeChar

namespace Filter

/-- The filter as the left side of a group. -/
def wrap (left : Filter) (connective : Connective) (right : Filter) : Filter :=
  .group connective left right

/-- The leaf for one object class. -/
def classChars (name : String) : List Char := "(objectclass=".toList ++ escape name ++ [')']

/-- The characters of a filter. Object classes form a group only when there are several. -/
def chars : Filter → List Char
  | .objectClasses classes =>
    if 1 < classes.length then '(' :: '&' :: classes.flatMap classChars ++ [')']
    else classes.flatMap classChars
  | .compare attributeName assertion value =>
    '(' :: assertion.negation ++ attributeName.toList ++ assertion.sign ++ escape value ++ [')']
  | .group connective left right => connective.opener ++ left.chars ++ right.chars ++ [')']

/-- The text of a filter. -/
def text (f : Filter) : String := String.ofList f.chars

end Filter

end QueryCriteria.DirectorySearch

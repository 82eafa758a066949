import Aspects.Text.Regex.Parser

/-!
# Terms

How a scenario describes types, methods, values and tests. Types are described by name
throughout: a name that a step gave to a type, or the name of a built-in one.
-/

namespace Aspects.Scenario

/-- A description of a method. -/
inductive MethodTerm where
  /-- The method with these parts. -/
  | given (declaring name : String) (params : List String) (result : String)
  /-- The method of the type that has the name. -/
  | named (type name : String)
  /-- The method of the type that has the name and the parameters. -/
  | keyed (type name : String) (params : List String)

/-- What a call is to run: a method of the object with a name, or a given method. -/
inductive Callee where
  | named (name : String)
  | method (m : MethodTerm)

/-- A description of a value. Some have a meaning in the body of a routine only. -/
inductive Term where
  | null
  | int (n : Int64)
  | text (s : String)
  | flag (b : Bool)
  /-- The object with the name. -/
  | object (id : String)
  /-- A new object of the type that holds a number. -/
  | intOf (type : String) (n : Int64)
  /-- A new object of the type that holds a text. -/
  | textOf (type : String) (s : String)
  /-- A new object of the type with a state. -/
  | entityOf (type label : String) (state : Int64)
  /-- The argument at a place. -/
  | argument (i : Nat)
  | this
  | target
  /-- The value that the body got last. -/
  | last

/-- The three sorts of values that arguments are read as. -/
inductive Scalar where
  | int
  | text
  | flag
  deriving DecidableEq

/-- A test of the arguments of a call. -/
inductive ArgumentTest where
  | const (b : Bool)
  /-- There are so many arguments. -/
  | count (n : Nat)
  /-- There is an argument at the place, and it is a value. -/
  | present (i : Nat)
  /-- The argument is a number greater than the given one. -/
  | greater (i : Nat) (n : Int64)
  /-- The argument is the text. -/
  | equals (i : Nat) (s : String)
  /-- The argument is an instance of the type. -/
  | isOf (i : Nat) (type : String)
  /-- The same test, told under a label. -/
  | told (label : String) (t : ArgumentTest)

/-- A test of a method with a target type. -/
inductive MethodTest where
  | const (b : Bool)
  /-- The test cannot be carried out. -/
  | refused (reason : String)
  /-- The declaring type has the name. -/
  | declaring (name : String)
  /-- The target type has the name. -/
  | target (name : String)
  /-- The type of the result has the name. -/
  | result (name : String)
  /-- The method has the name; can be asked about methods of interfaces only. -/
  | onInterface (name : String)
  /-- The same test, told under a label. -/
  | told (label : String) (t : MethodTest)

/-- A description of a pointcut expression. -/
inductive ExprTerm where
  | all
  | type (pattern : String)
  | method (pattern : String)
  | execution (typePattern methodPattern : String)
  /-- The expression that a text stands for. -/
  | parsed (text : String)
  | typeRegex (r : Text.Regex)
  | methodRegex (r : Text.Regex)
  | target (type : String)
  | args (types : List String)
  | argsMatching (t : ArgumentTest)
  | custom (t : MethodTest)
  | and (a b : ExprTerm)
  | or (a b : ExprTerm)
  | not (a : ExprTerm)

end Aspects.Scenario

/-!
# Keyword types

The type keywords of declaration files.
-/

namespace InteropBindings

/-- A type named by a keyword. -/
inductive Keyword
  | string | number | boolean | void | any | object | unknown | never | undefined | null | symbol | bigint | intrinsic
deriving DecidableEq, Repr

/-- The spelling of a keyword. -/
def Keyword.name : Keyword → String
  | .string => "string"
  | .number => "number"
  | .boolean => "boolean"
  | .void => "void"
  | .any => "any"
  | .object => "object"
  | .unknown => "unknown"
  | .never => "never"
  | .undefined => "undefined"
  | .null => "null"
  | .symbol => "symbol"
  | .bigint => "bigint"
  | .intrinsic => "intrinsic"

/-- All keywords. -/
def Keyword.all : List Keyword :=
  [.string, .number, .boolean, .void, .any, .object, .unknown, .never, .undefined, .null, .symbol, .bigint, .intrinsic]

/-- The keyword with a given spelling. -/
def Keyword.ofName? (s : String) : Option Keyword := Keyword.all.find? (·.name == s)

theorem Keyword.ofName?_name (k : Keyword) : Keyword.ofName? k.name = some k := by
  cases k <;> decide

end InteropBindings

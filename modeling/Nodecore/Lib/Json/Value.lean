/-
# JSON values

A JSON text as a value.  An object is the list of its members in the order they
stand in the text, repeated names included; looking a name up finds the first
member that has it.  A number is kept as its literal.
-/

namespace Nodecore.Lib

inductive JsonValue
  | null
  | bool (value : Bool)
  | number (literal : String)
  | string (text : String)
  | array (items : List JsonValue)
  | object (members : List (String × JsonValue))

namespace JsonValue

def valuesOf (name : String) : JsonValue → List JsonValue
  | object members => (members.filter fun entry => entry.1 = name).map (·.2)
  | _ => []

/-- The value an object holds under a name: that of the first such member. -/
def member? (name : String) (value : JsonValue) : Option JsonValue := (valuesOf name value).head?

def item? (index : Nat) : JsonValue → Option JsonValue
  | array items => items[index]?
  | _ => none

/-- One step of a path into a value. -/
inductive PathStep
  | key (name : String)
  | index (index : Nat)
  deriving DecidableEq, Repr

def resolve : List PathStep → JsonValue → Option JsonValue
  | [], value => some value
  | .key name :: path, value => (value.member? name).bind (resolve path)
  | .index index :: path, value => (value.item? index).bind (resolve path)

theorem resolve_append (first second : List PathStep) (value : JsonValue) :
    resolve (first ++ second) value = (resolve first value).bind (resolve second) := by
  induction first generalizing value with
  | nil => rfl
  | cons step path ih =>
    cases step with
    | key name | index index =>
      rw [List.cons_append, resolve, resolve, Option.bind_assoc]
      exact congrArg _ (funext ih)

end JsonValue

end Nodecore.Lib

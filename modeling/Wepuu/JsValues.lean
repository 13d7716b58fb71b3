import Wepuu.NodeApi

/-! Values of unknown type, as JSON.parse and the provider hand them over. -/
namespace Wepuu.JsValues
open NodeApi

/- An integer that a number represents exactly, or any other number by its text. -/
inductive JsValue where
  | undefined
  | null
  | bool (value : Bool)
  | int (value : Int)
  | num (text : String)
  | str (text : String)
  | arr (items : List JsValue)
  | obj (members : List (String × JsValue))

def property (members : List (String × JsValue)) (name : String) : JsValue := (members.lookup name).getD .undefined

def JsValue.isUndefined : JsValue → Bool
  | .undefined => true
  | _ => false

def JsValue.isText (value : JsValue) (text : String) : Bool := match value with
  | .str other => other == text
  | _ => false

def stringItems : List JsValue → Option (List String)
  | [] => some []
  | .str text :: rest => (stringItems rest).map (text :: ·)
  | _ :: _ => none

/- A member of a strict object schema: a text with a check, the same made optional, an integer. -/
def textMember (check : String → Bool) (members : List (String × JsValue)) (name : String) : Option String :=
  match property members name with
  | .str text => if check text then some text else none
  | _ => none

def optionalMember {α : Type} (read : JsValue → Option α) (members : List (String × JsValue)) (name : String) :
    Option (Option α) := match property members name with
  | .undefined => some none
  | value => (read value).map some

def optionalText (check : String → Bool) (members : List (String × JsValue)) (name : String) : Option (Option String) :=
  optionalMember (fun value => match value with
    | .str text => if check text then some text else none
    | _ => none) members name

def integerMember (members : List (String × JsValue)) (name : String) : Option Int := match property members name with
  | .int value => some value
  | _ => none

def onlyMembers (known : List String) (members : List (String × JsValue)) : Bool :=
  members.all fun entry => known.contains entry.1

end Wepuu.JsValues

/-!
Values of a site configuration: texts, whole numbers, truth values, lists and records of them.
-/

namespace HeaderDocs.Site

inductive Value where
  | null
  | bool (value : Bool)
  | number (value : Int)
  | text (value : String)
  | list (items : List Value)
  | record (fields : List (String × Value))

instance : Inhabited Value :=
  ⟨.null⟩

namespace Value

/-- A value that counts as given: not empty, not zero and not false. -/
def isGiven : Value → Bool
  | null => false
  | bool value => value
  | number value => value != 0
  | text value => !value.isEmpty
  | list items => !items.isEmpty
  | record fields => !fields.isEmpty

def field? (name : String) : Value → Option Value
  | record fields => fields.lookup name
  | _ => none

def putField (name : String) (value : Value) : List (String × Value) → List (String × Value)
  | [] => [(name, value)]
  | field :: fields =>
      if field.1 = name then (name, value) :: fields else field :: putField name value fields

def withField (config : Value) (name : String) (value : Value) : Value :=
  match config with
  | record fields => record (putField name value fields)
  | other => other

def text? : Value → Option String
  | text value => some value
  | _ => none

def texts? (items : List Value) : Option (List String) :=
  items.mapM text?

end Value

end HeaderDocs.Site

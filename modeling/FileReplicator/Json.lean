import FileReplicator.DurationText

/-!
# JSON values

Values as a parser gives them, and what is read from them: the field of an object,
the elements of an array. An integer is apart from a double, as it is in the text.
-/

namespace FileReplicator.Json

open DurationText

inductive Value where
  | null
  | bool (b : Bool)
  | int (n : Int)
  | float (x : Float64)
  | str (text : String)
  | arr (items : List Value)
  | obj (fields : List (String × Value))

def insert (key : String) (value : Value) (fields : List (String × Value)) : List (String × Value) :=
  (key, value) :: fields.filter fun field => field.1 ≠ key

theorem lookup_insert (key other : String) (value : Value) (fields : List (String × Value)) :
    (insert other value fields).lookup key =
      if key = other then some value else fields.lookup key := by
  by_cases same : key = other
  · subst same
    simp [insert]
  · have apart : (key == other) = false := beq_false_of_ne same
    rw [if_neg same, insert, List.lookup_cons, apart]
    induction fields with
    | nil => rfl
    | cons field rest ih =>
        obtain ⟨name, held⟩ := field
        by_cases hit : name = other
        · have away : (key == name) = false := beq_false_of_ne (hit ▸ same)
          simpa [hit, List.lookup_cons, apart] using ih
        · cases here : key == name with
          | true => simp [List.lookup_cons, hit, here]
          | false => simpa [List.lookup_cons, hit, here] using ih

namespace Value

/-- `Value::get` with the name of a field: what is not an object has none. -/
def get (key : String) : Value → Option Value
  | obj fields => fields.lookup key
  | _ => none

def asStr : Value → Option String
  | str text => some text
  | _ => none

def asInt : Value → Option Int
  | int n => some n
  | _ => none

def asBool : Value → Option Bool
  | bool b => some b
  | _ => none

def items : Value → List Value
  | arr l => l
  | _ => []

/-- The value behind one field after the other. -/
def pointer : List String → Value → Option Value
  | [], value => some value
  | key :: rest, value => (value.get key).bind (pointer rest)

def ofNat (n : Nat) : Value := int n

def ofStrings (l : List String) : Value := arr (l.map str)

end Value

end FileReplicator.Json

/-!
# Json values

Whole numbers and doubles are different values, and the members of an object keep
the order in which their names first came.  A string may hold a half of a pair of
sixteen-bit units, which is no character.
-/

namespace GrammarWorkbench

inductive Json where
  | null
  | bool (value : Bool)
  | integer (value : Int)
  | number (value : Float)
  | string (value : String)
  | array (items : List Json)
  | object (members : List (String × Json))
  deriving Inhabited

namespace Json

/-- Set a member: a present name keeps its place, a new one goes to the end. -/
def setMember (name : String) (value : Json) : List (String × Json) → List (String × Json)
  | [] => [(name, value)]
  | (other, old) :: rest =>
      if other = name then (name, value) :: rest
      else (other, old) :: setMember name value rest

theorem lookup_setMember (name : String) (value : Json) (members : List (String × Json)) :
    (setMember name value members).lookup name = some value := by
  induction members with
  | nil => simp [setMember]
  | cons first rest ih =>
      obtain ⟨other, old⟩ := first
      by_cases same : other = name
      · simp [setMember, same]
      · have differ : (name == other) = false := by simpa using fun equal => same equal.symm
        simp [setMember, same, List.lookup_cons, differ, ih]

/-- The object of a list of members, where a later value for a name wins. -/
def ofMembers (members : List (String × Json)) : Json :=
  .object (members.foldl (fun known member => setMember member.1 member.2 known) [])

/-- The value of a member of an object. -/
def member? (value : Json) (name : String) : Option Json :=
  match value with
  | .object members => members.lookup name
  | _ => none

end Json

end GrammarWorkbench

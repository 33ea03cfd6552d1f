import Metronome.Value.Basic

namespace Metronome.Script

abbrev Scope := List (String × Value)

namespace Scope

def get? (name : String) : Scope → Option Value
  | [] => none
  | (held, value) :: rest => if held = name then some value else get? name rest

def put (name : String) (value : Value) : Scope → Scope
  | [] => [(name, value)]
  | (held, old) :: rest =>
    if held = name then (name, value) :: rest else (held, old) :: put name value rest

/-- The scope of a call; of equal names the last one counts. -/
def ofArguments (names : List String) (values : List Value) : Scope :=
  (names.zip values).foldl (fun scope (name, value) => scope.put name value) []

theorem get?_put (name other : String) (value : Value) (scope : Scope) :
    get? other (scope.put name value) = if name = other then some value else get? other scope := by
  induction scope with
  | nil => simp [put, get?]
  | cons first rest ih =>
    obtain ⟨held, old⟩ := first
    by_cases same : held = name
    · subst same; simp [put, get?]; split <;> rfl
    · by_cases found : held = other
      · subst found
        simp [put, get?, same, Ne.symm same]
      · simp [put, get?, same, found, ih]

end Scope

end Metronome.Script

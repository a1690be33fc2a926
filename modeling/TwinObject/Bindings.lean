/-
Names bound to values, in the order in which they were first bound.
-/

namespace TwinObject

/-- An association list in which every name occurs once. -/
abbrev Bindings (α : Type) := List (String × α)

namespace Bindings

variable {α : Type}

def get? (b : Bindings α) (name : String) : Option α :=
  b.lookup name

/-- Bind a name: a bound name keeps its place, a new one goes to the end. -/
def put (name : String) (v : α) : Bindings α → Bindings α
  | [] => [(name, v)]
  | (n, old) :: rest => if n = name then (n, v) :: rest else (n, old) :: put name v rest

def erase (name : String) (b : Bindings α) : Bindings α :=
  b.filter (fun entry => entry.1 != name)

theorem get?_cons (name n : String) (v : α) (b : Bindings α) :
    get? ((n, v) :: b) name = if name = n then some v else b.get? name := by
  by_cases h : name = n
  · simp [get?, h]
  · have : (name == n) = false := by simpa using h
    simp [get?, List.lookup_cons, h, this]

theorem get?_put (name other : String) (v : α) (b : Bindings α) :
    (put name v b).get? other = if other = name then some v else b.get? other := by
  induction b with
  | nil => exact get?_cons other name v []
  | cons entry rest ih =>
      obtain ⟨n, old⟩ := entry
      by_cases hn : n = name
      · subst hn
        by_cases h : other = n <;> simp [put, get?_cons, h]
      · by_cases h : other = n
        · subst h
          simp [put, get?_cons, hn]
        · simp [put, get?_cons, hn, h, ih]

theorem get?_erase (name other : String) (b : Bindings α) :
    (erase name b).get? other = if other = name then none else b.get? other := by
  induction b with
  | nil => simp [erase, get?]
  | cons entry rest ih =>
      obtain ⟨n, old⟩ := entry
      by_cases hn : n = name
      · subst hn
        have : erase n ((n, old) :: rest) = erase n rest := by simp [erase]
        rw [this, ih, get?_cons]
        by_cases h : other = n <;> simp [h]
      · have : erase name ((n, old) :: rest) = (n, old) :: erase name rest := by
          simp [erase, hn]
        rw [this, get?_cons, get?_cons, ih]
        by_cases h : other = n
        · subst h
          simp [hn]
        · simp [h]

end Bindings

end TwinObject

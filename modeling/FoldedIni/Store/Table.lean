/-!
# Tables

A table binds names to contents and keeps them in the order in which they were
bound.
-/

set_option autoImplicit false

namespace FoldedIni

/-- Bindings of names to contents. -/
structure Table (κ α : Type) where
  entries : List (κ × α)

namespace Table

variable {κ α : Type} [DecidableEq κ]

def empty : Table κ α := ⟨[]⟩

/-- Looks a name up in a list of bindings. -/
def find? (k : κ) : List (κ × α) → Option α
  | [] => none
  | (k₁, a) :: rest => if k₁ = k then some a else find? k rest

/-- Puts the content in the place of the one bound so far, or binds it last. -/
def put (k : κ) (a : α) : List (κ × α) → List (κ × α)
  | [] => [(k, a)]
  | (k₁, b) :: rest => if k₁ = k then (k, a) :: rest else (k₁, b) :: put k a rest

def get? (t : Table κ α) (k : κ) : Option α := find? k t.entries

def insert (t : Table κ α) (k : κ) (a : α) : Table κ α := ⟨put k a t.entries⟩

theorem find?_put (k k₁ : κ) (a : α) (l : List (κ × α)) :
    find? k₁ (put k a l) = if k₁ = k then some a else find? k₁ l := by
  induction l with
  | nil => simp [put, find?, eq_comm]
  | cons e l ih => grind [put, find?]

/-- After an insertion the name has its new content, and every other name the old one. -/
@[simp] theorem get?_insert (t : Table κ α) (k k₁ : κ) (a : α) :
    (t.insert k a).get? k₁ = if k₁ = k then some a else t.get? k₁ :=
  find?_put k k₁ a t.entries

@[simp] theorem get?_empty (k : κ) : (empty : Table κ α).get? k = none := rfl

end Table

end FoldedIni

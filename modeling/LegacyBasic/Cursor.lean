/-!
A cursor reads a list from front to back and can return to one marked place.
-/

namespace LegacyBasic

/-- A list, how much of it has been read, and the marked place. -/
structure Cursor (α : Type) where
  items : List α := []
  position : Nat := 0
  mark : Nat := 0
deriving Repr

namespace Cursor

variable {α : Type}

def ofList (items : List α) : Cursor α := { items := items }

/-- The next item, if there is one; the cursor moves past it. -/
def next (cursor : Cursor α) : Option α × Cursor α :=
  match cursor.items[cursor.position]? with
  | none => (none, cursor)
  | some item => (some item, { cursor with position := cursor.position + 1 })

/-- Marks the place reached. -/
def setMark (cursor : Cursor α) : Cursor α := { cursor with mark := cursor.position }

/-- Returns to the marked place, or to the front when none was marked. -/
def rewind (cursor : Cursor α) : Cursor α := { cursor with position := cursor.mark }

def size (cursor : Cursor α) : Nat := cursor.items.length

@[simp]
theorem position_rewind_setMark (cursor : Cursor α) :
    cursor.setMark.rewind.position = cursor.position := rfl

end Cursor

end LegacyBasic

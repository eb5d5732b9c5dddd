/-!
Byte strings.  Source text is a list of bytes, and so is everything written from it; texts of the
program's own enter as the bytes of their encoding.
-/

namespace LegacyBasic

/-- A string of bytes. -/
abbrev Bytes := List UInt8

namespace Bytes

/-- The encoding of a text as bytes. -/
def ofText (text : String) : Bytes := text.toByteArray.data.toList

instance : Coe String Bytes := ⟨ofText⟩

def concat (parts : List Bytes) : Bytes := parts.flatten

def ofNat (n : Nat) : Bytes := ofText (Nat.repr n)

/-- The decimal digits of an integer, after a minus sign when it is negative. -/
def ofInt : Int → Bytes
  | .ofNat n => ofNat n
  | .negSucc n => ofText "-" ++ ofNat (n + 1)

/-- The parts in order with `separator` between neighbours. -/
def join (separator : Bytes) : List Bytes → Bytes
  | [] => []
  | [part] => part
  | part :: next :: rest => part ++ separator ++ join separator (next :: rest)

/-- The pieces between the occurrences of `separator`; there is always one more than those. -/
def splitOn (separator : UInt8) : Bytes → List Bytes
  | [] => [[]]
  | b :: rest =>
    if b = separator then [] :: splitOn separator rest
    else
      match splitOn separator rest with
      | [] => [[b]]
      | piece :: pieces => (b :: piece) :: pieces

/-- The text cut into pieces of `width`, of which only the last may be shorter. -/
def chunks (width : Nat) : Bytes → List Bytes
  | [] => []
  | b :: rest => (b :: rest.take (width - 1)) :: chunks width (rest.drop (width - 1))
termination_by text => text.length
decreasing_by
  simp only [List.length_drop, List.length_cons]
  omega

/-- The text followed by as many blanks as bring it to `width`. -/
def padTo (width : Nat) (text : Bytes) : Bytes :=
  text ++ List.replicate (width - text.length) 0x20

/-- What holds of every number below 256 holds of every byte. -/
theorem forall_byte {p : UInt8 → Prop} (h : ∀ n < 256, p (UInt8.ofNat n)) (b : UInt8) : p b := by
  simpa using h b.toNat b.toNat_lt

@[simp]
theorem join_nil (separator : Bytes) : join separator [] = [] := rfl

@[simp]
theorem join_singleton (separator part : Bytes) : join separator [part] = part := rfl

theorem join_eq_intercalate (separator : Bytes) (parts : List Bytes) :
    join separator parts = separator.intercalate parts := by
  fun_induction join separator parts with
  | case1 => rfl
  | case2 part => exact List.intercalate_singleton.symm
  | case3 part next rest ih => rw [ih, List.intercalate_cons_cons]

theorem splitOn_ne_nil (separator : UInt8) (text : Bytes) : splitOn separator text ≠ [] := by
  cases text with
  | nil => simp [splitOn]
  | cons b rest =>
    simp only [splitOn]
    split
    · simp
    · split <;> simp

end Bytes

end LegacyBasic

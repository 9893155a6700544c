/-!
# Names

Names of tables, columns and keywords are compared without regard to the case of ASCII letters. Other
letters have no case here: `é` and `É` are different names.
-/

namespace SchemaEditor

/-- The form of a name in which names are compared. -/
def foldCase (name : String) : List Char := name.toList.map Char.toLower

def sameName (a b : String) : Bool := foldCase a == foldCase b

theorem sameName_iff {a b : String} : sameName a b = true ↔ foldCase a = foldCase b := by
  simp [sameName]

@[simp] theorem sameName_refl (a : String) : sameName a a = true := sameName_iff.mpr rfl

theorem sameName_comm (a b : String) : sameName a b = sameName b a := BEq.comm

theorem sameName_trans {a b c : String} (hab : sameName a b = true) (hbc : sameName b c = true) :
    sameName a c = true :=
  sameName_iff.mpr ((sameName_iff.mp hab).trans (sameName_iff.mp hbc))

theorem sameName_congr {a b : String} (h : sameName a b = true) (c : String) : sameName a c = sameName b c := by
  rw [sameName, sameName, sameName_iff.mp h]

theorem sameName_congr_right {a b : String} (h : sameName a b = true) (c : String) : sameName c a = sameName c b := by
  rw [sameName_comm c, sameName_comm c, sameName_congr h]

end SchemaEditor

import SchemaEditor.Name

/-!
# Tables of names

The store looks the tables of a schema up in a list that is divided into buckets. New names go to the front of their
bucket or, if that is empty, of the list. The list is divided anew when it has become long.
-/

namespace SchemaEditor.Store

structure NameTable where
  names : List String := []
  /-- The number of buckets; none for a short list. -/
  size : Nat := 0
  /-- The first names of the buckets that are not empty. -/
  heads : List (Nat × String) := []

namespace NameTable

/-- A number of 32 bits that follows from a name in small letters. -/
def hash (name : String) : Nat :=
  name.toUTF8.toList.foldl (fun h b =>
    let b := if 65 ≤ b ∧ b ≤ 90 then b + 32 else b
    (h + b.toNat) * 0x9E3779B1 % 0x100000000) 0

def insertBefore (head name : String) : List String → List String
  | [] => [name]
  | n :: ns => if n = head then name :: n :: ns else n :: insertBefore head name ns

/-- Puts a name into its bucket. -/
def put (t : NameTable) (name : String) : NameTable :=
  if t.size = 0 then { t with names := name :: t.names }
  else
    let bucket := hash name % t.size
    { t with
      names := match t.heads.lookup bucket with
        | some head => insertBefore head name t.names
        | none => name :: t.names
      heads := (bucket, name) :: t.heads }

/-- The most buckets that there can be. -/
def maxSize : Nat := 64

/-- Divides the list into other buckets. -/
def divide (t : NameTable) (size : Nat) : NameTable :=
  if size = t.size then t else t.names.foldl put { size }

/-- Adds a new name. -/
def insert (t : NameTable) (name : String) : NameTable :=
  let count := t.names.length + 1
  let isLong := decide (10 ≤ count) && decide (2 * t.size < count)
  (if isLong then t.divide (min (2 * count) maxSize) else t).put name

/-- The order of names that were added one by one. -/
def order (names : List String) : List String := (names.foldl insert {}).names

theorem insertBefore_perm (head name : String) : ∀ ns, (insertBefore head name ns).Perm (name :: ns)
  | [] => .refl _
  | n :: ns => by
    unfold insertBefore
    split
    · exact .refl _
    · exact ((insertBefore_perm head name ns).cons n).trans (.swap _ _ _)

theorem put_perm (t : NameTable) (name : String) : (t.put name).names.Perm (name :: t.names) := by
  unfold put
  split
  · exact .refl _
  · dsimp only
    split
    · exact insertBefore_perm _ _ _
    · exact .refl _

end NameTable

end SchemaEditor.Store

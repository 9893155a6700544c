/-!
# Fresh names

A name that is taken gets a number: the candidates are the base itself, then `base_1`, `base_2` and so on.
One candidate more than there are names that can be taken is enough to find a free one.
-/

namespace SchemaEditor

def numbered (base : String) (n : Nat) : String := base ++ "_" ++ toString n

/-- The base and its first `n` numbered forms. -/
def nameCandidates (base : String) (n : Nat) : List String :=
  base :: (List.range n).map fun k => numbered base (k + 1)

/-- The first free candidate, where at most `n` candidates are taken. -/
def freshName (taken : String → Bool) (n : Nat) (base : String) : String :=
  ((nameCandidates base n).find? fun name => !taken name).getD base

end SchemaEditor

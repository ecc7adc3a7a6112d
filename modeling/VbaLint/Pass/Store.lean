import VbaLint.Inspection.ResultSet

/-!
# Published results

The store holds the result set that is shown. A set replaces it unless it is of an older version.
-/

namespace VbaLint

/-- What became of a completed pass. -/
inductive Publication where
  /-- The set is now the one shown. -/
  | published (set : ResultSet)
  /-- A set of a newer version is shown already. -/
  | stale (version current : Nat)
  /-- The pass was cancelled. -/
  | cancelled
  /-- The pass failed otherwise. -/
  | failed (message : String)
  deriving DecidableEq, Repr

/-- The result set that is shown. -/
structure Store where
  current : Option ResultSet
  deriving DecidableEq, Repr

namespace Store

def empty : Store := ⟨none⟩

def version? (store : Store) : Option Nat := store.current.map (·.snapshotVersion)

/-- Show a set unless a newer one is shown. -/
def publish (store : Store) (set : ResultSet) : Publication × Store :=
  match store.version? with
  | some current =>
    if set.snapshotVersion < current then (.stale set.snapshotVersion current, store)
    else (.published set, ⟨some set⟩)
  | none => (.published set, ⟨some set⟩)

end Store

end VbaLint

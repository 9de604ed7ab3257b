import Folio.Failure

/-!
# Registered outputs

A registry holds the outputs that wait to be committed: names, each with the temporary buffer that
holds the document. Names are distinct and keep the order in which they were added.
-/

namespace Folio

/-- Outputs that wait to be committed, and whether they may replace existing files. -/
structure Registry where
  overwrite : Bool
  outputs : List (String × Path)
  deriving DecidableEq, Repr

namespace Registry

/-- A registry without outputs. -/
def empty (overwrite : Bool) : Registry := ⟨overwrite, []⟩

/-- The names, in the order in which they were added. -/
def names (r : Registry) : List String := r.outputs.map Prod.fst

/-- Adds an output, unless its name is taken. -/
def add (r : Registry) (buffer : Path) (name : String) : Except Failure Registry :=
  if name ∈ r.names then .error (.repeatedName name)
  else .ok { r with outputs := r.outputs ++ [(name, buffer)] }

/-- What an output that is added changes. -/
theorem add_eq_ok {r r' : Registry} {buffer : Path} {name : String} :
    r.add buffer name = .ok r' ↔
      name ∉ r.names ∧ r' = { r with outputs := r.outputs ++ [(name, buffer)] } := by
  unfold add
  split
  · next h => simp [h]
  · next h => simp [h, eq_comm]

theorem names_add {r r' : Registry} {buffer : Path} {name : String}
    (h : r.add buffer name = .ok r') : r'.names = r.names ++ [name] := by
  unfold add at h
  split at h
  · cases h
  · cases h
    simp [names]

/-- Adding an output keeps names distinct. -/
theorem nodup_names_add {r r' : Registry} {buffer : Path} {name : String} (hr : r.names.Nodup)
    (h : r.add buffer name = .ok r') : r'.names.Nodup := by
  have hn : name ∉ r.names := by
    intro hmem
    simp [add, hmem] at h
  rw [names_add h]
  exact List.nodup_append.2 ⟨hr, by simp, by grind⟩

/-- A registry with nothing left in it. -/
def clear (r : Registry) : Registry := { r with outputs := [] }

/-- The path that a name is committed to. -/
def target (directory : Path) (name : String) : Path := directory / name

end Registry

end Folio

import Folio.Geometry.Cut

/-!
# Repeated cutting

Each round replaces every box of a list by its two halves, so `depth` rounds turn one box into
`2 ^ depth` tiles. The first degenerate box that a round meets ends the cutting.
-/

namespace Folio.Box

variable {α : Type} [Add α] [Sub α] [Div α] [OfNat α 2] [LE α] [DecidableLE α] [OfNat α 0]

/-- One round: every box is replaced by its two halves. -/
def refine : List (Box α) → Except (Box α) (List (Box α))
  | [] => .ok []
  | b :: bs =>
    match b.split, refine bs with
    | .error e, _ => .error e
    | .ok _, .error e => .error e
    | .ok (first, second), .ok rest => .ok (first.box :: second.box :: rest)

/-- The boxes after `depth` rounds that start from a list of boxes. -/
def refineTimes : Nat → List (Box α) → Except (Box α) (List (Box α))
  | 0, bs => .ok bs
  | depth + 1, bs =>
    match refine bs with
    | .error e => .error e
    | .ok next => refineTimes depth next

/-- A round that succeeds doubles the number of boxes. -/
theorem length_refine {bs cs : List (Box α)} (h : refine bs = .ok cs) :
    cs.length = 2 * bs.length := by
  induction bs generalizing cs with
  | nil =>
    cases h
    rfl
  | cons b bs ih =>
    unfold refine at h
    split at h
    · cases h
    · cases h
    · next hrest =>
      cases h
      simp only [List.length_cons, ih hrest]
      omega

/-- The tiles of one box after `depth` rounds. -/
def tiles (depth : Nat) (b : Box α) : Except (Box α) (List (Box α)) := refineTimes depth [b]

end Folio.Box

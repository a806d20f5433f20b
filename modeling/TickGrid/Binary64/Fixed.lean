import TickGrid.Binary64.Basic

/-!
# Doubles with a fixed number of places

`Binary64.toFixed x places` writes the exact value of a double rounded half-even to `places`
digits after the point. The sign is written whenever the sign bit is set, so a negative value
that rounds to zero keeps its minus. Infinities are `inf` and `-inf`, NaN is `NaN`.
-/

namespace TickGrid

namespace Binary64

/-- The text of a double rounded half-even to `places` digits after the point. -/
def toFixed (x : Binary64) (places : Nat) : String :=
  let sign (negative : Bool) : String := if negative then "-" else ""
  match x.kind with
  | .nan => "NaN"
  | .infinite s => sign s ++ "inf"
  | .finite s m e =>
    let n := divRound (m * Nat.pow 2 e.toNat * Nat.pow 10 places) (Nat.pow 2 (-e).toNat)
    let ds := (Nat.repr n).toList
    let ds := List.replicate (places + 1 - ds.length) '0' ++ ds
    let cut := ds.length - places
    if places = 0 then sign s ++ String.ofList ds
    else sign s ++ String.ofList (ds.take cut) ++ "." ++ String.ofList (ds.drop cut)

end Binary64

end TickGrid

/-!
# Integer literals

`Text.readInteger?` reads an integer written as an optional `+` or `-` followed by one or more
ASCII digits, and nothing else: no blanks, no separators, no other digits. Range checks are
left to the caller, which knows the width it needs.

`Text.readBelow?` reads an unsigned run of ASCII digits into a fixed width: it stops at the
first character that is not a digit, or at the first digit that brings the value to the bound.
-/

namespace TickGrid

namespace Text

/-- The value of a list of ASCII digits, most significant first. -/
def digitValue (ds : List Char) : Nat :=
  ds.foldl (fun n c => 10 * n + (c.toNat - '0'.toNat)) 0

/-- Reads an optionally signed run of ASCII digits. -/
def readInteger? (cs : List Char) : Option Int :=
  let (negative, ds) := match cs with
    | '+' :: rest => (false, rest)
    | '-' :: rest => (true, rest)
    | _ => (false, cs)
  if ds.isEmpty || !ds.all Char.isDigit then none
  else
    let v : Int := digitValue ds
    some (if negative then -v else v)

/-- Why a text is not a natural number below a bound. -/
inductive BoundedReadError where
  /-- A character other than an ASCII digit. -/
  | invalidCharacter
  /-- A digit that brings the value to the bound or past it. -/
  | tooLong
  deriving DecidableEq, Repr, Inhabited

/-- Reads ASCII digits after the value `acc` of those already read, keeping the value below
`bound`. Each step checks its own character first, so the first fault from the left is the one
reported. -/
def readBelowFrom (bound : Nat) : Nat → List Char → Except BoundedReadError Nat
  | acc, [] => .ok acc
  | acc, c :: rest =>
    if !c.isDigit then .error .invalidCharacter
    else
      let v := 10 * acc + (c.toNat - '0'.toNat)
      if v < bound then readBelowFrom bound v rest else .error .tooLong

/-- Reads a run of ASCII digits, most significant first, as a value below `bound`; no digits
read as zero. -/
def readBelow? (bound : Nat) (cs : List Char) : Except BoundedReadError Nat :=
  readBelowFrom bound 0 cs

example : readBelow? 1000 "999".toList = .ok 999 ∧ readBelow? 1000 "".toList = .ok 0 ∧
    readBelow? 1000 "1000".toList = .error .tooLong ∧
    readBelow? 1000 "1000x".toList = .error .tooLong ∧
    readBelow? 1000 "1x000".toList = .error .invalidCharacter :=
  ⟨rfl, rfl, rfl, rfl, rfl⟩

example : readInteger? "-42".toList = some (-42) ∧ readInteger? "+7".toList = some 7 ∧
    readInteger? "+".toList = none ∧ readInteger? "1_000".toList = none := by
  decide

end Text

end TickGrid

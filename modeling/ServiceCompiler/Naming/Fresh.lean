import ServiceCompiler.Text.LetterCase

namespace ServiceCompiler.Naming

/-!
# Fresh names

`Names` remembers the names given so far and hands out new ones: a name that is taken gets the
numbers 2, 3, … in turn, placed before the file ending.  The search is bounded by the number of names
taken, because one candidate more than that cannot all be taken (`Names.next`).
-/

/-- The names taken so far. -/
structure Names where
  /-- The keys of the names taken. -/
  taken : List String := []
  /-- Whether names that differ only in case count as one. -/
  foldCase : Bool := false
  /-- The ending that stays behind the number. -/
  ending : String := ""
  deriving Repr

namespace Names

/-- The form under which a name is compared. -/
def key (names : Names) (name : String) : String :=
  if names.foldCase then Text.lower name else name

def taking (names : Names) (given : List String) : Names :=
  { names with taken := given.map names.key ++ names.taken }

/-- The candidate with the given number. -/
def candidate (names : Names) (name : String) (i : Nat) : String :=
  if i ≤ 1 then name
  else
    let stem := (Text.stripTail? names.ending.toList name.toList).getD name.toList
    String.ofList stem ++ Text.decimal i ++ names.ending

/-- The first candidate from number `i` on that is not taken, among the next `fuel` ones. -/
def search (names : Names) (name : String) : Nat → Nat → String
  | 0, i => names.candidate name i
  | fuel + 1, i =>
    let c := names.candidate name i
    if names.taken.contains (names.key c) then search names name fuel (i + 1) else c

/-- A fresh name, and the names taken with it. -/
def next (names : Names) (name : String) : String × Names :=
  let fresh := names.search name names.taken.length 1
  (fresh, { names with taken := names.key fresh :: names.taken })

/-- Fresh names for a list, one after another. -/
def nextAll (names : Names) : List String → List String × Names
  | [] => ([], names)
  | name :: rest =>
    let (fresh, names) := names.next name
    let (others, names) := names.nextAll rest
    (fresh :: others, names)

end Names

end ServiceCompiler.Naming

import ServiceCompiler.Text.Basic

namespace ServiceCompiler.Text

/-!
# Scanners

A scanner reads a value off the beginning of a text and leaves the rest.  Each scanner here takes as
much as it can and never gives anything back, so a sequence of scanners has at most one outcome at
each position of the text.

* `literal`, `skip`, `run1` are the scanners for fixed text, optional runs and non-empty runs.
* `Scan.atStart?` and `Scan.anywhere?` apply a scanner at the beginning, or at the first position
  where it succeeds.
-/

/-- A scanner reads a value off the beginning of a text. -/
abbrev Scan (α : Type) := StateT (List Char) Option α

/-- Reads the given text. -/
def literal (s : String) : Scan Unit := fun cs =>
  (stripLead? s.toList cs).map fun rest => ((), rest)

/-- Passes over the longest run of characters for which `p` holds. -/
def skip (p : Char → Bool) : Scan Unit := fun cs => some ((), cs.dropWhile p)

/-- Reads the longest run of characters for which `p` holds; there must be one. -/
def run1 (p : Char → Bool) : Scan String := fun cs =>
  match cs.takeWhile p with
  | [] => none
  | c :: word => some (String.ofList (c :: word), cs.dropWhile p)

/-- Reads `c` and the longest run of characters for which `p` holds after it. -/
def ledBy (c : Char) (p : Char → Bool) : Scan String := fun cs =>
  match cs with
  | [] => none
  | d :: rest =>
    if d = c then some (String.ofList (c :: rest.takeWhile p), rest.dropWhile p) else none

/-- The value read at the beginning of the text. -/
def Scan.atStart? {α : Type} (s : Scan α) (cs : List Char) : Option α := (s cs).map (·.1)

/-- The value read at the first position where the scanner succeeds. -/
def Scan.anywhere? {α : Type} (s : Scan α) : List Char → Option α
  | [] => s.atStart? []
  | c :: cs => (s.atStart? (c :: cs)).or (Scan.anywhere? s cs)

@[simp] theorem literal_append (s : String) (rest : List Char) : literal s (s.toList ++ rest) = some ((), rest) := by
  simp [literal]

/-- A run ends where the class ends. -/
theorem run1_append {p : Char → Bool} {word rest : List Char} (hne : word ≠ [])
    (hword : ∀ c ∈ word, p c) (hrest : ∀ c, rest.head? = some c → p c = false) :
    run1 p (word ++ rest) = some (String.ofList word, rest) := by
  have hdrop : rest.dropWhile p = rest := by
    cases rest with
    | nil => rfl
    | cons c cs => simp [hrest c rfl]
  have htake : rest.takeWhile p = [] := by
    cases rest with
    | nil => rfl
    | cons c cs => simp [hrest c rfl]
  cases word with
  | nil => exact absurd rfl hne
  | cons c cs =>
    have ht : (c :: cs ++ rest).takeWhile p = c :: cs := by
      rw [List.takeWhile_append_of_pos hword, htake, List.append_nil]
    have hd : (c :: cs ++ rest).dropWhile p = rest := by
      rw [List.dropWhile_append_of_pos hword, hdrop]
    simp only [run1, ht, hd]

end ServiceCompiler.Text

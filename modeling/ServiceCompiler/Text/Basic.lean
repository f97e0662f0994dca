namespace ServiceCompiler.Text

/-!
# Text as lists of characters

Searching, cutting and joining over `List Char`.

* `stripLead?`, `stripTail?` remove a given beginning or end.
* `contains`, `cut?` look for the first occurrence of a non-empty text.
* `replaceAll` replaces the occurrences found from left to right.
* `splitOn` cuts at every occurrence of one character.
-/

/-! ### Beginnings and ends -/

/-- What follows `lead`, when the text starts with it. -/
def stripLead? : List Char → List Char → Option (List Char)
  | [], cs => some cs
  | _ :: _, [] => none
  | p :: ps, c :: cs => if p = c then stripLead? ps cs else none

/-- What precedes `tail`, when the text ends with it. -/
def stripTail? (tail cs : List Char) : Option (List Char) :=
  (stripLead? tail.reverse cs.reverse).map List.reverse

/-- Whether the text starts with `lead`. -/
def hasLead (lead cs : List Char) : Bool := (stripLead? lead cs).isSome

/-- Whether the text ends with `tail`. -/
def hasTail (tail cs : List Char) : Bool := (stripTail? tail cs).isSome

/-- Stripping a beginning succeeds exactly on the texts that have it. -/
theorem stripLead?_eq_some_iff {lead cs rest : List Char} : stripLead? lead cs = some rest ↔ cs = lead ++ rest := by
  induction lead generalizing cs with
  | nil => simp [stripLead?, eq_comm]
  | cons p ps ih =>
    cases cs with
    | nil => simp [stripLead?]
    | cons c cs =>
      by_cases h : p = c
      · simp [stripLead?, h, ih]
      · simp [stripLead?, h, Ne.symm h]

@[simp] theorem stripLead?_append (lead rest : List Char) : stripLead? lead (lead ++ rest) = some rest :=
  stripLead?_eq_some_iff.2 rfl

/-! ### Searching -/

/-- The text before and after the first occurrence of `mark`. -/
def cut? (mark : List Char) : List Char → Option (List Char × List Char)
  | [] => if mark.isEmpty then some ([], []) else none
  | c :: cs =>
    match stripLead? mark (c :: cs) with
    | some rest => some ([], rest)
    | none => (cut? mark cs).map fun (before, after) => (c :: before, after)

/-- Whether `mark` occurs in the text. -/
def contains (mark cs : List Char) : Bool := (cut? mark cs).isSome

/-- The text before and after the last occurrence of the character `mark`. -/
def cutLast? (mark : Char) (cs : List Char) : Option (List Char × List Char) :=
  match cs.reverse.span (· != mark) with
  | (_, []) => none
  | (after, _ :: before) => some (before.reverse, after.reverse)

/-- The text before and after the first occurrence of the character `mark`. -/
def cutAt? (mark : Char) (cs : List Char) : Option (List Char × List Char) :=
  match cs.span (· != mark) with
  | (_, []) => none
  | (before, _ :: after) => some (before, after)

/-- A cut gives back the text around the mark. -/
theorem eq_append_of_cut? {mark cs before after : List Char}
    (h : cut? mark cs = some (before, after)) : cs = before ++ mark ++ after := by
  induction cs generalizing before with
  | nil =>
    simp only [cut?] at h
    split at h <;> simp_all
  | cons c cs ih =>
    simp only [cut?] at h
    split at h
    case h_1 rest heq =>
      obtain ⟨rfl, rfl⟩ : [] = before ∧ rest = after := by simpa using h
      simpa using stripLead?_eq_some_iff.1 heq
    case h_2 =>
      obtain ⟨⟨b, a⟩, hcut, heq⟩ := Option.map_eq_some_iff.1 h
      obtain ⟨rfl, rfl⟩ : c :: b = before ∧ a = after := by simpa using heq
      simp [ih hcut]

/-- The pieces between the occurrences of `mark`, at least one. -/
def splitOn (mark : Char) : List Char → List (List Char)
  | [] => [[]]
  | c :: cs =>
    if c = mark then [] :: splitOn mark cs
    else
      match splitOn mark cs with
      | [] => [[c]]
      | piece :: pieces => (c :: piece) :: pieces

theorem splitOn_ne_nil (mark : Char) (cs : List Char) : splitOn mark cs ≠ [] := by
  cases cs with
  | nil => simp [splitOn]
  | cons c cs =>
    simp only [splitOn]
    split
    · simp
    · split <;> simp

/-- The text with the occurrences of `old`, found from left to right, replaced by `new`.  `skip`
    counts the characters that belong to the occurrence found last. -/
def replaceFrom (old new : List Char) : Nat → List Char → List Char
  | _, [] => []
  | skip + 1, _ :: cs => replaceFrom old new skip cs
  | 0, c :: cs =>
    if hasLead old (c :: cs) then new ++ replaceFrom old new (old.length - 1) cs
    else c :: replaceFrom old new 0 cs

/-- The text with every occurrence of the non-empty `old` replaced by `new`. -/
def replaceAll (old new cs : List Char) : List Char := replaceFrom old new 0 cs

/-- The first character for which `p` holds starts the second part. -/
def spanUntil (p : Char → Bool) (cs : List Char) : List Char × List Char :=
  cs.span (!p ·)

/-! ### Words -/

/-- The maximal runs of characters for which `p` holds. -/
def runs (p : Char → Bool) : List Char → List (List Char)
  | [] => []
  | c :: cs =>
    if p c then
      match cs, runs p cs with
      | d :: _, word :: words => if p d then (c :: word) :: words else [c] :: word :: words
      | _, words => [c] :: words
    else runs p cs

/-! ### Text of numbers -/

def decimal (n : Nat) : String := String.ofList (Nat.toDigits 10 n)

/-- The decimal text of an integer. -/
def decimalInt : Int → String
  | .ofNat n => decimal n
  | .negSucc n => "-" ++ decimal (n + 1)

/-- The value of a digit in bases up to sixteen. -/
def digitValue? (c : Char) : Option Nat :=
  if '0' ≤ c ∧ c ≤ '9' then some (c.toNat - '0'.toNat)
  else if 'a' ≤ c ∧ c ≤ 'f' then some (c.toNat - 'a'.toNat + 10)
  else if 'A' ≤ c ∧ c ≤ 'F' then some (c.toNat - 'A'.toNat + 10)
  else none

/-- The number written by digits of the given base; none without digits. -/
def natOf? (base : Nat) (cs : List Char) : Option Nat :=
  if cs.isEmpty then none
  else cs.foldl
    (fun acc c => do
      let n ← acc
      let d ← digitValue? c
      if d < base then some (n * base + d) else none)
    (some 0)

/-- The number in hexadecimal digits, padded with zeros on the left. -/
def hex (width n : Nat) : List Char :=
  let digits := Nat.toDigits 16 n
  List.replicate (width - digits.length) '0' ++ digits

def isDigit (c : Char) : Bool := '0' ≤ c ∧ c ≤ '9'

def isAsciiLetter (c : Char) : Bool := ('a' ≤ c ∧ c ≤ 'z') ∨ ('A' ≤ c ∧ c ≤ 'Z')

/-- Whether the character may stand in a plain word: an ASCII letter, a digit or an underscore. -/
def isWordChar (c : Char) : Bool := isAsciiLetter c || isDigit c || c == '_'

/-- The ASCII lower-case form of a character. -/
def asciiLower (c : Char) : Char :=
  if 'A' ≤ c ∧ c ≤ 'Z' then Char.ofNat (c.toNat + 32) else c

/-- The text with its ASCII capitals in lower case. -/
def lowerAscii (s : String) : String := String.ofList (s.toList.map asciiLower)

/-- The number of octets of the text in UTF-8. -/
def octetCount (s : String) : Nat := s.utf8ByteSize

def octetSize (cs : List Char) : Nat := cs.foldl (fun n c => n + c.utf8Size) 0

/-- Bytewise order of texts; UTF-8 keeps the order of code points. -/
def before (a b : String) : Bool := decide (a ≤ b)

end ServiceCompiler.Text

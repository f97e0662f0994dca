import ServiceCompiler.Directive.Line
import ServiceCompiler.Proofs.Text.Pieces

namespace ServiceCompiler

open Text

/-!
# Numbered lines

A line is numbered by where it stands.  Blank lines are not read, but they count.

* `Line.ofSource_append` — behind a line break the numbers go on: the lines of a text that follows another
  one are its own lines, further down by the number of physical lines before them.
* `Line.mem_ofSource_iff` — the lines of a source are its physical lines that are not blank, each with its
  number and without the blanks around it, and their numbers increase (`Line.ofSource_increasing`).
* `Line.ofSource_blanked` — emptying physical lines takes away the lines with their numbers and leaves the
  numbers of the others as they are.
-/

/-- The physical lines of a source, blank ones included. -/
def physicalLines (source : String) : List (List Char) := splitOn '\n' source.toList

/-- A piece between line breaks holds none. -/
theorem newline_notMem_physicalLines {source : String} {raw : List Char}
    (h : raw ∈ physicalLines source) : '\n' ∉ raw :=
  fun hmem => (of_mem_splitOn h '\n' hmem).2 rfl

/-- A source with these physical lines. -/
def ofPhysicalLines (raws : List (List Char)) : String := String.ofList (['\n'].intercalate raws)

theorem physicalLines_ofPhysicalLines {raws : List (List Char)} (hne : raws ≠ [])
    (h : ∀ raw ∈ raws, '\n' ∉ raw) : physicalLines (ofPhysicalLines raws) = raws := by
  rw [physicalLines, ofPhysicalLines, String.toList_ofList, splitOn_eq_list_splitOn]
  exact List.splitOn_intercalate '\n' h hne

theorem physicalLines_append (s t : String) :
    physicalLines (s ++ "\n" ++ t) = physicalLines s ++ physicalLines t := by
  have hbreak : (s ++ "\n" ++ t).toList = s.toList ++ '\n' :: t.toList := by simp
  simp only [physicalLines, hbreak, splitOn_eq_list_splitOn]
  exact List.splitOn_append_cons_self _ _

/-- The source with the physical lines of these numbers emptied. -/
def blanked (numbers : List Int) (source : String) : String :=
  ofPhysicalLines ((physicalLines source).mapIdx fun i raw => if 1 + (i : Int) ∈ numbers then [] else raw)

namespace Line

/-- The line further down by `k` lines. -/
def shift (k : Int) (line : Line) : Line := { line with number := line.number + k }

@[simp] theorem text_shift (k : Int) (line : Line) : (line.shift k).text = line.text := rfl

@[simp] theorem number_shift (k : Int) (line : Line) : (line.shift k).number = line.number + k := rfl

/-! ### Texts one after the other -/

theorem number?_append (first : Int) (xs ys : List (List Char)) :
    number? first (xs ++ ys) = number? first xs ++ number? (first + xs.length) ys := by
  induction xs generalizing first with
  | nil => simp [number?]
  | cons raw xs ih =>
    have hlength : first + ((raw :: xs).length : Int) = first + 1 + (xs.length : Int) := by
      rw [List.length_cons]
      omega
    rw [List.cons_append, number?, number?, ih (first + 1), hlength]
    split <;> rfl

/-- Counting from a later line on shifts all numbers. -/
theorem number?_add (first k : Int) (xs : List (List Char)) :
    number? (first + k) xs = (number? first xs).map (shift k) := by
  induction xs generalizing first with
  | nil => rfl
  | cons raw xs ih =>
    have hnext : first + k + 1 = first + 1 + k := by omega
    rw [number?, number?, hnext, ih (first + 1)]
    split <;> rfl

/-- **Numbers go on behind a line break.** The second text begins one line below the last line break of
    the first. -/
theorem ofSource_append (s t : String) :
    ofSource (s ++ "\n" ++ t) =
      ofSource s ++ (ofSource t).map (shift (1 + s.toList.count '\n')) := by
  have hlength : ((physicalLines s).length : Int) = 1 + s.toList.count '\n' := by
    rw [physicalLines, length_splitOn]
    omega
  have hlines : ∀ source, ofSource source = number? 1 (physicalLines source) := fun _ => rfl
  rw [hlines, hlines, hlines, physicalLines_append, number?_append, number?_add, hlength]

/-! ### Lines and physical lines -/

theorem mem_number?_iff {first : Int} {xs : List (List Char)} {line : Line} :
    line ∈ number? first xs ↔
      ∃ i raw, xs[i]? = some raw ∧ trim raw ≠ [] ∧
        line = ⟨first + (i : Nat), String.ofList (trim raw)⟩ := by
  induction xs generalizing first with
  | nil => simp [number?]
  | cons raw xs ih =>
    -- The first physical line has place zero, the others are those of the rest, one place further.
    have hplace : ∀ i : Nat, first + 1 + (i : Int) = first + ((i + 1 : Nat) : Int) := by
      intro i
      omega
    have hrest : line ∈ number? (first + 1) xs ↔
        ∃ i raw', (raw :: xs)[i + 1]? = some raw' ∧ trim raw' ≠ [] ∧
          line = ⟨first + ((i + 1 : Nat) : Int), String.ofList (trim raw')⟩ := by
      rw [ih]
      simp only [List.getElem?_cons_succ, hplace]
    have hmem : line ∈ number? first (raw :: xs) ↔
        (trim raw ≠ [] ∧ line = ⟨first, String.ofList (trim raw)⟩) ∨
          line ∈ number? (first + 1) xs := by
      rw [number?]
      split
      · rename_i hblank
        simp [List.isEmpty_iff.1 hblank]
      · rename_i hne
        have hne' : trim raw ≠ [] := fun h => hne (by rw [h]; rfl)
        simp [hne']
    rw [hmem, hrest]
    constructor
    · rintro (⟨hne, rfl⟩ | ⟨i, raw', hraw, hne, rfl⟩)
      · exact ⟨0, raw, rfl, hne, by simp⟩
      · exact ⟨i + 1, raw', hraw, hne, rfl⟩
    · rintro ⟨i, raw', hraw, hne, rfl⟩
      cases i with
      | zero =>
        obtain rfl : raw = raw' := by simpa using hraw
        exact .inl ⟨hne, by simp⟩
      | succ i => exact .inr ⟨i, raw', hraw, hne, rfl⟩

/-- **The lines of a source** are its physical lines that are not blank. -/
theorem mem_ofSource_iff {source : String} {line : Line} :
    line ∈ ofSource source ↔
      ∃ i raw, (physicalLines source)[i]? = some raw ∧ trim raw ≠ [] ∧
        line = ⟨1 + (i : Nat), String.ofList (trim raw)⟩ :=
  mem_number?_iff

theorem number?_increasing (first : Int) (xs : List (List Char)) :
    (number? first xs).Pairwise fun a b => a.number < b.number := by
  induction xs generalizing first with
  | nil => exact List.Pairwise.nil
  | cons raw xs ih =>
    rw [number?]
    split
    · exact ih (first + 1)
    · refine List.Pairwise.cons ?_ (ih (first + 1))
      intro line hline
      obtain ⟨i, raw', -, -, rfl⟩ := mem_number?_iff.1 hline
      show first < first + 1 + (i : Int)
      omega

/-- Lines are numbered upwards. -/
theorem ofSource_increasing (source : String) : (ofSource source).Pairwise fun a b => a.number < b.number :=
  number?_increasing 1 _

/-! ### Emptied lines -/

theorem number?_emptied (numbers : List Int) (first : Int) (xs : List (List Char)) :
    number? first (xs.mapIdx fun i raw => if first + (i : Int) ∈ numbers then [] else raw) =
      (number? first xs).filter (·.number ∉ numbers) := by
  induction xs generalizing first with
  | nil => rfl
  | cons raw xs ih =>
    have hplace : ∀ i : Nat, first + ((i + 1 : Nat) : Int) = first + 1 + (i : Int) := by
      intro i
      omega
    rw [List.mapIdx_cons, number?, number?]
    simp only [hplace, ih (first + 1), Int.natCast_zero, Int.add_zero]
    by_cases hnumber : first ∈ numbers
    · -- An empty line is blank, whatever stood there.
      have hempty : (trim []).isEmpty = true := rfl
      rw [if_pos hnumber, if_pos hempty]
      split <;> simp [hnumber]
    · rw [if_neg hnumber]
      split <;> simp [hnumber]

/-- **Emptying lines** takes away the lines with their numbers. -/
theorem ofSource_blanked (numbers : List Int) (source : String) :
    ofSource (blanked numbers source) = (ofSource source).filter (·.number ∉ numbers) := by
  have hphysical : physicalLines (blanked numbers source) =
      (physicalLines source).mapIdx fun i raw => if 1 + (i : Int) ∈ numbers then [] else raw := by
    refine physicalLines_ofPhysicalLines ?_ ?_
    · intro hnil
      exact splitOn_ne_nil '\n' source.toList (List.mapIdx_eq_nil_iff.1 hnil)
    · intro raw hraw
      obtain ⟨i, hi, rfl⟩ := List.mem_mapIdx.1 hraw
      split
      · simp
      · exact newline_notMem_physicalLines (List.getElem_mem hi)
  rw [ofSource, ← physicalLines, hphysical]
  exact number?_emptied numbers 1 (physicalLines source)

end Line

end ServiceCompiler

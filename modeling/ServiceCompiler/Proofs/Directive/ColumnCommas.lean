import ServiceCompiler.Proofs.Directive.MigrationText

namespace ServiceCompiler

open List

/-!
# The commas of a column list

A list of columns is cut at its commas outside parentheses and nowhere else.

* `withDepths` — every character of a text with the number of parentheses that are open before it.
* `topSegments_eq_splitOn` — the cut is that of the library, at the commas of depth zero; its laws carry over.
* `splitFields_cutAtTopCommas` — what this says of a list of columns, and of two with a comma between them.
-/

/-- The characters of a text, each with the depth before it. -/
def withDepths : Nat → List Char → List (Char × Nat)
  | _, [] => []
  | depth, c :: cs => (c, depth) :: withDepths (nextDepth depth c) cs

/-- What stands between the commas of depth zero, the depth being `depth` at the beginning. -/
def commaSegments (depth : Nat) (cs : List Char) : List (List Char) :=
  ((withDepths depth cs).splitOn (',', 0)).map (·.map Prod.fst)

/-- A segment as it is read. -/
def trimmed (segment : List Char) : String := String.ofList (Text.trim segment)

theorem withDepths_append (depth : Nat) (as bs : List Char) :
    withDepths depth (as ++ bs) = withDepths depth as ++ withDepths (as.foldl nextDepth depth) bs := by
  induction as generalizing depth with
  | nil => rfl
  | cons c as ih => rw [cons_append, withDepths, ih, withDepths, cons_append, foldl_cons]

theorem topSegments_eq_splitOn (depth : Nat) (cs : List Char) : topSegments depth cs = commaSegments depth cs := by
  induction cs generalizing depth with
  | nil => rfl
  | cons c cs ih =>
    rw [commaSegments, withDepths, splitOn_cons_eq_if_modifyHead]
    by_cases hcomma : c = ',' ∧ depth = 0
    · rw [topSegments, if_pos hcomma, ih, if_pos (by simpa using hcomma), hcomma.1, hcomma.2]
      rfl
    · rw [topSegments_cons hcomma, ih, commaSegments, if_neg (by simpa using hcomma)]
      cases (withDepths (nextDepth depth c) cs).splitOn (',', 0) <;> rfl

/-- Nothing but the commas is lost between the segments. -/
theorem intercalate_commaSegments (depth : Nat) (cs : List Char) :
    [','].intercalate (commaSegments depth cs) = cs := by
  have hmap : ∀ l : List (List (Char × Nat)),
      [','].intercalate (l.map (·.map Prod.fst)) = ([(',', 0)].intercalate l).map Prod.fst := by
    intro l
    induction l with
    | nil => rfl
    | cons a l ih => cases l <;> simp_all [intercalate_cons_cons]
  rw [commaSegments, hmap, intercalate_splitOn]
  induction cs generalizing depth with
  | nil => rfl
  | cons c cs ih => rw [withDepths, map_cons, ih]

/-- A comma of depth zero leaves what stands on its two sides as if it stood alone. -/
theorem commaSegments_append_comma {as : List Char} (h : as.foldl nextDepth 0 = 0) (bs : List Char) :
    commaSegments 0 (as ++ ',' :: bs) = commaSegments 0 as ++ commaSegments 0 bs := by
  rw [commaSegments, withDepths_append, withDepths, h, splitOn_append_cons_self, map_append]
  rfl

/-- Only an empty segment at the end is left out. -/
theorem splitFields_of_segments {s : String} {front : List String} {last : String}
    (h : (commaSegments 0 s.toList).map trimmed = front ++ [last]) :
    splitFields s = front ++ if last = "" then [] else [last] := by
  rw [← topSegments_eq_splitOn] at h
  show (if ((topSegments 0 s.toList).map trimmed).getLast? = some "" then
    ((topSegments 0 s.toList).map trimmed).dropLast else (topSegments 0 s.toList).map trimmed) = _
  rw [h, getLast?_concat, dropLast_concat]
  by_cases hlast : last = "" <;> simp [hlast]

/-- **A list of columns is cut at exactly the commas outside parentheses.**  The segments with commas between them are
    the list, they are read trimmed and without an empty last one, and behind a comma of depth zero another list is
    read as if it stood alone. -/
theorem splitFields_cutAtTopCommas (s : String) :
    [','].intercalate (commaSegments 0 s.toList) = s.toList ∧
    (∃ front last, (commaSegments 0 s.toList).map trimmed = front ++ [last] ∧
      splitFields s = front ++ if last = "" then [] else [last]) ∧
    ∀ t : String, s.toList.foldl nextDepth 0 = 0 →
      splitFields (s ++ "," ++ t) = (commaSegments 0 s.toList).map trimmed ++ splitFields t := by
  have hlast : ∀ t : String, ∃ front last, (commaSegments 0 t.toList).map trimmed = front ++ [last] := fun t =>
    (List.eq_nil_or_concat' _).resolve_left (by simp [commaSegments])
  obtain ⟨front, last, hs⟩ := hlast s
  refine ⟨intercalate_commaSegments 0 _, ⟨front, last, hs, splitFields_of_segments hs⟩, fun t hdepth => ?_⟩
  obtain ⟨front, last, ht⟩ := hlast t
  have hboth : (commaSegments 0 (s ++ "," ++ t).toList).map trimmed =
      (commaSegments 0 s.toList).map trimmed ++ front ++ [last] := by
    have htext : (s ++ "," ++ t).toList = s.toList ++ ',' :: t.toList := by simp
    rw [htext, commaSegments_append_comma hdepth, List.map_append, ht, List.append_assoc]
  rw [splitFields_of_segments hboth, splitFields_of_segments ht, List.append_assoc]

theorem splitFields_cutAtTopCommas_unbalanced : "a)(b,c),".toList.foldl nextDepth 0 = 0 ∧
    splitFields ("a)(b,c)," ++ "," ++ "d,") = (commaSegments 0 "a)(b,c),".toList).map trimmed ++ splitFields "d," :=
  ⟨by decide, (splitFields_cutAtTopCommas "a)(b,c),").2.2 "d," (by decide)⟩

end ServiceCompiler

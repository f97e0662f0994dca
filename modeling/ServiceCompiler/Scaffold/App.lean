import ServiceCompiler.Scaffold.Sources

namespace ServiceCompiler.Scaffold

/-!
# Rewiring the start page

The start page of a new client project imports a logo and shows it in a header.  The import makes room
for those of the routes, and every header for the routes themselves.
-/

def logoImport : String := "import logo from './logo.svg';"

def routerImport : String :=
  "\n".intercalate [
    "import \x7b BrowserRouter as Router, Routes, Route \x7d from 'react-router-dom';",
    "import Login from './Login';",
    "import Register from './Register';" ]

/-- How the header begins. -/
def headerOpen : String := "<header className=\"App-header\">"

/-- How the header ends. -/
def headerClose : String := "</header>"

/-- The text with the first occurrence of a text replaced. -/
def replaceFirst (old new cs : List Char) : List Char :=
  match Text.cut? old cs with
  | none => cs
  | some (before, after) => before ++ new ++ after

/-- The first header of a text: what stands before it and after it.  It ends at the first closing tag
    after its opening tag. -/
def header? (cs : List Char) : Option (List Char × List Char) := do
  let (before, inside) ← Text.cut? headerOpen.toList cs
  let (_, after) ← Text.cut? headerClose.toList inside
  return (before, after)

/-- What follows a header is shorter than the text. -/
theorem length_after_header? {cs before after : List Char} (h : header? cs = some (before, after)) :
    after.length < cs.length := by
  obtain ⟨⟨b, inside⟩, hp, h⟩ := Option.bind_eq_some_iff.1 h
  obtain ⟨⟨i, a⟩, hq, h⟩ := Option.bind_eq_some_iff.1 h
  obtain ⟨rfl, rfl⟩ : b = before ∧ a = after := by simpa using h
  have h1 := congrArg List.length (Text.eq_append_of_cut? hp)
  have h2 := congrArg List.length (Text.eq_append_of_cut? hq)
  have h3 : 0 < headerOpen.toList.length := by decide
  simp only [List.length_append] at h1 h2
  omega

/-- The text with every header replaced. -/
def replaceHeaders (new cs : List Char) : List Char :=
  match _h : header? cs with
  | none => cs
  | some (before, after) => before ++ new ++ replaceHeaders new after
termination_by cs.length
decreasing_by exact length_after_header? _h

/-- The start page with the routes. -/
def rewire (app : String) : String :=
  String.ofList
    (replaceHeaders routerElement.toList
      (replaceFirst logoImport.toList routerImport.toList app.toList))

end ServiceCompiler.Scaffold

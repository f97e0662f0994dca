import ServiceCompiler.Text.LetterCase

namespace ServiceCompiler.Naming

/-!
# Singular forms

English singulars by endings: the first ending of the table that a word has is replaced.  Upper and
lower case are different letters here, so a word in capitals usually stays as it is.
-/

/-- How a word is recognized: as a whole, or by its ending. -/
inductive Ending where
  | whole (word : String)
  | tail (ending : String)
  deriving DecidableEq, Repr

/-- The letters before `ves` that turn it into `fe`. -/
def lettersBeforeVes : List Char := "abcdeghijkmnopqstuvwxyz".toList

/-- The letters before `ies` that turn it into `y`. -/
def lettersBeforeIes : List Char := "bcdfghjklmnpqrstvwxz".toList

/-- The endings and their replacements, in the order in which they are tried. -/
def singularEndings : List (Ending × String) :=
  ([ (.tail "zombies", "zombie"), (.tail "moves", "move"), (.tail "sexes", "sex"),
    (.tail "children", "child"), (.tail "men", "man"), (.tail "people", "person"),
    (.tail "databases", "database"), (.whole "quizzes", "quiz"), (.tail "matrices", "matrix"),
    (.tail "indices", "index"), (.tail "vertices", "vertex"), (.whole "oxen", "ox"),
    (.tail "aliases", "alias"), (.tail "statuses", "status"), (.tail "viri", "virus"),
    (.tail "octopi", "octopus"), (.tail "testes", "testis"), (.tail "axes", "axis"),
    (.tail "crises", "crisis"), (.tail "shoes", "shoe"), (.tail "oes", "o"), (.tail "buses", "bus"),
    (.tail "lice", "louse"), (.tail "mice", "mouse"), (.tail "shes", "sh"), (.tail "sses", "ss"),
    (.tail "ches", "ch"), (.tail "xes", "x"), (.tail "movies", "movie"),
    (.tail "series", "series") ] : List (Ending × String))
  ++ lettersBeforeIes.reverse.map (fun c => (.tail (c.toString ++ "ies"), c.toString ++ "y"))
  ++ ([ (.tail "quies", "quy"), (.tail "rves", "rf"), (.tail "lves", "lf"), (.tail "tives", "tive"),
    (.tail "hives", "hive") ] : List (Ending × String))
  ++ lettersBeforeVes.reverse.map (fun c => (.tail (c.toString ++ "ves"), c.toString ++ "fe"))
  ++ ([ (.tail "theses", "thesis"), (.tail "synopses", "synopsis"), (.tail "prognoses", "prognosis"),
    (.tail "parentheses", "parenthesis"), (.tail "diagnoses", "diagnosis"), (.tail "bases", "basis"),
    (.tail "analyses", "analysis"), (.tail "ia", "ium"), (.tail "ta", "tum"), (.tail "news", "news"),
    (.tail "s", "") ] : List (Ending × String))

/-- Words that are singular and plural at once. -/
def uncountables : List String :=
  ["equipment", "information", "rice", "money", "species", "series", "fish", "sheep", "jeans",
   "police"]

/-- Whether the last of the words separated by spaces has no plural of its own. -/
def isUncountable (word : String) : Bool :=
  let last := ((Text.splitOn ' ' word.toList).getLast?).getD []
  uncountables.contains (Text.lower (String.ofList last))

/-- The word with this ending replaced, when it has it. -/
def Ending.replace? (replacement word : String) : Ending → Option String
  | .whole w => if word = w then some replacement else none
  | .tail ending =>
    (Text.stripTail? ending.toList word.toList).map fun stem => String.ofList stem ++ replacement

def singular (word : String) : String :=
  if isUncountable word then word
  else
    (singularEndings.findSome? fun (ending, replacement) => ending.replace? replacement word).getD word

end ServiceCompiler.Naming

import ServiceCompiler.Proofs.Directive.Dropped
import ServiceCompiler.Proofs.Sql.Markers

namespace ServiceCompiler

open List Rule Line Text

open Text (Scan ReadsOff literal readsOff_literal readsOff_run1 readsOff_skip readsOff_ledBy
  stops_append)

variable {text : String} {fields : List String}

/-!
# Directives about routes, as they are written

A route or a guard is written in one way, and a line in which it is written so is read as it.

* `Rule.claiming?_append` — the rule that claims a line is among those whose lead fits the beginning of the line.
* `listText`, `getText`, `insertText`, `guardText` — the lines.
* `readsOff_routePath`, `readsOff_quotedWord`, `readsOff_columnList` — what is read off their parts.
* `step_of_routeTexts` — what a step does at each of these lines, whatever the service is.
-/

/-! ### The rule that claims a line -/

/-- Whether a line that begins with `front` can begin with the lead of the rule, too. -/
def Rule.meets (rule : Rule) (front : List Char) : Bool :=
  rule.lead.toList.isPrefixOf front || front.isPrefixOf rule.lead.toList

theorem Rule.meets_of_claims {rule : Rule} {front rest : List Char} (h : rule.claims (front ++ rest)) :
    rule.meets front := by
  have hlead := hasLead_iff.1 (Bool.and_eq_true_iff.1 h).1
  rw [meets, Bool.or_eq_true, isPrefixOf_iff_prefix, isPrefixOf_iff_prefix]
  exact prefix_or_prefix_of_prefix hlead (prefix_append front rest)

/-- Only the rules that the beginning of a line meets have a say. -/
theorem Rule.claiming?_append (front rest : List Char) :
    claiming? (front ++ rest) = (all.filter (·.meets front)).find? (·.claims (front ++ rest)) := by
  rw [claiming?, find?_filter]
  congr 1
  funext rule
  rw [Bool.eq_iff_iff, decide_eq_true_iff]
  exact ⟨fun h => ⟨meets_of_claims h, h⟩, fun h => h.2⟩

/-- The rules that the beginnings of the lines below meet. -/
theorem Rule.all_filter_meets :
    all.filter (·.meets "when asked for ".toList) =
      [ (scanning "list route" "when asked for " (offerScan ", offer all items from " .listAll)).marked
          "offer all items from",
        (scanning "get route" "when asked for " (offerScan ", retrieve item by id from " .getById)).marked
          "retrieve item by id from" ] ∧
    all.filter (·.meets "when posted to ".toList) =
      [(scanning "insert route" "when posted to " insertRouteScan).marked "insert into"] ∧
    all.filter (·.meets "whisper: auth route ".toList) =
      [scanning "auth route" "whisper: auth route " guardScan] ∧
    all.filter (·.meets "whisper: db migration ".toList) =
      [scanning "migration" "whisper: db migration " migrationScan] := by
  simp [all, meets, fixed, scanning, choosing, marked]

/-! ### Parts of a line -/

def inQuotes (text : String) : String := "'" ++ text ++ "'"

def inBraces (text : String) : String := "\x7b" ++ text ++ "\x7d"

section Parts

variable {rest : List Char}

theorem IsRoutePath.isPathChar {path : String} (h : IsRoutePath path) {c : Char} (hc : c ∈ path.toList) :
    isPathChar c := by
  obtain ⟨cs, hpath, hcs⟩ := h
  rw [hpath] at hc
  rcases mem_cons.1 hc with rfl | hc
  · rfl
  · exact hcs c hc

theorem readsOff_routePath {path : String} (h : IsRoutePath path)
    (hrest : ∀ c, rest.head? = some c → isPathChar c = false) :
    ReadsOff routePath (path.toList ++ rest) path rest := by
  obtain ⟨cs, hpath, hcs⟩ := h
  exact readsOff_ledBy hpath hcs hrest

/-- A run of a class between two texts, of which the second begins with no character of the class. -/
theorem readsOff_enclosed {p : Char → Bool} {word : String} (hne : word ≠ "") (hword : ∀ c ∈ word.toList, p c)
    (front : String) {back : String} (hback : back.toList.head?.any (!p ·) = true) :
    ReadsOff (do literal front; let text ← run1 p; literal back; return text)
      ((front ++ word ++ back).toList ++ rest) word rest := by
  rw [String.toList_append, String.toList_append, append_assoc, append_assoc]
  exact (readsOff_literal _ _).bind ((readsOff_run1 hne hword (stops_append hback _)).bind (readsOff_literal _ _).last)

theorem readsOff_quotedWord {word : String} (h : IsPlainWord word) :
    ReadsOff quotedWord ((inQuotes word).toList ++ rest) word rest :=
  readsOff_enclosed h.1 h.2 "'" (by decide)

theorem readsOff_quotedText (hne : text ≠ "") (hquote : '\'' ∉ text.toList) :
    ReadsOff quotedText ((inQuotes text).toList ++ rest) text rest := by
  refine readsOff_enclosed hne (fun c hc => ?_) "'" (by decide)
  rw [bne_iff_ne]
  exact fun h => hquote (h ▸ hc)

theorem readsOff_columnList {p : Char → Bool} (hp : p '\x7d' = false) (hne : text ≠ "")
    (htext : ∀ c ∈ text.toList, p c) : ReadsOff (columnList p) ((inBraces text).toList ++ rest) text rest := by
  refine readsOff_enclosed hne htext "\x7b" ?_
  show (!p '\x7d') = true
  rw [hp, Bool.not_false]

/-- The opening word with one blank behind it. -/
theorem readsOff_whisper (hrest : ∀ c, rest.head? = some c → isGap c = false) :
    ReadsOff whisper ("whisper: ".toList ++ rest) () rest := by
  have hsplit : "whisper: ".toList = "whisper:".toList ++ [' '] := by decide
  rw [hsplit, append_assoc]
  exact (readsOff_literal _ _).bind (readsOff_skip (forall_mem_singleton.2 rfl) hrest)

end Parts

/-- The text of a list of names is read back. -/
theorem bodyFieldsOfText_intercalate (h : ∀ f ∈ fields, f ≠ "" ∧ IsTrimmed f.toList ∧ ',' ∉ f.toList) :
    bodyFieldsOfText (", ".intercalate fields) = fields := by
  have hentries : ∀ s : String, bodyFieldsOfText s = (listEntries s.toList).filter (· != "") := by
    intro s
    rw [listEntries]
    split
    · rename_i hempty
      rw [bodyFieldsOfText, List.isEmpty_iff.1 hempty]
      rfl
    · rfl
  rw [hentries, listEntries_intercalate h, filter_eq_self]
  exact fun f hf => by simpa using (h f hf).1

theorem bodyFieldsOfText_words (h : ∀ f ∈ fields, IsPlainWord f) :
    bodyFieldsOfText (", ".intercalate fields) = fields := by
  refine bodyFieldsOfText_intercalate fun f hf => ⟨(h f hf).1, isTrimmed_of_forall fun c hc => ?_, ?_⟩
  · exact not_isBlank_of_isWordChar ((h f hf).2 c hc)
  · exact (h f hf).isStatementName.notMem rfl

/-! ### Lines -/

/-- The line that lists the items of a collection. -/
def listText (path collection : String) : String :=
  "when asked for " ++ path ++ ", offer all items from " ++ inQuotes collection

/-- The line that retrieves one item of a collection. -/
def getText (path collection : String) : String :=
  "when asked for " ++ path ++ ", retrieve item by id from " ++ inQuotes collection

/-- The line that inserts a document with these fields into a collection. -/
def insertText (path : String) (fields : List String) (collection : String) : String :=
  "when posted to " ++ path ++ " with body " ++ inBraces (", ".intercalate fields) ++ ", insert into "
    ++ inQuotes collection ++ ", return inserted document"

def guardText (path : String) : String := "whisper: auth route " ++ path ++ " requires login"

section Lines

variable (path collection : String)

theorem toList_listText : (listText path collection).toList =
    "when asked for ".toList ++
      (path.toList ++ (", offer all items from ".toList ++ (inQuotes collection).toList)) := by
  show ("when asked for " ++ path ++ ", offer all items from " ++ inQuotes collection).toList = _
  simp only [String.toList_append, append_assoc]

theorem toList_getText : (getText path collection).toList =
    "when asked for ".toList ++
      (path.toList ++ (", retrieve item by id from ".toList ++ (inQuotes collection).toList)) := by
  show ("when asked for " ++ path ++ ", retrieve item by id from " ++ inQuotes collection).toList = _
  simp only [String.toList_append, append_assoc]

theorem toList_insertText (fields : List String) : (insertText path fields collection).toList =
    "when posted to ".toList ++ (path.toList ++ (" with body ".toList ++ ((inBraces (", ".intercalate fields)).toList ++
      (", insert into ".toList ++ ((inQuotes collection).toList ++ ", return inserted document".toList))))) := by
  show ("when posted to " ++ path ++ " with body " ++ inBraces (", ".intercalate fields) ++ ", insert into "
    ++ inQuotes collection ++ ", return inserted document").toList = _
  simp only [String.toList_append, append_assoc]

theorem toList_guardText : (guardText path).toList =
    "whisper: auth route ".toList ++ (path.toList ++ " requires login".toList) := by
  show ("whisper: auth route " ++ path ++ " requires login").toList = _
  simp only [String.toList_append, append_assoc]

end Lines

/-! ### Readings -/

/-- A line is what the rule that claims it reads off it. -/
theorem Line.directive?_of_claiming (line : Line) {name lead marker : String} {scan : Scan Directive}
    (h : claiming? line.text.toList = some ((scanning name lead scan).marked marker)) :
    line.directive? = scan.anywhere? line.text.toList := by
  have harguments : ((scanning name lead scan).marked marker).arguments line.text.toList =
      (scan.anywhere? line.text.toList).map Except.ok := rfl
  rw [directive?, Directive.read, h]
  simp only [harguments]
  cases scan.anywhere? line.text.toList <;> rfl

theorem Line.directive?_of_readsOff {name lead marker : String} {scan : Scan Directive} {d : Directive}
    (hclaiming : claiming? text.toList = some ((scanning name lead scan).marked marker))
    (hscan : ReadsOff scan text.toList d []) (n : Int) : directive? { number := n, text } = some d := by
  rw [directive?_of_claiming { number := n, text } hclaiming]
  exact hscan.anywhere?

theorem Rule.claims_iff {rule : Rule} {line : List Char} :
    rule.claims line ↔ rule.lead.toList <+: line ∧ rule.marker.toList <:+: line := by
  rw [claims, Bool.and_eq_true, hasLead_iff, contains_iff]

/-- The line that retrieves one item does not ask for all of them: `all` is none of its words. -/
theorem not_infix_getText {path collection : String} (hpath : ' ' ∉ path.toList)
    (hcollection : ' ' ∉ collection.toList) :
    ¬ "offer all items from".toList <:+: (getText path collection).toList := by
  intro h
  -- A word between blanks of the marker would be a piece of the line between blanks.
  have hwords : "offer all items from".toList =
      "offer".toList ++ ' ' :: ("all".toList ++ ' ' :: "items from".toList) := by decide
  rw [hwords] at h
  have hall := Text.mem_splitOn_of_infix _ _ _ h (by decide)
  have hfront : "when asked for ".toList = "when asked for".toList ++ [' '] := by decide
  have hmiddle : ", retrieve item by id from ".toList = [',', ' '] ++ ("retrieve item by id from".toList ++ [' ']) := by
    decide
  have hfirst : ' ' ∉ path.toList ++ [','] := by simpa using hpath
  have hlast : ' ' ∉ (inQuotes collection).toList := by simpa [inQuotes] using hcollection
  have hpieces : (getText path collection).toList =
      "when asked for".toList ++ ' ' :: ((path.toList ++ [',']) ++ ' ' ::
        ("retrieve item by id from".toList ++ ' ' :: (inQuotes collection).toList)) := by
    rw [toList_getText, hfront, hmiddle]
    simp only [append_assoc, cons_append, nil_append]
  rw [hpieces, splitOn_append_cons, splitOn_append_cons, splitOn_append_cons,
    splitOn_of_notMem hfirst, splitOn_of_notMem hlast, mem_append, mem_append, mem_append,
    mem_singleton, mem_singleton] at hall
  rcases hall with hall | hall | hall | hall
  · exact absurd hall (by decide)
  · have hcomma : ',' ∈ "all".toList := by simp [hall]
    exact absurd hcomma (by decide)
  · exact absurd hall (by decide)
  · have hquote : '\'' ∈ "all".toList := by simp [hall, inQuotes]
    exact absurd hquote (by decide)

section Readings

variable (n : Int) {path collection : String} (hpath : IsRoutePath path) (hcollection : IsPlainWord collection)

include hpath hcollection

omit hpath hcollection in
theorem infix_of_marker {marker words : String} (h : marker.toList <:+: words.toList) : marker.toList <:+:
    "when asked for ".toList ++ (path.toList ++ (words.toList ++ (inQuotes collection).toList)) :=
  h.trans ⟨"when asked for ".toList ++ path.toList, (inQuotes collection).toList, by simp only [append_assoc]⟩

theorem readsOff_offerScan {words : String} (hwords : words.toList.head?.any (!isPathChar ·) = true)
    (action : Action) : ReadsOff (offerScan words action)
      ("when asked for ".toList ++ (path.toList ++ (words.toList ++ (inQuotes collection).toList)))
      (.route { method := "GET", path, action, collection }) [] := by
  rw [← append_nil (inQuotes collection).toList]
  exact (readsOff_literal _ _).bind ((readsOff_routePath hpath (stops_append hwords _)).bind
    ((readsOff_literal _ _).bind (readsOff_quotedWord hcollection).last))

theorem directive?_listText :
    directive? { number := n, text := listText path collection } =
      some (.route { method := "GET", path, action := .listAll, collection }) := by
  have hclaiming : claiming? (listText path collection).toList = some (.marked "offer all items from"
      (scanning "list route" "when asked for " (offerScan ", offer all items from " .listAll))) := by
    rw [toList_listText, claiming?_append, all_filter_meets.1]
    exact find?_cons_of_pos (claims_iff.2 ⟨prefix_append _ _, infix_of_marker ⟨", ".toList, [' '], rfl⟩⟩)
  refine directive?_of_readsOff hclaiming ?_ n
  rw [toList_listText]
  exact readsOff_offerScan hpath hcollection (by decide) _

theorem directive?_getText :
    directive? { number := n, text := getText path collection } =
      some (.route { method := "GET", path, action := .getById, collection }) := by
  -- The rule for lists of items comes first and has the same lead; only its marker keeps it off this line.
  have hother := not_infix_getText (fun h => absurd (hpath.isPathChar h) (by decide))
    (fun h => absurd (hcollection.2 ' ' h) (by decide))
  have hclaiming : claiming? (getText path collection).toList = some (.marked "retrieve item by id from"
      (scanning "get route" "when asked for " (offerScan ", retrieve item by id from " .getById))) := by
    rw [toList_getText] at hother ⊢
    rw [claiming?_append, all_filter_meets.1]
    refine (find?_cons_of_neg fun h => ?_).trans ?_
    · obtain ⟨-, hinfix⟩ := claims_iff.1 h
      exact hother hinfix
    exact find?_cons_of_pos (claims_iff.2 ⟨prefix_append _ _, infix_of_marker ⟨", ".toList, [' '], rfl⟩⟩)
  refine directive?_of_readsOff hclaiming ?_ n
  rw [toList_getText]
  exact readsOff_offerScan hpath hcollection (by decide) _

theorem directive?_insertText (hne : fields ≠ []) (hfields : ∀ f ∈ fields, IsPlainWord f) :
    directive? { number := n, text := insertText path fields collection } =
      some (.route { method := "POST", path, action := .insert, collection, bodyFields := fields }) := by
  have hmarker : "insert into".toList <:+: ", insert into ".toList := ⟨", ".toList, [' '], rfl⟩
  have hclaiming : claiming? (insertText path fields collection).toList =
      some ((scanning "insert route" "when posted to " insertRouteScan).marked "insert into") := by
    rw [toList_insertText, claiming?_append, all_filter_meets.2.1]
    refine find?_cons_of_pos (claims_iff.2 ⟨prefix_append _ _, hmarker.trans ?_⟩)
    exact ⟨"when posted to ".toList ++
        (path.toList ++ (" with body ".toList ++ (inBraces (", ".intercalate fields)).toList)),
      (inQuotes collection).toList ++ ", return inserted document".toList, by simp only [append_assoc]⟩
  -- The braces are read only if something stands in them, and something does, since the fields can be read from it.
  have hlist : ", ".intercalate fields ≠ "" := by
    intro h
    rw [← bodyFieldsOfText_words hfields, h] at hne
    exact hne rfl
  have hchars : ∀ c ∈ (", ".intercalate fields).toList, (isWordChar c || isGap c || c == ',') = true := by
    refine forall_mem_intercalate (all_eq_true.1 (by decide)) fun f hf c hc => ?_
    rw [(hfields f hf).2 c hc, Bool.true_or, Bool.true_or]
  have hscan : ReadsOff insertRouteScan (insertText path fields collection).toList
      (.route { method := "POST", path, action := .insert, collection,
                bodyFields := bodyFieldsOfText (", ".intercalate fields) }) [] := by
    rw [toList_insertText, ← append_nil ", return inserted document".toList]
    exact (readsOff_literal _ _).bind ((readsOff_routePath hpath (stops_append (by decide) _)).bind
      ((readsOff_literal _ _).bind ((readsOff_columnList rfl hlist hchars).bind ((readsOff_literal _ _).bind
          ((readsOff_quotedWord hcollection).bind (readsOff_literal _ _).last)))))
  rw [bodyFieldsOfText_words hfields] at hscan
  exact directive?_of_readsOff hclaiming hscan n

omit hcollection in
theorem directive?_guardText : directive? { number := n, text := guardText path } = some (.guard path) := by
  have hclaiming : claiming? (guardText path).toList =
      some ((scanning "auth route" "whisper: auth route " guardScan).marked "") := by
    rw [toList_guardText, claiming?_append, all_filter_meets.2.2.1]
    exact find?_cons_of_pos (claims_iff.2 ⟨prefix_append _ _, nil_infix⟩)
  have hlead : "whisper: auth route ".toList = "whisper: ".toList ++ "auth route ".toList := by decide
  refine directive?_of_readsOff hclaiming ?_ n
  rw [toList_guardText, hlead, append_assoc, ← append_nil " requires login".toList]
  exact (readsOff_whisper (stops_append (by decide) _)).bind ((readsOff_literal _ _).bind
    ((readsOff_routePath hpath (stops_append (by decide) _)).bind (readsOff_literal _ _).last))

end Readings

/-! ### Steps -/

theorem appendNew_eq (xs : List String) (x : String) : appendNew xs x = if x ∈ xs then xs else xs ++ [x] := by
  simp only [appendNew, contains_iff_mem]

/-- A path that is put on a list unless it is there is on it once, or as often as before. -/
theorem count_appendNew (xs : List String) (x : String) : (appendNew xs x).count x = max 1 (xs.count x) := by
  rw [appendNew_eq]
  split
  · rename_i h
    have hpos := count_pos_iff.2 h
    omega
  · rename_i h
    rw [count_append, count_eq_zero.2 h, count_singleton_self]
    rfl

/-- **Routes are taken as they are written.** Whatever the service is, each of the four lines does the one thing it
    says: a route is put behind the others with the method, the path, the collection and the fields of the line, and a
    guarded path is on the list from then on, put there only if it was not. -/
theorem step_of_routeTexts (s : Service) (n : Int) {path collection : String} {fields : List String}
    (hpath : IsRoutePath path) (hcollection : IsPlainWord collection) (hne : fields ≠ [])
    (hfields : ∀ f ∈ fields, IsPlainWord f) :
    s.step { number := n, text := listText path collection } =
        .ok ({ s with routes := s.routes ++ [{ method := "GET", path, action := .listAll, collection }] }, none) ∧
      s.step { number := n, text := getText path collection } =
        .ok ({ s with routes := s.routes ++ [{ method := "GET", path, action := .getById, collection }] }, none) ∧
      s.step { number := n, text := insertText path fields collection } =
        .ok ({ s with routes := s.routes ++
          [{ method := "POST", path, action := .insert, collection, bodyFields := fields }] }, none) ∧
      ∃ guarded,
        s.step { number := n, text := guardText path } = .ok ({ s with auth := { s.auth with guarded } }, none) ∧
          guarded = (if path ∈ s.auth.guarded then s.auth.guarded else s.auth.guarded ++ [path]) ∧
          guarded.count path = max 1 (s.auth.guarded.count path) := by
  refine ⟨Line.step_of_directive? (directive?_listText n hpath hcollection) s,
    Line.step_of_directive? (directive?_getText n hpath hcollection) s,
    Line.step_of_directive? (directive?_insertText n hpath hcollection hne hfields) s, appendNew s.auth.guarded path,
    Line.step_of_directive? (directive?_guardText n hpath) s, ?_⟩
  exact ⟨appendNew_eq s.auth.guarded path, count_appendNew s.auth.guarded path⟩

/-- A path of slashes and colons, in a service that guards it already. -/
theorem step_of_routeTexts_colons :
    (({ auth := { guarded := ["//:id:/"] } } : Service).step
        { number := 7
          text := "when posted to //:id:/ with body \x7bname, _2\x7d, insert into 'items', " ++
            "return inserted document" } =
      .ok ({ auth := { guarded := ["//:id:/"] },
             routes := [{ method := "POST", path := "//:id:/", action := .insert, collection := "items",
                          bodyFields := ["name", "_2"] }] }, none)) ∧
    (({ auth := { guarded := ["//:id:/"] } } : Service).step
        { number := 7, text := "whisper: auth route //:id:/ requires login" } =
      .ok ({ auth := { guarded := ["//:id:/"] } }, none)) := by
  have hpath : IsRoutePath "//:id:/" := ⟨"/:id:/".toList, by decide, List.all_eq_true.1 (by decide)⟩
  have hitems : IsPlainWord "items" := ⟨by decide, List.all_eq_true.1 (by decide)⟩
  have hfields : ∀ f ∈ ["name", "_2"], IsPlainWord f := by
    simp only [List.forall_mem_cons]
    exact ⟨⟨by decide, List.all_eq_true.1 (by decide)⟩, ⟨by decide, List.all_eq_true.1 (by decide)⟩,
      List.forall_mem_nil _⟩
  obtain ⟨-, -, hinsert, guarded, hguard, hguarded, -⟩ :=
    step_of_routeTexts { auth := { guarded := ["//:id:/"] } } 7 hpath hitems (by simp) hfields
  rw [if_pos (by simp)] at hguarded
  subst hguarded
  exact ⟨hinsert, hguard⟩

end ServiceCompiler

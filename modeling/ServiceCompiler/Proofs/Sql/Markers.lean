import ServiceCompiler.Proofs.Directive.WellFormed

namespace ServiceCompiler

open Text
open List hiding splitOn

/-!
# The parameters of a statement

Statements read from their text: where the parameters are, what they are called, and, of a statement that inserts,
which column gets which value.

* `Binding.mark` — the character in front of each parameter, or in its place.
* `parameterNames` — the names behind the marks.  What a name may be made of is left open.
* `readInsert?` — the table, the columns and the values of a statement that inserts.
* `readInsert?_insert` — such a statement is read back.
* `Engine.Binds` — the arguments that a statement takes; `binds_selectAll`, `binds_selectById` and `binds_insert` say
  which these are.
-/

variable {p : Char → Bool} {c : Char} {name : String} {entries : List String}

/-! ### Reading -/

/-- The character that a parameter is marked by. -/
def Binding.mark : Binding → Char
  | .positional => '?'
  | .named => '@'

def parameterNames (isNameChar : Char → Bool) : List Char → List String
  | [] => []
  | c :: cs =>
    if c = Binding.named.mark then String.ofList (cs.takeWhile isNameChar) :: parameterNames isNameChar cs
    else parameterNames isNameChar cs

/-- The entries of a list with commas. -/
def listEntries (cs : List Char) : List String :=
  if cs.isEmpty then [] else (splitOn ',' cs).map fun entry => String.ofList (trim entry)

/-- The parts of a statement that inserts a row. -/
structure InsertParts where
  table : String
  columns : List String
  values : List String
  deriving DecidableEq, Repr

def readInsert? (statement : List Char) : Option InsertParts := do
  let rest ← stripLead? "INSERT INTO ".toList statement
  let (before, rest) ← cutAt? '(' rest
  let table ← stripTail? [' '] before
  let (columns, rest) ← cutAt? ')' rest
  let rest ← stripLead? " VALUES (".toList rest
  let (values, rest) ← cutAt? ')' rest
  if rest.isEmpty then
    return { table := String.ofList table, columns := listEntries columns, values := listEntries values }
  else none

/-! ### Names in statements -/

/-- A text that can stand for a table or a column: it has none of the characters that statements give a meaning. -/
def IsStatementName (s : String) : Prop := ∀ c ∈ s.toList, isFieldChar c

theorem IsPlainWord.isStatementName {s : String} (h : IsPlainWord s) : IsStatementName s := fun c hc => by
  rw [isFieldChar, h.2 c hc]
  rfl

namespace IsStatementName

variable {s : String} (h : IsStatementName s)

include h

theorem notMem (hc : isFieldChar c = false) : c ∉ s.toList := fun hmem =>
  absurd (h c hmem) (by simp [hc])

theorem mark_notMem (b : Binding) : b.mark ∉ s.toList := by
  cases b with
  | positional => exact h.notMem (by decide)
  | named => exact h.notMem (by decide)

end IsStatementName

theorem toList_placeholder (e : Engine) (name : String) :
    (e.placeholder name).toList = e.binding.mark :: (if e.binding = .named then name.toList else []) := by
  cases e with
  | mysql =>
    show "?".toList = _
    rfl
  | mssql =>
    show ("@" ++ name).toList = _
    rw [String.toList_append]
    rfl

/-- A placeholder has no character of its own but the mark. -/
theorem notMem_placeholder {e : Engine} (hc : c ∉ name.toList) (hmark : c ≠ e.binding.mark) :
    c ∉ (e.placeholder name).toList := by
  rw [toList_placeholder, mem_cons, not_or]
  refine ⟨hmark, ?_⟩
  split
  · exact hc
  · exact not_mem_nil

theorem count_mark_placeholder (e : Engine) (h : IsStatementName name) :
    (e.placeholder name).toList.count e.binding.mark = 1 := by
  have hname := count_eq_zero.2 (h.mark_notMem e.binding)
  rw [toList_placeholder, count_cons_self]
  split
  · rw [hname]
  · rfl

/-! ### Lists -/

theorem count_mark_intercalate {b : Binding} (h : ∀ s ∈ entries, s.toList.count b.mark = 1) :
    (", ".intercalate entries).toList.count b.mark = entries.length := by
  have hcomma : ", ".toList.count b.mark = 0 := by cases b <;> rfl
  induction entries with
  | nil => rfl
  | cons first rest ih =>
    obtain ⟨hfirst, hrest⟩ := forall_mem_cons.1 h
    cases rest with
    | nil => rwa [String.intercalate_singleton]
    | cons second rest =>
      rw [String.intercalate_cons_cons, String.toList_append, String.toList_append, count_append, count_append,
        hfirst, hcomma, ih hrest]
      simp only [length_cons]
      omega

/-- A list holds the characters of its entries and what stands between them. -/
theorem forall_mem_intercalate {P : Char → Prop} (hbetween : ∀ c ∈ ", ".toList, P c)
    (h : ∀ s ∈ entries, ∀ c ∈ s.toList, P c) : ∀ c ∈ (", ".intercalate entries).toList, P c := by
  induction entries with
  | nil => exact fun c hc => absurd hc not_mem_nil
  | cons first rest ih =>
    obtain ⟨hfirst, hrest⟩ := forall_mem_cons.1 h
    cases rest with
    | nil => rwa [String.intercalate_singleton]
    | cons second rest =>
      rw [String.intercalate_cons_cons, String.toList_append, String.toList_append]
      simp only [forall_mem_append]
      exact ⟨⟨hfirst, hbetween⟩, ih hrest⟩

theorem notMem_intercalate (hc : c ∉ ", ".toList) (h : ∀ s ∈ entries, c ∉ s.toList) :
    c ∉ (", ".intercalate entries).toList := by
  have hall := forall_mem_intercalate (P := (· ≠ c)) (fun d hd heq => hc (heq ▸ hd))
    (fun s hs d hd heq => h s hs (heq ▸ hd))
  exact fun hmem => hall c hmem rfl

/-- The first comma of a list stands behind its first entry, and the next entry with a blank in front of it begins the
    rest. -/
theorem toList_intercalate_cons_cons (first second : String) (rest : List String) :
    (", ".intercalate (first :: second :: rest)).toList =
      first.toList ++ ',' :: (", ".intercalate ((" " ++ second) :: rest)).toList := by
  cases rest <;> simp [String.toList_intercalate]

/-- Entries without commas are cut apart again, each but the first with the blank in front of it. -/
theorem splitOn_intercalate {first : String} {rest : List String} (h : ∀ s ∈ first :: rest, ',' ∉ s.toList) :
    splitOn ',' (", ".intercalate (first :: rest)).toList = first.toList :: rest.map fun s => ' ' :: s.toList := by
  induction rest generalizing first with
  | nil =>
    rw [String.intercalate_singleton]
    exact splitOn_of_notMem (h first mem_cons_self)
  | cons second rest ih =>
    obtain ⟨hfirst, hrest⟩ := forall_mem_cons.1 h
    obtain ⟨hsecond, -⟩ := forall_mem_cons.1 hrest
    have hblank : ∀ s ∈ (" " ++ second) :: rest, ',' ∉ s.toList :=
      forall_mem_cons.2 ⟨by simpa using hsecond, fun s hs => hrest s (mem_cons_of_mem _ hs)⟩
    rw [toList_intercalate_cons_cons, splitOn_append_cons, splitOn_of_notMem hfirst, ih hblank]
    simp

theorem listEntries_intercalate (h : ∀ s ∈ entries, s ≠ "" ∧ IsTrimmed s.toList ∧ ',' ∉ s.toList) :
    listEntries (", ".intercalate entries).toList = entries := by
  cases entries with
  | nil => rfl
  | cons first rest =>
    obtain ⟨⟨hne, htrimmed, -⟩, hrest⟩ := forall_mem_cons.1 h
    have hsplit := splitOn_intercalate fun s hs => (h s hs).2.2
    have hnonempty : (", ".intercalate (first :: rest)).toList.isEmpty = false := by
      cases hlist : (", ".intercalate (first :: rest)).toList with
      | nil =>
        rw [hlist] at hsplit
        exact absurd (String.toList_eq_nil_iff.1 (cons.inj hsplit).1.symm) hne
      | cons c cs => rfl
    rw [listEntries, hnonempty, if_neg Bool.false_ne_true, hsplit, map_cons, trim_of_isTrimmed htrimmed,
      String.ofList_toList, map_map]
    refine congrArg _ ((map_congr_left ?_).trans (map_id _))
    intro s hs
    simp only [Function.comp_apply, trim_blank_cons (c := ' ') rfl, trim_of_isTrimmed (hrest s hs).2.1,
      String.ofList_toList, id_eq]

/-! ### Names of parameters -/

theorem parameterNames_append {cs : List Char} (h : Binding.named.mark ∉ cs) (rest : List Char) :
    parameterNames p (cs ++ rest) = parameterNames p rest := by
  induction cs with
  | nil => rfl
  | cons c cs ih =>
    rw [mem_cons, not_or] at h
    rw [cons_append, parameterNames, if_neg (Ne.symm h.1), ih h.2]

theorem parameterNames_of_notMem {cs : List Char} (h : Binding.named.mark ∉ cs) : parameterNames p cs = [] := by
  rw [← append_nil cs, parameterNames_append h]
  rfl

/-- A parameter with a name that ends where the statement goes on. -/
theorem parameterNames_named (hname : Binding.named.mark ∉ name.toList) (hp : ∀ c ∈ name.toList, p c)
    {rest : List Char} (hrest : ∀ c ∈ rest.head?, p c = false) :
    parameterNames p (Binding.named.mark :: (name.toList ++ rest)) = name :: parameterNames p rest := by
  have hrun : (name.toList ++ rest).takeWhile p = name.toList := by
    rw [takeWhile_append_of_pos hp]
    cases rest with
    | nil => simp
    | cons c rest => rw [takeWhile_cons_of_neg (by simp [hrest c rfl]), append_nil]
  rw [parameterNames, if_pos rfl, hrun, String.ofList_toList, parameterNames_append hname]

/-- The placeholders of an engine that binds by name carry these names. -/
theorem parameterNames_placeholders (hcomma : p ',' = false) {names : List String}
    (hnames : ∀ n ∈ names, Binding.named.mark ∉ n.toList ∧ ∀ c ∈ n.toList, p c) {rest : List Char}
    (hrest : ∀ c ∈ rest.head?, p c = false) :
    parameterNames p ((", ".intercalate (names.map Engine.mssql.placeholder)).toList ++ rest) =
      names ++ parameterNames p rest := by
  induction names with
  | nil => rfl
  | cons first names ih =>
    obtain ⟨⟨hfirst, hp⟩, hnames⟩ := forall_mem_cons.1 hnames
    have hplaceholder : (Engine.mssql.placeholder first).toList = Binding.named.mark :: first.toList :=
      toList_placeholder .mssql first
    cases names with
    | nil =>
      rw [map_singleton, String.intercalate_singleton, hplaceholder]
      exact parameterNames_named hfirst hp hrest
    | cons second names =>
      have hend : ∀ others : List Char, ∀ c ∈ (", ".toList ++ others).head?, p c = false := by
        rintro others c ⟨rfl⟩
        exact hcomma
      rw [map_cons, map_cons, String.intercalate_cons_cons, String.toList_append, String.toList_append,
        hplaceholder, append_assoc, append_assoc, cons_append, parameterNames_named hfirst hp (hend _),
        parameterNames_append (by decide)]
      exact congrArg _ (ih hnames)

/-! ### Statements that insert -/

section Insert

variable (e : Engine) {table : String} {columns : List String}

theorem toList_insert (table : String) (columns : List String) :
    (e.insert table columns).toList =
      "INSERT INTO ".toList ++ ((table.toList ++ [' ']) ++ '(' :: ((", ".intercalate columns).toList ++
        ')' :: (" VALUES (".toList ++ ((", ".intercalate (columns.map e.placeholder)).toList ++ [')'])))) := by
  have hopen : " (".toList = [' ', '('] := by decide
  have hmiddle : ") VALUES (".toList = ')' :: " VALUES (".toList := by decide
  have hclose : ")".toList = [')'] := by decide
  unfold Engine.insert
  rw [String.toList_append, String.toList_append, String.toList_append, String.toList_append, String.toList_append,
    String.toList_append, hopen, hmiddle, hclose]
  simp only [append_assoc, cons_append, nil_append]

/-- What a statement that inserts has in front of its values. -/
def insertLead (table : String) (columns : List String) : List Char :=
  "INSERT INTO ".toList ++ ((table.toList ++ [' ']) ++ '(' :: ((", ".intercalate columns).toList ++
    ')' :: " VALUES (".toList))

theorem toList_insert_eq_lead (table : String) (columns : List String) :
    (e.insert table columns).toList =
      insertLead table columns ++ ((", ".intercalate (columns.map e.placeholder)).toList ++ [')']) := by
  have hregroup : ∀ as bs cs ds vs : List Char,
      as ++ (bs ++ '(' :: (cs ++ ')' :: (ds ++ vs))) = as ++ (bs ++ '(' :: (cs ++ ')' :: ds)) ++ vs := by simp
  exact (toList_insert e table columns).trans (hregroup _ _ _ _ _)

/-- The columns of a list that are names are free of what sets the parts of a statement apart. -/
theorem notMem_columns (hc : isFieldChar c = false) (hcomma : c ≠ ',')
    (hcolumns : ∀ name ∈ columns, IsStatementName name) : c ∉ (", ".intercalate columns).toList := by
  refine notMem_intercalate ?_ fun name hname => (hcolumns name hname).notMem hc
  have hblank : c ≠ ' ' := by
    rintro rfl
    exact absurd hc (by decide)
  simp [hcomma, hblank]

theorem mark_notMem_insertLead (b : Binding) (htable : IsStatementName table)
    (hcolumns : ∀ name ∈ columns, IsStatementName name) : b.mark ∉ insertLead table columns := by
  have hlist : b.mark ∉ (", ".intercalate columns).toList := by
    cases b with
    | positional => exact notMem_columns (by decide) (by decide) hcolumns
    | named => exact notMem_columns (by decide) (by decide) hcolumns
  have hlead : b.mark ∉ "INSERT INTO ".toList := by cases b <;> decide
  have hmiddle : b.mark ∉ " VALUES (".toList := by cases b <;> decide
  have hblank : b.mark ∉ [' '] := by cases b <;> decide
  have hopen : b.mark ≠ '(' := by cases b <;> decide
  have hclose : b.mark ≠ ')' := by cases b <;> decide
  unfold insertLead
  refine not_mem_append hlead (not_mem_append (not_mem_append (htable.mark_notMem b) hblank) ?_)
  refine not_mem_cons_of_ne_of_not_mem hopen (not_mem_append hlist ?_)
  exact not_mem_cons_of_ne_of_not_mem hclose hmiddle

theorem count_mark_insert (htable : IsStatementName table) (hcolumns : ∀ name ∈ columns, IsStatementName name) :
    (e.insert table columns).toList.count e.binding.mark = columns.length := by
  have hmarks : ∀ s ∈ columns.map e.placeholder, s.toList.count e.binding.mark = 1 :=
    forall_mem_map.2 fun name hname => count_mark_placeholder e (hcolumns name hname)
  have hend : [')'].count e.binding.mark = 0 := by cases e <;> rfl
  rw [toList_insert_eq_lead, count_append, count_append, count_eq_zero.2 (mark_notMem_insertLead _ htable hcolumns),
    count_mark_intercalate hmarks, hend, length_map]
  omega

/-- Where parameters have names, these are the columns. -/
theorem parameterNames_insert (hcomma : p ',' = false) (hclose : p ')' = false)
    (htable : IsStatementName table) (hcolumns : ∀ name ∈ columns, IsStatementName name)
    (hp : ∀ name ∈ columns, ∀ c ∈ name.toList, p c) :
    parameterNames p (Engine.mssql.insert table columns).toList = columns := by
  have hend : ∀ c ∈ [')'].head?, p c = false := by
    rintro c ⟨rfl⟩
    exact hclose
  rw [toList_insert_eq_lead, parameterNames_append (mark_notMem_insertLead .named htable hcolumns),
    parameterNames_placeholders hcomma (fun name hname => ⟨(hcolumns name hname).mark_notMem .named, hp name hname⟩) hend]
  exact append_nil columns

theorem readInsert?_parts {table : String} {columns values : List Char} (hopen : '(' ∉ table.toList ++ [' '])
    (hcolumns : ')' ∉ columns) (hvalues : ')' ∉ values) :
    readInsert? ("INSERT INTO ".toList ++ ((table.toList ++ [' ']) ++ '(' :: (columns ++ ')' :: (" VALUES (".toList ++
        (values ++ [')']))))) =
      some ⟨table, listEntries columns, listEntries values⟩ := by
  have htable : stripTail? [' '] (table.toList ++ [' ']) = some table.toList := by
    simp [stripTail?, stripLead?]
  unfold readInsert?
  rw [stripLead?_append, Option.bind_eq_bind, Option.bind_some, cutAt?_of_notMem hopen, Option.bind_eq_bind,
    Option.bind_some]
  dsimp only
  rw [htable, Option.bind_some, cutAt?_of_notMem hcolumns, Option.bind_some]
  dsimp only
  rw [stripLead?_append, Option.bind_some, cutAt?_of_notMem hvalues, Option.bind_some, String.ofList_toList]
  rfl

theorem isTrimmed_placeholder (h : IsTrimmed name.toList) : IsTrimmed (e.placeholder name).toList := by
  have hmark : isBlank e.binding.mark = false := by cases e <;> decide
  rw [toList_placeholder]
  refine ⟨?_, ?_⟩
  · rintro c ⟨rfl⟩
    exact hmark
  · intro c hc
    rw [getLast?_cons, Option.some_inj] at hc
    -- The name is left out or ends the placeholder.
    split at hc
    · cases hlast : name.toList.getLast? with
      | none =>
        rw [hlast] at hc
        exact hc ▸ hmark
      | some d =>
        rw [hlast] at hc
        exact hc ▸ h.2 d hlast
    · exact hc ▸ hmark

/-- **A statement that inserts is read back**: its columns, and for each its placeholder. -/
theorem readInsert?_insert (htable : IsStatementName table)
    (hcolumns : ∀ name ∈ columns, IsStatementName name ∧ name ≠ "" ∧ IsTrimmed name.toList) :
    readInsert? (e.insert table columns).toList = some ⟨table, columns, columns.map e.placeholder⟩ := by
  have hnames : ∀ name ∈ columns, IsStatementName name := fun name hname => (hcolumns name hname).1
  have hplaceholders : ∀ c, isFieldChar c = false → c ≠ e.binding.mark →
      ∀ s ∈ columns.map e.placeholder, c ∉ s.toList := by
    intro c hc hmark
    exact forall_mem_map.2 fun name hname => notMem_placeholder ((hnames name hname).notMem hc) hmark
  have hopen : '(' ∉ table.toList ++ [' '] := not_mem_append (htable.notMem (by decide)) (by decide)
  have hclose : ')' ∉ (", ".intercalate columns).toList := notMem_columns (by decide) (by decide) hnames
  have hvalues : ')' ∉ (", ".intercalate (columns.map e.placeholder)).toList :=
    notMem_intercalate (by decide) (hplaceholders ')' (by decide) (by cases e <;> decide))
  have hcolumnEntries : listEntries (", ".intercalate columns).toList = columns :=
    listEntries_intercalate fun name hname =>
      ⟨(hcolumns name hname).2.1, (hcolumns name hname).2.2, (hnames name hname).notMem (by decide)⟩
  have hvalueEntries : listEntries (", ".intercalate (columns.map e.placeholder)).toList = columns.map e.placeholder := by
    refine listEntries_intercalate fun s hs => ⟨?_, ?_, hplaceholders ',' (by decide) (by cases e <;> decide) s hs⟩
    · obtain ⟨name, -, rfl⟩ := mem_map.1 hs
      intro hempty
      have hlist := toList_placeholder e name
      rw [hempty] at hlist
      cases hlist
    · obtain ⟨name, hname, rfl⟩ := mem_map.1 hs
      exact isTrimmed_placeholder e (hcolumns name hname).2.2
  rw [toList_insert, readInsert?_parts hopen hclose hvalues, hcolumnEntries, hvalueEntries]

end Insert

/-! ### Statements and the names of their arguments -/

/-- The statement takes arguments of these names, in this order: it has as many marks, and where marks have names, it
    names these, whatever a name may be made of. -/
structure Engine.Binds (e : Engine) (statement : String) (names : List String) : Prop where
  count_mark : statement.toList.count e.binding.mark = names.length
  parameterNames : e.binding = .named → ∀ isNameChar : Char → Bool, isNameChar ',' = false → isNameChar ')' = false →
    (∀ name ∈ names, ∀ c ∈ name.toList, isNameChar c) → parameterNames isNameChar statement.toList = names

namespace Engine.Binds

variable {e : Engine} {statement : String}

theorem of_notMem (h : ∀ b : Binding, b.mark ∉ statement.toList) : e.Binds statement [] where
  count_mark := count_eq_zero.2 (h e.binding)
  parameterNames := fun _ _ _ _ _ => parameterNames_of_notMem (h .named)

/-- A statement with one parameter, which ends it where it has a name. -/
theorem one (front back : List Char) (hname : IsStatementName name)
    (hstatement : statement.toList = front ++ ((e.placeholder name).toList ++ back))
    (hfront : ∀ b : Binding, b.mark ∉ front) (hback : ∀ b : Binding, b.mark ∉ back)
    (hend : e.binding = .named → back = []) :
    e.Binds statement [name] where
  count_mark := by
    rw [hstatement, count_append, count_append, count_eq_zero.2 (hfront _), count_mark_placeholder e hname,
      count_eq_zero.2 (hback _)]
    rfl
  parameterNames := by
    intro hbinding p _ _ hp
    rw [hstatement, hend hbinding, toList_placeholder, if_pos hbinding, hbinding, parameterNames_append (hfront .named)]
    exact parameterNames_named (hname.mark_notMem .named) (forall_mem_singleton.1 hp) (by simp)

end Engine.Binds

section

variable {table : String} (e : Engine) (htable : IsStatementName table)
include e htable

theorem binds_selectAll : e.Binds (e.selectAll table) [] := by
  refine .of_notMem fun b => ?_
  have hlead : b.mark ∉ "SELECT * FROM ".toList := by cases b <;> decide
  have hstatement : (e.selectAll table).toList = "SELECT * FROM ".toList ++ table.toList := String.toList_append
  exact hstatement ▸ not_mem_append hlead (htable.mark_notMem b)

theorem binds_selectById : e.Binds (e.selectById table) ["id"] := by
  have hname : IsStatementName "id" := all_eq_true.1 (by decide)
  refine .one ("SELECT * FROM ".toList ++ table.toList ++ " WHERE id = ".toList) [] hname ?_ ?_ ?_ fun _ => rfl
  · unfold Engine.selectById
    rw [append_nil, String.toList_append, String.toList_append, String.toList_append]
  · intro b
    have hlead : b.mark ∉ "SELECT * FROM ".toList := by cases b <;> decide
    have hmiddle : b.mark ∉ " WHERE id = ".toList := by cases b <;> decide
    exact not_mem_append (not_mem_append hlead (htable.mark_notMem b)) hmiddle
  · exact fun b => not_mem_nil

theorem binds_insert {columns : List String}
    (hcolumns : ∀ name ∈ columns, IsStatementName name) : e.Binds (e.insert table columns) columns where
  count_mark := count_mark_insert e htable hcolumns
  parameterNames := by
    intro hbinding p hcomma hclose hp
    obtain rfl : e = .mssql := by
      cases e with
      | mysql => cases hbinding
      | mssql => rfl
    exact parameterNames_insert hcomma hclose htable hcolumns hp

end

end ServiceCompiler

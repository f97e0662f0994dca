import ServiceCompiler.Proofs.Code.Token
import ServiceCompiler.Proofs.Routes.RoutesPackage

namespace ServiceCompiler.Code

open List

open Text (isWordChar Octets)

/-!
# The calls that send statements

The calls that send a statement to the database, read from the code of a file line by line.

* `sentCalls` — the calls of a file, each with the function that it stands in and the tokens of its arguments.
* `Reads` — a piece of code that is read as some tokens whatever follows it, and what is read of calls and lists
  (`Reads.call`).
* `IsOperand` — tokens that can be an argument: no comma separates them, and they hold no such call.
* `Writes` — lines and the calls they hold; `writes_send` for a line that sends a statement.
* `Holds` — the same with the functions in which calls stand; `holds_function` for a function.
-/

/-! ### Reading -/

variable {arguments : List (List Token)} {method : String}

/-- The methods that send a statement. -/
def sendMethods : List String := ["ExecContext", "QueryContext"]

/-- A call that sends a statement. -/
structure SentCall where
  method : String
  arguments : List (List Token)
  deriving DecidableEq, Repr

def Token.isOpen (t : Token) : Bool := t == .mark '(' || t == .mark '[' || t == .mark '\x7b'

def Token.isClose (t : Token) : Bool := t == .mark ')' || t == .mark ']' || t == .mark '\x7d'

/-- The arguments up to the bracket that closes the list, cut at the commas that stand in no other bracket.  The
    depth is that of the open brackets; `current` is what was read of the current argument. -/
def argumentsFrom : Nat → List Token → List Token → Option (List (List Token))
  | _, _, [] => none
  | depth, current, t :: ts =>
    if t = .mark ',' ∧ depth = 0 then (argumentsFrom 0 [] ts).map (current :: ·)
    else if t.isOpen then argumentsFrom (depth + 1) (current ++ [t]) ts
    else if t.isClose then if depth = 0 then some [current] else argumentsFrom (depth - 1) (current ++ [t]) ts
    else argumentsFrom depth (current ++ [t]) ts

/-- The call at a token, which has to be the full stop in front of its method.  A call that does not end is one
    without arguments. -/
def callAt? : Token → List Token → Option SentCall
  | .mark '.', .word method :: .mark '(' :: ts =>
    if String.ofList method ∈ sendMethods then some ⟨String.ofList method, (argumentsFrom 0 [] ts).getD []⟩ else none
  | _, _ => none

/-- The calls among some tokens. -/
def callsIn : List Token → List SentCall
  | [] => []
  | t :: ts => (callAt? t ts).toList ++ callsIn ts

/-- Whether a line holds a comment and nothing else. -/
def isCommentLine (line : List Char) : Bool := Text.hasLead ['/', '/'] (line.dropWhile isBlank)

def lineCalls (line : List Char) : List SentCall := if isCommentLine line then [] else callsIn (tokens line)

def startedFunction? (line : List Char) : Option String :=
  (Text.stripLead? "func ".toList line).map beforeParen

/-- The calls of some lines, each with the function it stands in; `function` is the one that has started before. -/
def callsFrom : String → List (List Char) → List (String × SentCall)
  | _, [] => []
  | function, line :: lines =>
    (lineCalls line).map ((startedFunction? line).getD function, ·) ++
      callsFrom ((startedFunction? line).getD function) lines

/-- The calls of a file that send a statement. -/
def sentCalls (code : String) : List (String × SentCall) := callsFrom "" (codeLines code)

/-! ### Tokens without calls -/

/-- Whether a token is none of the methods. -/
def Token.isFree : Token → Bool
  | .word cs => !sendMethods.contains (String.ofList cs)
  | _ => true

theorem callAt?_eq_none {t : Token} {ts : List Token} (h : ∀ next ∈ ts.head?, next.isFree) : callAt? t ts = none := by
  unfold callAt?
  split
  · rename_i method rest
    rw [if_neg]
    intro hmethod
    have hfree := h (.word method) rfl
    simp only [Token.isFree, Bool.not_eq_true', contains_eq_mem, decide_eq_false_iff_not] at hfree
    exact hfree hmethod
  · rfl

/-- Tokens that are no methods are passed over. -/
theorem callsIn_append {front rest : List Token} (hfront : ∀ t ∈ front, t.isFree) (hrest : ∀ t ∈ rest.head?, t.isFree) :
    callsIn (front ++ rest) = callsIn rest := by
  induction front with
  | nil => rfl
  | cons t front ih =>
    obtain ⟨-, hfront⟩ := forall_mem_cons.1 hfront
    have hnext : ∀ next ∈ (front ++ rest).head?, next.isFree := by
      cases front with
      | nil => exact hrest
      | cons u front =>
        rintro next ⟨rfl⟩
        exact hfront u mem_cons_self
    rw [cons_append, callsIn, callAt?_eq_none hnext, ih hfront]
    rfl

theorem callsIn_of_free {ts : List Token} (h : ∀ t ∈ ts, t.isFree) : callsIn ts = [] := by
  rw [← append_nil ts, callsIn_append h (by simp)]
  rfl

/-! ### Arguments -/

/-- Tokens that can be an argument or a part of one. -/
structure IsOperand (ts : List Token) : Prop where
  /-- They are read into the current argument, at every depth, -/
  passed : ∀ depth current rest, argumentsFrom depth current (ts ++ rest) = argumentsFrom depth (current ++ ts) rest
  /-- and hold no call of their own. -/
  free : ∀ t ∈ ts, t.isFree

namespace IsOperand

theorem append {ts us : List Token} (ht : IsOperand ts) (hu : IsOperand us) : IsOperand (ts ++ us) where
  passed := by
    intro depth current rest
    rw [append_assoc, ht.passed, hu.passed, append_assoc]
  free := forall_mem_append.2 ⟨ht.free, hu.free⟩

/-- A token that has no part in the structure of a list. -/
theorem token {t : Token} (hcomma : t ≠ .mark ',') (hopen : t.isOpen = false) (hclose : t.isClose = false)
    (hfree : t.isFree) : IsOperand [t] where
  passed := by
    intro depth current rest
    rw [singleton_append, argumentsFrom, if_neg (by simp [hcomma]), if_neg (by simp [hopen]),
      if_neg (by simp [hclose])]
  free := forall_mem_singleton.2 hfree

theorem word {word : String} (h : word ∉ sendMethods) : IsOperand [.word word.toList] := by
  refine token (by simp) rfl rfl ?_
  simpa [Token.isFree] using h

theorem text (octets : Octets) : IsOperand [.text octets] := token (by simp) rfl rfl rfl

end IsOperand

/-- Tokens that may stand in a bracket: there, commas separate nothing that counts. -/
structure IsInner (ts : List Token) : Prop where
  passed : ∀ depth current rest,
    argumentsFrom (depth + 1) current (ts ++ rest) = argumentsFrom (depth + 1) (current ++ ts) rest
  free : ∀ t ∈ ts, t.isFree

theorem IsOperand.isInner {ts : List Token} (h : IsOperand ts) : IsInner ts := ⟨fun depth => h.passed (depth + 1), h.free⟩

theorem IsInner.append {ts us : List Token} (ht : IsInner ts) (hu : IsInner us) : IsInner (ts ++ us) where
  passed := by
    intro depth current rest
    rw [append_assoc, ht.passed, hu.passed, append_assoc]
  free := forall_mem_append.2 ⟨ht.free, hu.free⟩

theorem isInner_comma : IsInner [.mark ','] where
  passed := by
    intro depth current rest
    rw [singleton_append, argumentsFrom, if_neg (by simp), if_neg (by decide), if_neg (by decide)]
  free := by simp [Token.isFree]

/-- What stands in a bracket is one operand with it. -/
theorem IsInner.bracketed {ts : List Token} (h : IsInner ts) {first last : Token} (hfirst : first.isOpen)
    (hlast : last.isClose) : IsOperand (first :: ts ++ [last]) where
  passed := by
    intro depth current rest
    have hcomma : ∀ t : Token, t.isOpen ∨ t.isClose → t ≠ .mark ',' := by
      rintro t ht rfl
      exact absurd ht (by decide)
    have hopen : last.isOpen = false := by
      simp only [Token.isClose, Bool.or_eq_true, beq_iff_eq] at hlast
      rcases hlast with (rfl | rfl) | rfl <;> rfl
    have hend : argumentsFrom (depth + 1) (current ++ [first] ++ ts) ([last] ++ rest) =
        argumentsFrom depth (current ++ [first] ++ ts ++ [last]) rest := by
      rw [singleton_append, argumentsFrom, if_neg (by simp [hcomma last (.inr hlast)]), if_neg (by simp [hopen]),
        if_pos hlast, if_neg (Nat.succ_ne_zero depth), Nat.add_sub_cancel]
    rw [cons_append, cons_append, argumentsFrom, if_neg (by simp [hcomma first (.inl hfirst)]), if_pos hfirst,
      append_assoc, h.passed, hend]
    simp
  free := by
    have hbracket : ∀ t : Token, t.isOpen ∨ t.isClose → t.isFree := by
      intro t ht
      cases t with
      | word cs => simp [Token.isOpen, Token.isClose] at ht
      | text octets => rfl
      | mark c => rfl
    refine forall_mem_append.2 ⟨forall_mem_cons.2 ⟨hbracket first (.inl hfirst), h.free⟩, ?_⟩
    exact forall_mem_singleton.2 (hbracket last (.inr hlast))

def separated (arguments : List (List Token)) : List Token := [Token.mark ','].intercalate arguments

/-- **Arguments are read back**, up to the bracket behind them. -/
theorem argumentsFrom_separated (hne : arguments ≠ []) (h : ∀ a ∈ arguments, IsOperand a) (rest : List Token) :
    argumentsFrom 0 [] (separated arguments ++ .mark ')' :: rest) = some arguments := by
  induction arguments with
  | nil => exact absurd rfl hne
  | cons first others ih =>
    obtain ⟨hfirst, hothers⟩ := forall_mem_cons.1 h
    cases others with
    | nil =>
      rw [separated, intercalate_singleton, hfirst.passed]
      rfl
    | cons second others =>
      rw [separated, intercalate_cons_cons, append_assoc, append_assoc, hfirst.passed,
        singleton_append, argumentsFrom, if_pos ⟨rfl, rfl⟩]
      show (argumentsFrom 0 [] (separated (second :: others) ++ .mark ')' :: rest)).map _ = _
      rw [ih (cons_ne_nil _ _) hothers]
      rfl

theorem free_separated (h : ∀ a ∈ arguments, IsOperand a) : ∀ t ∈ separated arguments, t.isFree := by
  induction arguments with
  | nil => exact forall_mem_nil _
  | cons first others ih =>
    obtain ⟨hfirst, hothers⟩ := forall_mem_cons.1 h
    cases others with
    | nil =>
      rw [separated, intercalate_singleton]
      exact hfirst.free
    | cons second others =>
      rw [separated, intercalate_cons_cons]
      exact forall_mem_append.2
        ⟨forall_mem_append.2 ⟨hfirst.free, forall_mem_singleton.2 rfl⟩, ih hothers⟩

/-- **A call is read** between tokens that hold none. -/
theorem callsIn_call {front back : List Token} (hmethod : method ∈ sendMethods) (hne : arguments ≠ [])
    (harguments : ∀ a ∈ arguments, IsOperand a) (hfront : ∀ t ∈ front, t.isFree) (hback : ∀ t ∈ back, t.isFree) :
    callsIn (front ++ .mark '.' :: .word method.toList :: .mark '(' :: (separated arguments ++ .mark ')' :: back)) =
      [⟨method, arguments⟩] := by
  have hrest : callsIn (.mark '(' :: (separated arguments ++ .mark ')' :: back)) = [] := by
    refine callsIn_of_free (forall_mem_cons.2 ⟨rfl, forall_mem_append.2 ⟨free_separated harguments, ?_⟩⟩)
    exact forall_mem_cons.2 ⟨rfl, hback⟩
  have hword : callAt? (.word method.toList) (.mark '(' :: (separated arguments ++ .mark ')' :: back)) = none := rfl
  rw [callsIn_append hfront (by rintro t ⟨rfl⟩; rfl), callsIn, callsIn, hword, hrest, callAt?, String.ofList_toList,
    if_pos hmethod, argumentsFrom_separated hne harguments]
  rfl

/-! ### Pieces of code -/

/-- The word that a text starts with, and what follows it. -/
theorem exists_word {c : Char} (h : isWordChar c) (cs : List Char) :
    ∃ word more, c :: cs = c :: word ++ more ∧ (c :: word).all isWordChar = true ∧
      ∀ d ∈ more.head?, isWordChar d = false := by
  refine ⟨cs.takeWhile isWordChar, cs.dropWhile isWordChar, ?_, ?_, ?_⟩
  · rw [cons_append, takeWhile_append_dropWhile]
  · rw [all_cons, h, all_takeWhile]
    rfl
  · intro d hd
    have hnot := head?_dropWhile_not isWordChar cs
    rw [hd] at hnot
    exact hnot

/-- Code without literals is cut wherever no word is. -/
theorem tokens_append {cs rest : List Char} (hquote : '"' ∉ cs)
    (hend : (∀ c ∈ cs.getLast?, isWordChar c = false) ∨ ∀ c ∈ rest.head?, isWordChar c = false) :
    tokens (cs ++ rest) = tokens cs ++ tokens rest := by
  match cs with
  | [] => rfl
  | c :: cs =>
    -- The end of what is left is that of the whole piece.
    have hleft : ∀ front more, c :: cs = front ++ more → '"' ∉ more ∧
        ((∀ d ∈ more.getLast?, isWordChar d = false) ∨ ∀ d ∈ rest.head?, isWordChar d = false) := by
      intro front more hsplit
      rw [hsplit] at hquote hend
      refine ⟨fun h => hquote (mem_append_right _ h), hend.imp_left fun h d hd => h d ?_⟩
      rw [getLast?_append, hd]
      rfl
    by_cases hblank : isBlank c
    · obtain ⟨hquote, hend⟩ := hleft [c] cs rfl
      rw [cons_append, tokens_blank hblank, tokens_blank hblank, tokens_append hquote hend]
    · by_cases hword : isWordChar c
      · obtain ⟨word, more, hsplit, hall, hmore⟩ := exists_word hword cs
        obtain ⟨hmoreQuote, hmoreEnd⟩ := hleft (c :: word) more hsplit
        have hnext : ∀ d ∈ (more ++ rest).head?, isWordChar d = false := by
          cases more with
          | cons d more => exact hmore
          | nil =>
            -- A piece that ends in a word is followed by something else.
            refine hend.resolve_left fun h => ?_
            rw [hsplit, append_nil] at h
            have hlast := getLast?_eq_some_getLast (cons_ne_nil c word)
            have hchar := all_eq_true.1 hall _ (getLast_mem (cons_ne_nil c word))
            rw [h _ hlast] at hchar
            cases hchar
        have hlength : more.length < (c :: cs).length := by
          rw [hsplit, length_append, length_cons]
          omega
        rw [hsplit, append_assoc, tokens_word (cons_ne_nil _ _) hall hnext,
          tokens_word (cons_ne_nil _ _) hall hmore, tokens_append hmoreQuote hmoreEnd]
        rfl
      · have hne : c ≠ '"' := by
          rintro rfl
          exact hquote mem_cons_self
        obtain ⟨hquote, hend⟩ := hleft [c] cs rfl
        rw [cons_append, tokens_mark (by simpa using hblank) (by simpa using hword) hne,
          tokens_mark (by simpa using hblank) (by simpa using hword) hne, tokens_append hquote hend]
        rfl
termination_by cs.length
decreasing_by
  · exact Nat.lt_succ_self _
  · exact hlength
  · exact Nat.lt_succ_self _

/-- Whether a piece of code starts with something else than a word. -/
def startsApart (s : String) : Bool := s.toList.head?.all fun c => !isWordChar c

/-- Whether a piece of code ends in something else than a word. -/
def endsApart (s : String) : Bool := s.toList.getLast?.all fun c => !isWordChar c

theorem startsApart_iff {s : String} : startsApart s ↔ ∀ c ∈ s.toList.head?, isWordChar c = false := by
  simp [startsApart, Option.all_eq_true]

theorem endsApart_iff {s : String} : endsApart s ↔ ∀ c ∈ s.toList.getLast?, isWordChar c = false := by
  simp [endsApart, Option.all_eq_true]

/-- A piece of code that is read as these tokens, whatever follows it but more of a word. -/
structure Reads (s : String) (ts : List Token) : Prop where
  isLine : IsLine s
  tokens_append : ∀ rest, (∀ c ∈ rest.head?, isWordChar c = false) → tokens (s.toList ++ rest) = ts ++ tokens rest

namespace Reads

variable {s t : String} {ts us : List Token} {tss : List (List Token)}

theorem tokens_eq (h : Reads s ts) : tokens s.toList = ts := by
  have hall := h.tokens_append [] (by simp)
  rwa [append_nil, tokens, tokens, tokensFrom, append_nil] at hall

theorem lit (s : String) : Reads (lit s) [.text (Octets.ofString s)] := ⟨IsLine.quoted s, fun rest _ => tokens_quoted s rest⟩

theorem plain (hline : IsLine s) (hquote : '"' ∉ s.toList) : Reads s (tokens s.toList) :=
  ⟨hline, fun _ hrest => Code.tokens_append hquote (.inr hrest)⟩

theorem append (hs : Reads s ts) (ht : Reads t us) (hapart : startsApart t) : Reads (s ++ t) (ts ++ us) := by
  have hhead := startsApart_iff.1 hapart
  refine ⟨hs.isLine.append ht.isLine, fun rest hrest => ?_⟩
  have hnext : ∀ c ∈ (t.toList ++ rest).head?, isWordChar c = false := by
    cases hcs : t.toList with
    | nil => exact hrest
    | cons c cs =>
      rw [hcs] at hhead
      exact hhead
  rw [String.toList_append, append_assoc, hs.tokens_append _ hnext, ht.tokens_append rest hrest, append_assoc]

/-- Plain code that does not end in a word, and more code behind it. -/
theorem after (hs : Reads s ts) (front : String) (hline : IsLine front) (hquote : '"' ∉ front.toList)
    (hapart : endsApart front) : Reads (front ++ s) (tokens front.toList ++ ts) := by
  refine ⟨hline.append hs.isLine, fun rest hrest => ?_⟩
  rw [String.toList_append, append_assoc, Code.tokens_append hquote (.inl (endsApart_iff.1 hapart)),
    hs.tokens_append rest hrest, append_assoc]

theorem isLine_of_mem {pieces : List String} (h : Forall₂ Reads pieces tss) : ∀ piece ∈ pieces, IsLine piece := by
  induction h with
  | nil => exact forall_mem_nil _
  | cons hfirst _ ih => exact forall_mem_cons.2 ⟨hfirst.isLine, ih⟩

/-- The arguments of a call. -/
theorem tokens_intercalate {arguments : List String} (h : Forall₂ Reads arguments tss) {rest : List Char}
    (hrest : ∀ c ∈ rest.head?, isWordChar c = false) :
    tokens ((", ".intercalate arguments).toList ++ rest) = separated tss ++ tokens rest := by
  induction h with
  | nil => rfl
  | cons hfirst hothers ih =>
    cases hothers with
    | nil =>
      rw [String.intercalate_singleton, separated, intercalate_singleton]
      exact hfirst.tokens_append rest hrest
    | cons hsecond hothers =>
      have hcomma : ∀ more : List Char, tokens (", ".toList ++ more) = .mark ',' :: tokens more := by
        intro more
        show tokens (',' :: ' ' :: more) = _
        rw [tokens_mark rfl rfl (by decide), tokens_blank rfl]
      have hnext : ∀ more : List Char, ∀ c ∈ (", ".toList ++ more).head?, isWordChar c = false := by
        rintro more c ⟨rfl⟩
        rfl
      rw [String.intercalate_cons_cons, String.toList_append, String.toList_append, append_assoc, append_assoc,
        hfirst.tokens_append _ (hnext _), hcomma, ih, separated, separated, intercalate_cons_cons]
      simp

/-- **A call is read** as its function and its arguments. -/
theorem call (function : String) (hline : IsLine function) (hquote : '"' ∉ function.toList)
    {arguments : List String} (h : List.Forall₂ Reads arguments tss) :
    Reads (call function arguments) (tokens function.toList ++ .mark '(' :: (separated tss ++ [.mark ')'])) := by
  refine ⟨IsLine.call hline ?_, fun rest hrest => ?_⟩
  · exact isLine_of_mem h
  · have hopen : ∀ more : List Char, ∀ c ∈ ('(' :: more).head?, isWordChar c = false := by
      rintro more c ⟨rfl⟩
      rfl
    have hclose : ∀ c ∈ (')' :: rest).head?, isWordChar c = false := by
      rintro c ⟨rfl⟩
      rfl
    simp only [Code.call, String.toList_append, List.append_assoc]
    show tokens (function.toList ++ '(' :: ((", ".intercalate arguments).toList ++ ')' :: rest)) = _
    rw [Code.tokens_append hquote (.inr (hopen _)), tokens_mark rfl rfl (by decide), tokens_intercalate h hclose,
      tokens_mark rfl rfl (by decide)]
    simp

end Reads

/-! ### Lines -/

theorem lineCalls_of_free {s : String} {ts : List Token} (h : Reads s ts) (hfree : ∀ t ∈ ts, t.isFree) :
    lineCalls s.toList = [] := by
  rw [lineCalls, h.tokens_eq, callsIn_of_free hfree, ite_self]

theorem lineCalls_indentLine (line : String) : lineCalls (indentLine line).toList = lineCalls line.toList := by
  rw [indentLine]
  split
  · rename_i hempty
    rw [hempty]
  · rw [String.toList_append]
    show lineCalls ('\t' :: line.toList) = _
    rw [lineCalls, lineCalls, tokens_blank rfl, isCommentLine, isCommentLine, dropWhile_cons_of_pos rfl]

theorem isCommentLine_of_isWordChar {c : Char} (h : isWordChar c) (cs : List Char) : isCommentLine (c :: cs) = false := by
  have hslash : '/' ≠ c := by
    rintro rfl
    exact absurd h (by decide)
  rw [isCommentLine, dropWhile_cons_of_neg (by simp [isBlank_of_isWordChar h]), Text.hasLead, Text.stripLead?,
    if_neg hslash]
  rfl

/-- Lines of code and the calls that they hold. -/
structure Writes (lines : List String) (calls : List SentCall) : Prop where
  isLine : ∀ line ∈ lines, IsLine line
  calls_eq : lines.flatMap (fun line => lineCalls line.toList) = calls

namespace Writes

variable {lines others : List String} {calls more : List SentCall}

/-- Fixed lines without calls. -/
theorem fixed (h : (lines.all fun line => IsLine line ∧ lineCalls line.toList = []) = true) : Writes lines [] := by
  have hall : ∀ line ∈ lines, IsLine line ∧ lineCalls line.toList = [] := fun line hline =>
    of_decide_eq_true (all_eq_true.1 h line hline)
  exact ⟨fun line hline => (hall line hline).1, flatMap_eq_nil_iff.2 fun line hline => (hall line hline).2⟩

theorem line {s : String} {ts : List Token} (h : Reads s ts) (hfree : ∀ t ∈ ts, t.isFree) : Writes [s] [] :=
  ⟨forall_mem_singleton.2 h.isLine, by rw [flatMap_singleton, lineCalls_of_free h hfree]⟩

theorem append (h : Writes lines calls) (ho : Writes others more) : Writes (lines ++ others) (calls ++ more) :=
  ⟨forall_mem_append.2 ⟨h.isLine, ho.isLine⟩, by rw [flatMap_append, h.calls_eq, ho.calls_eq]⟩

/-- Lines without calls, part by part. -/
theorem flatMap {α : Type} {xs : List α} {f : α → List String} (h : ∀ x ∈ xs, Writes (f x) []) :
    Writes (xs.flatMap f) [] := by
  induction xs with
  | nil => exact ⟨forall_mem_nil _, rfl⟩
  | cons x xs ih =>
    obtain ⟨hx, hxs⟩ := forall_mem_cons.1 h
    exact hx.append (ih hxs)

theorem map {α : Type} {xs : List α} {f : α → String} (h : ∀ x ∈ xs, Writes [f x] []) : Writes (xs.map f) [] := by
  rw [map_eq_flatMap]
  exact flatMap h

theorem indent (h : Writes lines calls) : Writes (indent lines) calls := by
  refine ⟨isLine_of_mem_indent h.isLine, ?_⟩
  rw [← h.calls_eq, Code.indent, flatMap_map]
  exact flatMap_congr fun line _ => lineCalls_indentLine line

/-- A block holds the calls of its head and those of its body. -/
theorem block {head : String} (hhead : Writes [head ++ " \x7b"] more) (h : Writes lines calls) :
    Writes (block head lines) (more ++ calls) := by
  have hend : Writes ["\x7d" ++ ""] [] := fixed (by decide)
  have hall := hhead.append (h.indent.append hend)
  rwa [append_nil] at hall

end Writes

/-! ### Lines that send a statement -/

/-- The tokens of an argument: engines that bind by name get the name with the value. -/
def boundTokens (e : Engine) (name : String) (value : List Token) : List Token :=
  match e.binding with
  | .positional => value
  | .named =>
    [.word "sql".toList, .mark '.', .word "Named".toList] ++
      (.mark '(' :: ([.text (Octets.ofString name)] ++ [.mark ','] ++ value) ++ [.mark ')'])

theorem isOperand_boundTokens (e : Engine) (name : String) {value : List Token} (h : IsOperand value) :
    IsOperand (boundTokens e name value) := by
  rw [boundTokens]
  split
  · exact h
  · have hfunction : IsOperand [.word "sql".toList, .mark '.', .word "Named".toList] :=
      ((IsOperand.word (by decide)).append (.token (by decide) (by decide) (by decide) (by decide))).append
        (.word (by decide))
    refine hfunction.append (IsInner.bracketed ?_ (by decide) (by decide))
    exact ((IsOperand.text _).isInner.append isInner_comma).append h.isInner

/-- The expression of an argument is read as its name and value. -/
theorem reads_expression (e : Engine) {a : Argument} {value : List Token} (h : Reads a.value value) :
    Reads (a.expression e) (boundTokens e a.parameter value) := by
  unfold Argument.expression boundTokens
  cases e.binding with
  | positional => exact h
  | named =>
    have harguments : Forall₂ Reads [lit a.parameter, a.value] [[.text (Octets.ofString a.parameter)], value] :=
      .cons (.lit _) (.cons h .nil)
    have hfunction : tokens "sql.Named".toList = [.word "sql".toList, .mark '.', .word "Named".toList] := by decide
    have hcall := Reads.call "sql.Named" (by decide) (by decide) harguments
    rw [hfunction, separated, intercalate_cons_cons, intercalate_singleton] at hcall
    exact hcall

/-- A piece of code in front of a call: it starts with a word and ends without one. -/
def isCallLead (front : String) : Bool :=
  IsLine front && !front.toList.contains '"' && front.toList.head?.any isWordChar && endsApart front &&
    (tokens front.toList).all (·.isFree)

/-- A piece of code behind a call. -/
def isCallTail (back : String) : Bool :=
  IsLine back && !back.toList.contains '"' && startsApart back && (tokens back.toList).all (·.isFree)

theorem reads_callTail {back : String} (h : isCallTail back) :
    Reads back (tokens back.toList) ∧ startsApart back ∧ ∀ t ∈ tokens back.toList, t.isFree := by
  simp only [isCallTail, Bool.and_eq_true, decide_eq_true_eq, Bool.not_eq_true', contains_eq_mem,
    decide_eq_false_iff_not, all_eq_true] at h
  obtain ⟨⟨⟨hline, hquote⟩, hapart⟩, hfree⟩ := h
  exact ⟨.plain hline hquote, hapart, hfree⟩

/-- The call that sends a statement, of which the values are known. -/
def BoundStatement.sentCall (b : BoundStatement) (e : Engine) (method : String) (values : List (List Token)) : SentCall where
  method
  arguments :=
    [.word "ctx".toList] :: [.text (Octets.ofString b.statement)] ::
      zipWith (fun a value => boundTokens e a.parameter value) b.arguments values

/-- Arguments of which the values are read as these operands. -/
abbrev ReadAs (arguments : List Argument) (values : List (List Token)) : Prop :=
  Forall₂ (fun a value => Reads a.value value ∧ IsOperand value) arguments values

theorem ReadAs.isOperand {arguments : List Argument} {values : List (List Token)} (h : ReadAs arguments values)
    (e : Engine) : ∀ a ∈ zipWith (fun a value => boundTokens e a.parameter value) arguments values, IsOperand a := by
  induction h with
  | nil => exact forall_mem_nil _
  | cons hfirst _ ih => exact forall_mem_cons.2 ⟨isOperand_boundTokens e _ hfirst.2, ih⟩

theorem ReadAs.expressions {arguments : List Argument} {values : List (List Token)} (h : ReadAs arguments values)
    (e : Engine) : Forall₂ Reads (arguments.map (·.expression e))
      (zipWith (fun a value => boundTokens e a.parameter value) arguments values) := by
  induction h with
  | nil => exact .nil
  | cons hfirst _ ih => exact .cons (reads_expression e hfirst.1) ih

section Send

variable (e : Engine) {b : BoundStatement} {values : List (List Token)} (hvalues : ReadAs b.arguments values)

include hvalues

theorem reads_send (hmethod : method ∈ sendMethods) :
    Reads (b.send e method) (tokens "db.Get()".toList ++ .mark '.' :: .word method.toList :: .mark '(' ::
      (separated (b.sentCall e method values).arguments ++ [.mark ')'])) := by
  have hfunction : ∀ method ∈ sendMethods, IsLine ("db.Get()." ++ method) ∧ '"' ∉ ("db.Get()." ++ method).toList ∧
      tokens ("db.Get()." ++ method).toList = tokens "db.Get()".toList ++ [.mark '.', .word method.toList] := by
    decide +kernel
  obtain ⟨hline, hquote, htokens⟩ := hfunction method hmethod
  have hctx : Reads "ctx" [.word "ctx".toList] := Reads.plain (by decide) (by decide)
  have hcall := Reads.call ("db.Get()." ++ method) hline hquote (.cons hctx (.cons (.lit b.statement)
    (hvalues.expressions e)))
  rw [htokens, append_assoc] at hcall
  exact hcall

/-- **A line that sends a statement** holds one call, with the statement and its arguments. -/
theorem writes_send (hmethod : method ∈ sendMethods) (front back : String) (hfront : isCallLead front)
    (hback : isCallTail back) : Writes [front ++ b.send e method ++ back] [b.sentCall e method values] := by
  simp only [isCallLead, Bool.and_eq_true, decide_eq_true_eq, Bool.not_eq_true', contains_eq_mem,
    decide_eq_false_iff_not, all_eq_true] at hfront
  obtain ⟨⟨⟨⟨hfrontLine, hfrontQuote⟩, hword⟩, hlast⟩, hfrontFree⟩ := hfront
  obtain ⟨hback, hhead, hbackFree⟩ := reads_callTail hback
  have hreads := ((reads_send e hvalues hmethod).after front hfrontLine hfrontQuote hlast).append hback hhead
  have hcomment : isCommentLine (front ++ b.send e method ++ back).toList = false := by
    obtain ⟨c, hc, hword⟩ := (Option.any_eq_true _ _).1 hword
    obtain ⟨cs, hcs⟩ := head?_eq_some_iff.1 hc
    rw [String.toList_append, String.toList_append, hcs]
    exact isCommentLine_of_isWordChar hword _
  have hgetFree : ∀ t ∈ tokens "db.Get()".toList, t.isFree := by decide
  have harguments : ∀ a ∈ (b.sentCall e method values).arguments, IsOperand a :=
    forall_mem_cons.2 ⟨.word (by decide), forall_mem_cons.2 ⟨.text _, hvalues.isOperand e⟩⟩
  refine ⟨forall_mem_singleton.2 hreads.isLine, ?_⟩
  rw [flatMap_singleton, lineCalls, hcomment, hreads.tokens_eq]
  have hne : (b.sentCall e method values).arguments ≠ [] := cons_ne_nil _ _
  have hcall := callsIn_call hmethod hne harguments
    (forall_mem_append.2 ⟨hfrontFree, hgetFree⟩) hbackFree
  show _ = [(⟨method, (b.sentCall e method values).arguments⟩ : SentCall)]
  simpa using hcall

end Send

/-! ### Functions and files -/

/-- Lines that hold these calls, whichever function has started before them. -/
def Holds (lines : List (List Char)) (calls : List (String × SentCall)) : Prop :=
  ∀ function, ∃ last, ∀ rest, callsFrom function (lines ++ rest) = calls ++ callsFrom last rest

namespace Holds

theorem nil : Holds [] [] := fun function => ⟨function, fun _ => rfl⟩

theorem append {lines others : List (List Char)} {calls more : List (String × SentCall)} (h : Holds lines calls)
    (ho : Holds others more) : Holds (lines ++ others) (calls ++ more) := by
  intro function
  obtain ⟨middle, hmiddle⟩ := h function
  obtain ⟨last, hlast⟩ := ho middle
  refine ⟨last, fun rest => ?_⟩
  rw [append_assoc, hmiddle, hlast, append_assoc]

/-- A line without calls, which may start a function. -/
theorem line {line : List Char} (h : lineCalls line = []) : Holds [line] [] := by
  intro function
  refine ⟨(startedFunction? line).getD function, fun rest => ?_⟩
  rw [singleton_append, callsFrom, h]
  rfl

theorem of_forall {lines : List (List Char)} (h : ∀ line ∈ lines, lineCalls line = []) : Holds lines [] := by
  induction lines with
  | nil => exact nil
  | cons line lines ih =>
    obtain ⟨hline, hlines⟩ := forall_mem_cons.1 h
    exact (Holds.line hline).append (ih hlines)

/-- What the lines of a file hold. -/
theorem sentCalls_eq {code : String} {calls : List (String × SentCall)} (h : Holds (codeLines code) calls) :
    sentCalls code = calls := by
  obtain ⟨last, hlast⟩ := h ""
  have hall := hlast []
  rwa [append_nil, callsFrom, append_nil] at hall

end Holds

theorem flatMap_codeLines {lines : List String} (h : ∀ line ∈ lines, IsLine line) :
    lines.flatMap codeLines = lines.map String.toList := by
  induction lines with
  | nil => rfl
  | cons line lines ih =>
    obtain ⟨hline, hlines⟩ := forall_mem_cons.1 h
    rw [flatMap_cons, hline.codeLines, ih hlines, map_cons, singleton_append]

theorem Writes.holds {lines : List String} (h : Writes lines []) : Holds (lines.flatMap codeLines) [] := by
  rw [flatMap_codeLines h.isLine]
  exact .of_forall (forall_mem_map.2 (flatMap_eq_nil_iff.1 h.calls_eq))

/-- The body of a function holds the calls of its lines, and no other function starts in it. -/
theorem callsFrom_indent {body : List String} {calls : List SentCall} (h : Writes body calls) (function : String)
    (rest : List (List Char)) :
    callsFrom function ((indent body).flatMap codeLines ++ rest) = calls.map (function, ·) ++ callsFrom function rest := by
  obtain ⟨hline, rfl⟩ := h
  rw [flatMap_codeLines (isLine_of_mem_indent hline)]
  induction body with
  | nil => rfl
  | cons line body ih =>
    -- A line with a tab in front starts no function.
    have hnone : startedFunction? (indentLine line).toList = none := by
      rw [indentLine]
      split
      · rfl
      · rw [String.toList_append]
        rfl
    rw [indent, map_cons, map_cons, cons_append, callsFrom, hnone, Option.getD_none, lineCalls_indentLine,
      flatMap_cons, map_append, append_assoc, ← ih (forall_mem_cons.1 hline).2]
    rfl

/-- **A function** holds the calls of its body. -/
theorem holds_function {name parameters : String} (hparen : '(' ∉ name.toList)
    (hhead : Writes ["func " ++ (name ++ ("(" ++ parameters)) ++ " \x7b"] []) {body : List String} {calls : List SentCall}
    (hbody : Writes body calls) :
    Holds ((block ("func " ++ (name ++ ("(" ++ parameters))) body).flatMap codeLines) (calls.map (name, ·)) := by
  have hstart : startedFunction? ("func " ++ (name ++ ("(" ++ parameters)) ++ " \x7b").toList = some name := by
    have hchars : ("func " ++ (name ++ ("(" ++ parameters)) ++ " \x7b").toList =
        "func ".toList ++ (name.toList ++ '(' :: (parameters ++ " \x7b").toList) := by
      simp
    rw [hchars, startedFunction?, Text.stripLead?_append, Option.map_some, beforeParen_append hparen]
  have hheadLine := hhead.isLine _ mem_cons_self
  have hheadCalls : lineCalls ("func " ++ (name ++ ("(" ++ parameters)) ++ " \x7b").toList = [] := by
    simpa using hhead.calls_eq
  have hend : IsLine ("\x7d" ++ "") := by decide
  refine fun function => ⟨name, fun rest => ?_⟩
  have hlast : callsFrom name (("\x7d" ++ "").toList :: rest) = callsFrom name rest := rfl
  rw [block, blockWith, cons_append, flatMap_cons, hheadLine.codeLines, flatMap_append,
    flatMap_singleton, hend.codeLines, append_assoc, append_assoc, singleton_append,
    callsFrom, hstart, hheadCalls, Option.getD_some, callsFrom_indent hbody, singleton_append, hlast]
  rfl

end ServiceCompiler.Code

import ServiceCompiler.Proofs.Code.Generation
import ServiceCompiler.Proofs.Directive.Merge
import ServiceCompiler.Proofs.Routes.HandlerCalls

namespace ServiceCompiler

open Code Text List

/-!
# Statements and their arguments

The calls that send statements, read from the code of the routes package.

* `Sends` — a declaration and its calls.  `sentCalls_render`: the calls of a file are those of its declarations.
* `exists_sends_handler`, `sends_registerFunction` — the declarations of a group file: every handler sends one
  statement, and the registrations send none.
* `exists_sends_authRoutes` — the declarations of the routes for registering and logging in.
* `statements_agree_with_arguments` — hence what the files of an accepted source send.
-/

variable {calls : List (List (String × SentCall))} {file : SourceFile} {name : String} {entry : Registration}
  (e : Engine) (settings : Settings)

/-! ### Files -/

/-- A declaration and the calls that it holds. -/
structure Sends (d : Declaration) (calls : List (String × SentCall)) : Prop where
  plain : d.IsPlain
  holds : Holds (d.lines.flatMap codeLines) calls

theorem lineCalls_comment (text : String) : lineCalls ("// " ++ text).toList = [] := by
  rw [String.toList_append]
  rfl

/-- Comments hold no calls. -/
theorem Sends.holds_declarationLines {d : Declaration} {calls : List (String × SentCall)} (h : Sends d calls) :
    Holds ((declarationLines d).flatMap codeLines) calls := by
  have hcomment : Writes (d.doc.map ("// " ++ ·)) [] := by
    refine Writes.map fun text htext => ⟨forall_mem_singleton.2 ?_, ?_⟩
    · exact IsLine.append (by decide) (h.plain.doc text htext).1
    · rw [flatMap_singleton, lineCalls_comment]
  rw [declarationLines, flatMap_append]
  exact hcomment.holds.append h.holds

/-- Declarations that are laid out one below the other hold their calls one after the other. -/
theorem exists_holds_bodyLines {ds : List Declaration}
    (h : Forall₂ Sends ds calls) (previous : Option DeclarationKind) :
    ∃ body, SourceFile.bodyLines? previous ds = some body ∧ Holds (body.flatMap codeLines) calls.flatten := by
  induction h generalizing previous with
  | nil => exact ⟨[], rfl, .nil⟩
  | @cons d dcalls ds calls hd _ ih =>
    obtain ⟨body, hbody, hholds⟩ := ih (some d.kind)
    have htext : codeLines ("\n".intercalate (declarationLines d)) = (declarationLines d).flatMap codeLines :=
      codeLines_intercalate (by simp [declarationLines, hd.plain.lines_ne_nil])
    refine ⟨_, by rw [SourceFile.bodyLines?, declarationText?_of_plain hd.plain, hbody]; rfl, ?_⟩
    -- Whether there is an empty line in front of it depends on the declaration before; it makes no difference here.
    have hgap : ∀ gap : Bool, Holds ((if gap then [""] else []).flatMap codeLines) [] := by
      intro gap
      cases gap with
      | false => exact .nil
      | true => exact .line rfl
    rw [flatMap_append, flatMap_cons, htext]
    exact (hgap _).append (hd.holds_declarationLines.append hholds)

theorem reads_importSpec (p : Package) : Reads (p.importSpec settings) (specTokens settings p) := by
  cases p with
  | driver e => exact (Reads.lit _).after "_ " (by decide) (by decide) (by decide)
  | _ => exact Reads.lit _

theorem free_specTokens (p : Package) : ∀ t ∈ specTokens settings p, t.isFree := by
  cases p with
  | driver e => exact forall_mem_cons.2 ⟨by decide, forall_mem_singleton.2 rfl⟩
  | _ => exact forall_mem_singleton.2 rfl

/-- Imports hold no calls. -/
theorem writes_importLines (packages : List Package) : Writes (SourceFile.importLines settings packages) [] := by
  rw [SourceFile.importLines]
  split
  · exact .fixed rfl
  · rename_i p _
    have hfront : ∀ t ∈ tokens "import ".toList, t.isFree := by decide
    have hline := (reads_importSpec settings p).after "import " (by decide) (by decide) (by decide)
    exact (Writes.line hline (forall_mem_append.2 ⟨hfront, free_specTokens settings p⟩)).append (.fixed (by decide))
  · have hspecs : Writes ((packages.mergeSort fun a b => before (a.path settings) (b.path settings)).map
        (·.importSpec settings)) [] :=
      Writes.map fun p _ => .line (reads_importSpec settings p) (free_specTokens settings p)
    have hopen : Writes ["import ("] [] := .fixed (by decide)
    exact (hopen.append hspecs.indent).append (.fixed (by decide))

/-- **The calls of a file** of the routes package are those of its declarations. -/
theorem sentCalls_render {settings : Settings} {f : SourceFile} {a : Artifact}
    (hpackage : f.package = "routes") (hcalls : Forall₂ Sends f.declarations calls)
    (hrender : f.render? settings = some a.content) :
    ∃ code, a.code? settings = some code ∧ sentCalls code = calls.flatten := by
  obtain ⟨header, body, hheader, hbody, hcontent⟩ := exists_code_of_render hrender
  obtain ⟨body', hbody', hholds⟩ := exists_holds_bodyLines hcalls none
  obtain rfl := Option.some.inj (hbody.symm.trans hbody')
  refine ⟨_, Artifact.code?_eq_some hheader hcontent, Holds.sentCalls_eq ?_⟩
  have hclause : Writes ["package " ++ f.package, ""] [] := by
    rw [hpackage]
    exact .fixed (by decide)
  -- The last line ends with a line end, so an empty line is read behind it.
  rw [codeLines_joined (by simp), flatMap_append, flatMap_append]
  have hall := ((hclause.holds.append (writes_importLines settings f.imports).holds).append hholds).append
    (.line rfl : Holds [[]] [])
  rwa [append_nil] at hall

/-! ### Functions of a group -/

theorem Code.Reads.word {s : String} (h : IsWord s) : Reads s [.word s.toList] :=
  ⟨h.isLine, fun _ hrest => tokens_word h.1 h.2 hrest⟩

/-- An identifier of the routes package is one word, -/
theorem Naming.IsLed.isWord (h : Naming.IsLed name) : ServiceCompiler.IsWord name := by
  obtain ⟨lead, hlead, rest, hname, hrest⟩ := h
  have hleads : ∀ lead ∈ Naming.leads, ServiceCompiler.IsWord lead := by decide +kernel
  obtain ⟨hne, hall⟩ := hleads lead hlead
  rw [ServiceCompiler.IsWord, hname, all_append, hall, Bool.true_and, all_eq_true]
  exact ⟨by simp [hne], fun c hc => isWordChar_of_isAlphanumeric (hrest c hc)⟩

/-- and none of the methods that send a statement. -/
theorem Naming.IsLed.notMem_sendMethods (h : Naming.IsLed name) : name ∉ sendMethods := by
  obtain ⟨lead, hlead, rest, hname, -⟩ := h
  have hleads : ∀ lead ∈ Naming.leads, ∀ method ∈ sendMethods, ¬ lead.toList <+: method.toList := by decide +kernel
  exact fun hmem => hleads lead hlead name hmem ⟨rest, hname.symm⟩

/-- The head of a function, which holds no call. -/
theorem writes_functionHead (hword : IsWord name) (hname : name ∉ sendMethods) (tail : String)
    (htail : isCallTail tail) : Writes ["func " ++ (name ++ tail)] [] := by
  obtain ⟨htail, hapart, hfree⟩ := reads_callTail htail
  have hreads := ((Reads.word hword).append htail hapart).after "func " (by decide) (by decide) (by decide)
  have hfront : ∀ t ∈ tokens "func ".toList, t.isFree := by decide
  refine .line hreads ?_
  simp only [forall_mem_append]
  exact ⟨hfront, (IsOperand.word hname).free, hfree⟩

/-- A handler sends what its body does. -/
theorem sends_handler (name : String) (calls : List SentCall) {signature : String}
    (hsignature : signature = name ++ "(c *gin.Context)") (hword : IsWord name) (hname : name ∉ sendMethods)
    {doc : List String} (hdoc : ∀ text ∈ doc, IsPlainDoc text) {uses : List Package} {body : List String}
    (hbody : Writes body calls) :
    Sends (function signature doc uses body) (calls.map (name, ·)) := by
  refine ⟨isPlain_function hdoc, ?_⟩
  have hparen : '(' ∉ name.toList := fun hmem => absurd (all_eq_true.1 hword.2 _ hmem) (by decide)
  have hparameters : "(c *gin.Context)" = "(" ++ "c *gin.Context)" := by decide
  have hhead : Writes ["func " ++ signature ++ " \x7b"] [] := by
    rw [hsignature, String.append_assoc, String.append_assoc]
    exact writes_functionHead hword hname _ (by decide)
  rw [hsignature, hparameters] at hhead
  rw [function, hsignature, hparameters]
  exact holds_function hparen hhead hbody

/-- A registration with a method that lines can give. -/
structure Code.Registration.IsPlain (entry : Registration) : Prop where
  method : entry.method = "GET" ∨ entry.method = "POST"
  handler : Naming.IsLed entry.handler

theorem Code.Registration.IsPlain.isName (h : entry.IsPlain) : Fragment.isName entry.method.toList := by
  rcases h.method with hmethod | hmethod
  · rw [hmethod]
    decide +kernel
  · rw [hmethod]
    decide +kernel

theorem Code.Registration.IsPlain.writes_line (h : entry.IsPlain) : Writes [entry.line] [] := by
  have hfunction : IsLine ("r." ++ entry.method) ∧ '"' ∉ ("r." ++ entry.method).toList ∧
      ∀ t ∈ tokens ("r." ++ entry.method).toList, t.isFree := by
    rcases h.method with hmethod | hmethod
    · rw [hmethod]
      decide
    · rw [hmethod]
      decide
  have hguard : Reads "auth.Authenticate" (tokens "auth.Authenticate".toList) := .plain (by decide) (by decide)
  have hguardOperand : IsOperand (tokens "auth.Authenticate".toList) := by
    have htokens : tokens "auth.Authenticate".toList = [.word "auth".toList, .mark '.', .word "Authenticate".toList] := by
      decide
    rw [htokens]
    exact isOperand_selector (by decide) (by decide)
  have hhandler := Reads.word h.handler.isWord
  have hhandlerOperand := IsOperand.word h.handler.notMem_sendMethods
  obtain ⟨hline, hquote, hfree⟩ := hfunction
  -- Whether a token is required or not, the arguments are literals and words.
  obtain ⟨arguments, harguments, hoperands⟩ : ∃ arguments, Forall₂ Reads entry.arguments arguments ∧
      ∀ a ∈ arguments, IsOperand a := by
    rw [Registration.arguments]
    split
    · refine ⟨_, .cons (.lit entry.path) (.cons hguard (.cons hhandler .nil)), ?_⟩
      exact forall_mem_cons.2
        ⟨.text _, forall_mem_cons.2 ⟨hguardOperand, forall_mem_singleton.2 hhandlerOperand⟩⟩
    · refine ⟨_, .cons (.lit entry.path) (.cons hhandler .nil), ?_⟩
      exact forall_mem_cons.2 ⟨.text _, forall_mem_singleton.2 hhandlerOperand⟩
  refine .line (Reads.call _ hline hquote harguments) ?_
  simp only [forall_mem_append, forall_mem_cons]
  exact ⟨hfree, rfl, free_separated hoperands, rfl, forall_mem_nil _⟩

section Groups

variable {s : Service} (hs : s.WellFormed) {g : NamedGroup} (hg : g ∈ nameGroups (Route.groups s.routes))

include hs hg

theorem isPlain_of_mem_registrations (h : entry ∈ registrations s g) : entry.IsPlain := by
  rw [registrations_eq_map] at h
  obtain ⟨n, hn, rfl⟩ := mem_map.1 h
  exact ⟨(wellFormed_mounted hs hg hn).method, isLed_handler hs hg hn⟩

/-- The function that registers a group sends nothing. -/
theorem sends_registerFunction {entries : List Registration} (hentries : ∀ entry ∈ entries, entry.IsPlain)
    {f : Declaration} (hf : registerFunction? g entries = some f) : Sends f [] := by
  refine ⟨isPlain_registerFunction hs hg hf, ?_⟩
  obtain ⟨lines, hlines, rfl⟩ := Option.map_eq_some_iff.1 hf
  have hled := hs.isLed_identifiers hg g.register mem_cons_self
  have hhead : ∀ brackets, isCallTail ("(r gin.IRouter)" ++ brackets) →
      Writes ["func " ++ g.register ++ "(r gin.IRouter)" ++ brackets] [] := by
    intro brackets htail
    rw [String.append_assoc, String.append_assoc]
    exact writes_functionHead hled.isWord hled.notMem_sendMethods _ htail
  suffices hwrites : Writes lines [] from hwrites.holds
  rw [registerLines?] at hlines
  split at hlines
  · -- Nothing is registered: the braces are on the line of the head, unless that is long.
    obtain rfl := Option.some.inj hlines
    split
    · exact hhead " \x7b\x7d" (by decide)
    · exact (hhead " \x7b" (by decide)).block (.fixed (by decide))
  · -- The methods are names, so nothing is left to the formatter.
    rw [if_pos (all_eq_true.2 fun entry hentry => (hentries entry hentry).isName)] at hlines
    obtain rfl := Option.some.inj hlines
    exact (hhead " \x7b" (by decide)).block (Writes.map fun entry hentry => (hentries entry hentry).writes_line)

end Groups

/-- The call of a mounted route. -/
structure Code.NamedRoute.IsSentAs (e : Engine) (n : NamedRoute) (sent : String × SentCall) : Prop where
  /-- It stands in the handler of the route. -/
  function : sent.1 = n.handler
  agrees : sent.2.Agrees e
  inserts : n.route.action = .insert → sent.2.Inserts e n.route

/-- **A mounted route** has a handler, and the handler sends one statement. -/
theorem exists_sends_handler {s : Service} (hs : s.WellFormed) {g : NamedGroup}
    (hg : g ∈ nameGroups (Route.groups s.routes)) {n : NamedRoute} (hn : n ∈ mountedRoutes g)
    (hplain : n.route.HasPlainBody) :
    ∃ d sent, handlerFunction? e n = some d ∧ Sends d [sent] ∧ n.IsSentAs e sent := by
  have hr := wellFormed_mounted hs hg hn
  have hled := isLed_handler hs hg hn
  obtain ⟨b, hb⟩ := exists_handlerStatement e hr
  obtain ⟨call, hwrites, hagrees, hinserts⟩ := exists_writes_handlerBody e hr hplain hb
  obtain ⟨d, hd⟩ : ∃ d, handlerFunction? e n = some d := ⟨_, by rw [handlerFunction?, hb]; rfl⟩
  have hdoc := (isPlain_handlerFunction hs hg hn hd).doc
  refine ⟨d, (n.handler, call), hd, ?_, rfl, hagrees, hinserts⟩
  rw [handlerFunction?, hb] at hd
  obtain rfl := Option.some.inj hd
  exact sends_handler n.handler [call] rfl hled.isWord hled.notMem_sendMethods hdoc hwrites

/-- The file of a group without an engine registers and sends nothing. -/
theorem sends_groupFile_none {s : Service} (hs : s.WellFormed) {g : NamedGroup}
    (hg : g ∈ nameGroups (Route.groups s.routes)) (hfile : groupFile? s none g = some file) :
    file.package = "routes" ∧ Forall₂ Sends file.declarations [[]] := by
  rw [groupFile?] at hfile
  obtain ⟨f, hf, rfl⟩ := Option.map_eq_some_iff.1 hfile
  exact ⟨rfl, .cons (sends_registerFunction hs hg (forall_mem_nil _) hf) .nil⟩

theorem exists_sends_handlers {s : Service} (hs : s.WellFormed) {g : NamedGroup}
    (hg : g ∈ nameGroups (Route.groups s.routes)) {ns : List NamedRoute} (hns : ns ⊆ mountedRoutes g)
    (hplain : ∀ n ∈ ns, n.route.HasPlainBody) :
    ∃ sent : List (String × SentCall), Forall₂ Sends (ns.filterMap (handlerFunction? e)) (sent.map ([·])) ∧
      Forall₂ (NamedRoute.IsSentAs e) ns sent := by
  induction ns with
  | nil => exact ⟨[], .nil, .nil⟩
  | cons n ns ih =>
    obtain ⟨hn, hns⟩ := cons_subset.1 hns
    obtain ⟨hbody, hplain⟩ := forall_mem_cons.1 hplain
    obtain ⟨d, first, hd, hsends, hsent⟩ := exists_sends_handler e hs hg hn hbody
    obtain ⟨rest, hrest, hall⟩ := ih hns hplain
    refine ⟨first :: rest, ?_, .cons hsent hall⟩
    rw [filterMap_cons_some hd]
    exact .cons hsends hrest

/-- **The file of a group** sends one statement for every mounted route, in their order. -/
theorem exists_sends_groupFile {s : Service} (hs : s.WellFormed) (hplain : ∀ r ∈ s.routes, r.HasPlainBody)
    {g : NamedGroup} (hg : g ∈ nameGroups (Route.groups s.routes)) (hfile : groupFile? s (some e) g = some file) :
    file.package = "routes" ∧ ∃ sent : List (String × SentCall),
      Forall₂ Sends file.declarations ([] :: sent.map ([·])) ∧
      Forall₂ (NamedRoute.IsSentAs e) (mountedRoutes g) sent := by
  have hbodies : ∀ n ∈ mountedRoutes g, n.route.HasPlainBody := by
    intro n hn
    have hmem := (named_of_mem_nameGroups hg).route_mem ((mountedRoutes_sublist g).subset hn)
    exact hplain n.route ((NamedGroup.mem_routes_iff hg).1 hmem).1
  obtain ⟨sent, hsends, hsent⟩ := exists_sends_handlers e hs hg (Subset.refl _) hbodies
  obtain ⟨f, hf, rfl⟩ := Option.map_eq_some_iff.1 hfile
  have hregister := sends_registerFunction hs hg (fun entry => isPlain_of_mem_registrations hs hg) hf
  exact ⟨rfl, sent, .cons hregister hsends, hsent⟩

/-! ### Registering and logging in -/

theorem binds_userLookup : e.Binds (userLookup e).statement ["username"] := by
  have hname : IsStatementName "username" := all_eq_true.1 (by decide)
  cases e with
  | mysql =>
    refine .one "SELECT * FROM users WHERE username = ".toList " LIMIT 1".toList hname (by decide) ?_ ?_ (by decide)
    · rintro (_ | _) <;> decide
    · rintro (_ | _) <;> decide
  | mssql =>
    refine .one "SELECT TOP 1 * FROM users WHERE username = ".toList [] hname (by decide) ?_ ?_ (by decide)
    · rintro (_ | _) <;> decide
    · rintro (_ | _) <;> decide

theorem isStatementName_users : IsStatementName usersTable := all_eq_true.1 (by decide)

theorem columns_userInsert :
    ∀ name ∈ ["username", "password"], IsStatementName name ∧ name ≠ "" ∧ IsTrimmed name.toList := by
  have hfixed : ∀ name ∈ ["username", "password"],
      name.toList.all isFieldChar = true ∧ name ≠ "" ∧ trim name.toList = name.toList := by decide
  intro name hname
  obtain ⟨hchars, hne, htrim⟩ := hfixed name hname
  exact ⟨all_eq_true.1 hchars, hne, htrim ▸ isTrimmed_trim name.toList⟩

/-- The user name that was submitted. -/
theorem readAs_username : ReadAs [⟨"username", "body.Username"⟩] [tokens "body.Username".toList] := by
  have htokens : tokens "body.Username".toList = [.word "body".toList, .mark '.', .word "Username".toList] := by decide
  refine .cons ⟨.plain (by decide) (by decide), ?_⟩ .nil
  rw [htokens]
  exact isOperand_selector (by decide) (by decide)

/-- The user name, and the hash of the password. -/
theorem readAs_credentials : ReadAs [⟨"username", "body.Username"⟩, ⟨"password", "string(hash)"⟩]
    [tokens "body.Username".toList, tokens "string(hash)".toList] := by
  have htokens : tokens "string(hash)".toList =
      [.word "string".toList] ++ (.mark '(' :: [.word "hash".toList] ++ [.mark ')']) := by
    decide
  refine .cons (forall₂_cons.1 readAs_username).1 (.cons ⟨.plain (by decide) (by decide), ?_⟩ .nil)
  rw [htokens]
  exact (IsOperand.word (by decide)).append ((IsOperand.word (by decide)).isInner.bracketed (by decide) (by decide))

/-- The calls of the routes for registering and logging in, with the functions in which they stand. -/
def authCalls : Option Engine → List (String × SentCall)
  | none => []
  | some e =>
    let lookup := (userLookup e).sentCall e "QueryContext" [tokens "body.Username".toList]
    let store :=
      (userInsert e).sentCall e "ExecContext" [tokens "body.Username".toList, tokens "string(hash)".toList]
    [("authRegister", lookup), ("authRegister", store), ("authLogin", lookup)]

/-- What registering and logging in send: a user is looked up, and stored if it is a new one. -/
structure IsAuthSent (e : Engine) (sent : List (String × SentCall)) : Prop where
  places : sent.map (fun call => (call.1, call.2.method)) =
    [("authRegister", "QueryContext"), ("authRegister", "ExecContext"), ("authLogin", "QueryContext")]
  agrees : ∀ call ∈ sent, call.2.Agrees e
  inserts : ∀ call ∈ sent, call.2.method = "ExecContext" → call.2.InsertsRow e "users" ["username", "password"]
    [tokens "body.Username".toList, tokens "string(hash)".toList]

theorem isAuthSent_authCalls : IsAuthSent e (authCalls (some e)) := by
  have hlookup := agrees_sentCall (b := userLookup e) (binds_userLookup e) readAs_username "QueryContext"
  have hbinds := binds_insert e isStatementName_users fun name hname => (columns_userInsert name hname).1
  have hstore := agrees_sentCall (b := userInsert e) hbinds readAs_credentials "ExecContext"
  have hrow := insertsRow_sentCall (b := userInsert e) isStatementName_users rfl columns_userInsert readAs_credentials
  have hquery : ∀ {P : Prop}, "QueryContext" = "ExecContext" → P := fun h => absurd h (by decide)
  exact {
    places := rfl
    agrees := forall_mem_cons.2 ⟨hlookup, forall_mem_cons.2 ⟨hstore, forall_mem_singleton.2 hlookup⟩⟩
    inserts := forall_mem_cons.2 ⟨hquery, forall_mem_cons.2 ⟨fun _ => hrow, forall_mem_singleton.2 hquery⟩⟩ }

theorem writes_lookup : Writes (readCredentials ++ (userLookup e).query e)
    [(userLookup e).sentCall e "QueryContext" [tokens "body.Username".toList]] :=
  (Writes.fixed (by decide +kernel)).append (writes_query e readAs_username)

theorem sends_registerHandler : Sends (registerHandler e)
    ([(userLookup e).sentCall e "QueryContext" [tokens "body.Username".toList],
      (userInsert e).sentCall e "ExecContext" [tokens "body.Username".toList, tokens "string(hash)".toList]].map
      ("authRegister", ·)) := by
  have hstore := writes_exec e (b := userInsert e) readAs_credentials
  refine sends_handler _ _ (by decide) (by decide) (by decide) (forall_mem_nil _) ?_
  exact (((((writes_lookup e).append (.fixed (by decide +kernel))).append (.fixed (by decide +kernel))).append
    writes_onError).append hstore).append (.fixed (by decide +kernel))

theorem sends_loginHandler : Sends (loginHandler e)
    ([(userLookup e).sentCall e "QueryContext" [tokens "body.Username".toList]].map ("authLogin", ·)) := by
  refine sends_handler _ _ (by decide) (by decide) (by decide) (forall_mem_nil _) ?_
  -- What follows the lookup is the same for all engines.
  simp only [append_assoc]
  rw [← append_assoc readCredentials]
  exact (writes_lookup e).append (.fixed (by decide +kernel))

/-- A number is no method. -/
theorem reads_decimal (n : Nat) : Reads (decimal n) [.word (decimal n).toList] ∧ decimal n ∉ sendMethods := by
  have hdigit : ∀ c ∈ (decimal n).toList, c.isDigit := fun c hc => isDigit_of_mem_decimal hc
  have hmethods : ∀ method ∈ sendMethods, ¬ method.toList.all (·.isDigit) := by decide
  refine ⟨.word ⟨by simpa using decimal_ne_empty n, ?_⟩, fun hmem => hmethods _ hmem (all_eq_true.2 hdigit)⟩
  exact all_eq_true.2 fun c hc => isWordChar_of_isDigit (hdigit c hc)

theorem exists_reads_decimalInt (n : Int) : ∃ ts, Reads (decimalInt n) ts ∧ ∀ t ∈ ts, t.isFree := by
  cases n with
  | ofNat n =>
    obtain ⟨hreads, hfree⟩ := reads_decimal n
    exact ⟨_, hreads, (IsOperand.word hfree).free⟩
  | negSucc n =>
    obtain ⟨hreads, hfree⟩ := reads_decimal (n + 1)
    have hsign : ∀ t ∈ tokens "-".toList, t.isFree := by decide
    refine ⟨_, hreads.after "-" (by decide) (by decide) (by decide), ?_⟩
    exact forall_mem_append.2 ⟨hsign, (IsOperand.word hfree).free⟩

theorem writes_passwordCost (cost : Int) : Writes (passwordCost cost).lines [] := by
  obtain ⟨ts, hreads, hfree⟩ := exists_reads_decimalInt cost
  have hfront : ∀ t ∈ tokens "const passwordCost = ".toList, t.isFree := by decide
  exact .line (hreads.after _ (by decide) (by decide) (by decide)) (forall_mem_append.2 ⟨hfront, hfree⟩)

/-- **The routes for registering and logging in** send these statements and no others. -/
theorem exists_sends_authRoutes (engine : Option Engine) :
    ∃ calls, Forall₂ Sends (authRoutesFile settings engine).declarations calls ∧ calls.flatten = authCalls engine := by
  obtain ⟨hregister, hothers⟩ := forall_mem_cons.1 (isPlain_authRoutesFile settings engine)
  have hmount : Sends registerAuthFunction [] :=
    ⟨hregister, (Writes.fixed (by decide) : Writes registerAuthFunction.lines []).holds⟩
  cases engine with
  | none =>
    have hnone : ∀ name ∈ ["authRegister", "authLogin"], Sends (unavailableFunction name) [] := by
      have hlines : ∀ name ∈ ["authRegister", "authLogin"], Writes (unavailableFunction name).lines [] :=
        forall_mem_cons.2 ⟨.fixed (by decide), forall_mem_singleton.2 (.fixed (by decide))⟩
      exact fun name hname => ⟨isPlain_function (forall_mem_nil _), (hlines name hname).holds⟩
    exact ⟨[[], [], []], .cons hmount (.cons (hnone _ (by simp)) (.cons (hnone _ (by simp)) .nil)), rfl⟩
  | some e =>
    obtain ⟨hcost, hothers⟩ := forall_mem_cons.1 hothers
    obtain ⟨htype, -⟩ := forall_mem_cons.1 hothers
    have hconstant : Sends (passwordCost settings.bcryptCost) [] := ⟨hcost, (writes_passwordCost _).holds⟩
    have hfields : Sends credentialsType [] :=
      ⟨htype, (Writes.fixed (by decide) : Writes credentialsType.lines []).holds⟩
    exact ⟨_, .cons hmount (.cons hconstant (.cons hfields
      (.cons (sends_registerHandler e) (.cons (sends_loginHandler e) .nil)))), rfl⟩

/-! ### Runs -/

/-- A file of a run is the only artifact with its path. -/
theorem GeneratedFrom.render_of_path {settings : Settings} {s : Service} {g : Generator} {as : List Artifact}
    (h : GeneratedFrom settings s g as) {path : String} (hmakes : g.Makes path file) :
    (∃ a ∈ as, a.path = path) ∧ ∀ a ∈ as, a.path = path → file.render? settings = some a.content := by
  obtain ⟨a, ha, hpath, hrender⟩ := h.exists_artifact (Generator.makes_iff.1 hmakes) rfl
  obtain ⟨stopped, has⟩ := h.artifacts
  -- Paths differ even where case does not count.
  have hnodup : (as.map fun a => lower a.path).Nodup := (Generator.artifactSet_of_artifacts has).nodup_lower
  refine ⟨⟨a, ha, hpath⟩, fun a' ha' hpath' => ?_⟩
  rw [inj_on_of_nodup_map hnodup ha' ha (by rw [hpath, hpath'])]
  exact hrender

/-- **Statements and arguments agree.** Whatever source is accepted and whatever the settings are, the file of every
    group sends one statement per mounted route, in the handler of the route, and the file of the routes for
    registering and logging in sends three.  Each statement has as many marks as it gets arguments, in the same order
    and under the same names; and an insertion has the submitted fields without later repeats as columns, their
    marks as values, and what the document has for each of them as arguments.  Without a database nothing is sent. -/
theorem statements_agree_with_arguments {source : String} {b : Build} (hb : Build.ofSource source = .ok b)
    {settings : Settings} {g : Generator} {as : List Artifact} (hrun : GeneratedFrom settings b.service g as) :
    (∀ group ∈ g.groups, (∃ a ∈ as, a.path = Generator.groupPath group) ∧
      ∀ a ∈ as, a.path = Generator.groupPath group → ∃ code, a.code? settings = some code ∧
        (g.target = none → sentCalls code = []) ∧
        ∀ e, g.target = some e → List.Forall₂ (NamedRoute.IsSentAs e) (mountedRoutes group) (sentCalls code)) ∧
    (b.service.tokenAuth → (∃ a ∈ as, a.path = "routes/auth.go") ∧
      ∀ a ∈ as, a.path = "routes/auth.go" → ∃ code, a.code? settings = some code ∧
        (g.target = none → sentCalls code = []) ∧
        ∀ e, g.target = some e → IsAuthSent e (sentCalls code)) := by
  have hs := wellFormed_of_ofSource hb
  have hplain := hasPlainBody_of_ofSource hb
  obtain ⟨hservice, hsettings, -, -⟩ := of_ofService hrun.generator
  rw [← hservice] at hs hplain ⊢
  constructor
  · intro group hgroup
    obtain ⟨file, hfile, -⟩ := exists_plain_groupFile hs hgroup g.target
    obtain ⟨hexists, hrender⟩ := hrun.render_of_path (.group hgroup hfile)
    refine ⟨hexists, fun a ha hpath => ?_⟩
    have hrender := hrender a ha hpath
    cases htarget : g.target with
    | none =>
      rw [htarget] at hfile
      obtain ⟨hpackage, hsends⟩ := sends_groupFile_none hs hgroup hfile
      obtain ⟨code, hcode, hcalls⟩ := sentCalls_render hpackage hsends hrender
      exact ⟨code, hcode, fun _ => hcalls, by simp⟩
    | some e =>
      rw [htarget] at hfile
      obtain ⟨hpackage, sent, hsends, hsent⟩ := exists_sends_groupFile e hs hplain hgroup hfile
      obtain ⟨code, hcode, hcalls⟩ := sentCalls_render hpackage hsends hrender
      refine ⟨code, hcode, by simp, ?_⟩
      rintro _ ⟨rfl⟩
      rw [hcalls, List.flatten_cons, List.nil_append, ← List.flatMap_def, List.flatMap_singleton']
      exact hsent
  · intro htoken
    obtain ⟨hexists, hrender⟩ := hrun.render_of_path (.authRoutes htoken)
    refine ⟨hexists, fun a ha hpath => ?_⟩
    obtain ⟨calls, hsends, hflatten⟩ := exists_sends_authRoutes g.settings g.target
    obtain ⟨code, hcode, hcalls⟩ := sentCalls_render rfl hsends (hrender a ha hpath)
    rw [hflatten] at hcalls
    refine ⟨code, hcode, fun htarget => ?_, fun e htarget => ?_⟩
    · rw [hcalls, htarget]
      rfl
    · rw [hcalls, htarget]
      exact isAuthSent_authCalls e

/-- A source with a body that repeats fields, one of which is written with a blank inside. -/
def repeatedFieldsSource : String :=
  "whisper: db type mssql\nwhisper: auth enable\nwhisper: auth strategy jwt\n" ++
  "when posted to /p with body \x7ba, b c ,a,,b c\x7d, insert into 'p', return inserted document"

def repeatedFieldsService : Service where
  database := { dialect := "mssql" }
  auth := { enabled := true, strategy := Auth.jwt }
  routes :=
    [ { method := "POST", path := "/p", action := .insert, collection := "p", bodyFields := ["a", "b c", "a", "b c"] } ]

theorem statements_agree_repeatedFields :
    Build.ofSource repeatedFieldsSource = .ok { service := repeatedFieldsService } ∧
    ∃ g as, GeneratedFrom {} repeatedFieldsService g as ∧ g.target = some .mssql ∧
      (g.groups.flatMap mountedRoutes).map (·.handler) = ["createP"] ∧
      (∀ group ∈ g.groups, ∃ a ∈ as, a.path = Generator.groupPath group ∧ ∃ code, a.code? {} = some code ∧
        List.Forall₂ (NamedRoute.IsSentAs .mssql) (mountedRoutes group) (sentCalls code)) ∧
      ∃ a ∈ as, a.path = "routes/auth.go" ∧ ∃ code, a.code? {} = some code ∧ IsAuthSent .mssql (sentCalls code) := by
  have hb : Build.ofSource repeatedFieldsSource = .ok { service := repeatedFieldsService } := by decide +kernel
  have hgoes : ¬ repeatedFieldsService.GivesUp := fun h => absurd h.1 (by decide)
  obtain ⟨g, hg⟩ := (wellFormed_of_ofSource hb).exists_ofService {}
  obtain ⟨header, hheader⟩ := exists_header?
  obtain ⟨as, has⟩ := Generator.exists_artifacts (wellFormed_of_ofSource hb) hg hheader hgoes
  obtain ⟨hservice, -, htarget, -⟩ := of_ofService hg
  have htarget : g.target = some .mssql := htarget.trans (by decide)
  have hhandlers : (g.groups.flatMap mountedRoutes).map (·.handler) = ["createP"] := by
    rw [Generator.groups, hservice]
    decide +kernel
  have hrun : GeneratedFrom {} repeatedFieldsService g as := ⟨hg, false, has⟩
  obtain ⟨hgroups, hauth⟩ := statements_agree_with_arguments hb hrun
  refine ⟨hb, g, as, hrun, htarget, hhandlers, fun group hgroup => ?_, ?_⟩
  · obtain ⟨⟨a, ha, hpath⟩, hall⟩ := hgroups group hgroup
    obtain ⟨code, hcode, -, hsent⟩ := hall a ha hpath
    exact ⟨a, ha, hpath, code, hcode, hsent .mssql htarget⟩
  · obtain ⟨⟨a, ha, hpath⟩, hall⟩ := hauth (by decide)
    obtain ⟨code, hcode, -, hsent⟩ := hall a ha hpath
    exact ⟨a, ha, hpath, code, hcode, hsent .mssql htarget⟩

end ServiceCompiler

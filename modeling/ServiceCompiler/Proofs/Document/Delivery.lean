import Mathlib.Data.List.Nodup
import ServiceCompiler.Proofs.Document.Standing

namespace ServiceCompiler.Document

open List

/-!
# Tokens handed out

The lexer reads two tokens beyond the one it hands out, and further as long as a key may start there.
What it hands out is what was read, because a token leaves only when nothing can be put in front of it
any more.

* `Lexer.Delivers` — the kinds of the tokens that are handed out one after the other.
* `Lexer.Coming` — the invariant: all tokens of a list are still to be read or wait in order.
* `Lexer.delivers_of_finishes` — a state from which the end of the text is reached delivers its tokens.
-/

namespace Lexer

/-- The tokens that are handed out next. -/
def Delivers (l : Lexer) : List TokenKind → Prop
  | [] => True
  | k :: ks => ∃ l' : Lexer, ∃ t : Token, l.filled? = some l' ∧ l'.filled? = some l' ∧
      l'.queue.head? = some t ∧ t.kind = k ∧ l'.handOut.Delivers ks

/-- A token can be handed out. -/
def Filled (l : Lexer) : Prop := 2 < l.queue.length ∧ l.awaitsKey? = some false

theorem Filled.fillFrom? {l : Lexer} (h : l.Filled) (fuel : Nat) : fillFrom? (fuel + 1) l = some l := by
  rw [Lexer.fillFrom?, if_pos h.1, h.2]
  rfl

theorem fillFrom?_next {l l' : Lexer} (h : ¬ l.Filled) (hawaits : l.awaitsKey? ≠ none)
    (hnext : l.next? = some l') (fuel : Nat) : fillFrom? (fuel + 1) l = fillFrom? fuel l' := by
  rw [Lexer.fillFrom?]
  by_cases hlength : 2 < l.queue.length
  · obtain ⟨b, hb⟩ := Option.ne_none_iff_exists'.1 hawaits
    cases b with
    | false => exact absurd ⟨hlength, hb⟩ h
    | true =>
      rw [if_pos hlength, hb, hnext]
      rfl
  · rw [if_neg hlength, hnext]
    rfl

/-! ### Possible keys -/

/-- Keys that are still possible start with tokens that were not handed out. -/
def Safe (l : Lexer) : Prop := ∀ k ∈ l.keys, k.FreshAt l.cursor.mark → l.taken ≤ k.index

section Keys

variable {l : Lexer} {r : Standing}

theorem awaitsKey?_ne_none (h : l.Lags r) (hr : r.Tidy) : l.awaitsKey? ≠ none := by
  intro hnone
  rw [awaitsKey?] at hnone
  split at hnone
  · cases hnone
  · rename_i k hk
    obtain ⟨v, hv, hkey⟩ := exists_of_findSome?_eq_some hk
    obtain ⟨hkey, -⟩ := Option.filter_eq_some_iff.1 hkey
    have hmem : k ∈ r.keys := by
      rw [← h.keys_eq]
      exact mem_filterMap.2 ⟨v, hv, hkey⟩
    split at hnone
    · cases hnone
    · rename_i hstale
      split at hnone
      · rename_i hrequired
        exact hstale ((isFresh_iff l k).2 ((hr.required k hmem hrequired).mono h.atMost))
      · cases hnone

/-- A key that is still possible does not start with the token that can be handed out. -/
theorem ne_taken_of_awaitsKey? (h : l.Lags r) (hr : r.Tidy) (hawaits : l.awaitsKey? = some false)
    {k : SimpleKey} (hk : k ∈ r.keys) (hfresh : k.FreshAt l.cursor.mark) : k.index ≠ l.taken := by
  intro hindex
  have hmem : k ∈ l.keys := by
    rw [h.keys_eq]
    exact hk
  obtain ⟨v, hv, hkey⟩ := mem_filterMap.1 hmem
  rw [awaitsKey?] at hawaits
  split at hawaits
  · rename_i hnone
    have hfilter := findSome?_eq_none_iff.1 hnone v hv
    rw [hkey, Option.filter_some] at hfilter
    simp [hr.awaited k hk, hindex] at hfilter
  · rename_i k₀ hk₀
    obtain ⟨v₀, hv₀, hkey₀⟩ := exists_of_findSome?_eq_some hk₀
    obtain ⟨hkey₀, hstarts⟩ := Option.filter_eq_some_iff.1 hkey₀
    have hmem₀ : k₀ ∈ r.keys := by
      rw [← h.keys_eq]
      exact mem_filterMap.2 ⟨v₀, hv₀, hkey₀⟩
    have hindex₀ : k₀.index = l.taken := by simpa using (Bool.and_eq_true_iff.1 hstarts).2
    -- No two possible keys start with the same token.
    have hnodup : (r.keys.map SimpleKey.index).Nodup :=
      pairwise_map.2 (hr.decreasing.imp fun hlt => (Nat.ne_of_lt hlt).symm)
    have hinj : k₀ = k := inj_on_of_nodup_map hnodup hmem₀ hk (hindex₀.trans hindex.symm)
    rw [hinj, if_pos ((isFresh_iff l k).2 hfresh)] at hawaits
    exact absurd hawaits (by decide)

/-- One step, however many tokens were handed out. -/
theorem Lags.exists_next (h : l.Lags r) {r' : Standing} (hstep : r.Step r') (hsafe : l.Safe) :
    ∃ l' : Lexer, l.next? = some l' ∧ l'.Lags r' ∧ l'.taken = l.taken ∧ l'.Safe := by
  obtain ⟨l₁, hstands, htaken, hnext⟩ := h.exists_stands hstep.closed
  have hold : ∀ k ∈ r.keys, k.FreshAt r.cursor.mark → l.taken ≤ k.index := by
    intro k hk hfresh
    exact hsafe k (by rw [h.keys_eq]; exact hk) (hfresh.mono h.atMost)
  obtain ⟨l', htoken, hlags, htaken', hlater⟩ := hstep.reads l₁ hstands (by rwa [htaken])
  refine ⟨l', hnext.trans htoken, hlags, htaken'.trans htaken, ?_⟩
  intro k hk hfresh
  rw [htaken', htaken]
  rw [hlags.keys_eq] at hk
  rcases hstep.mem_keys hk with hk | hindex
  · exact hold k hk (hfresh.mono hlater)
  · rw [hindex, ← htaken]
    exact hstands.holds.1

end Keys

/-! ### The end of the text -/

/-- The lexer has read the end of the text. -/
structure Ended (l : Lexer) (ks : List TokenKind) : Prop where
  rest : l.cursor.rest = []
  indent : l.indent = -1
  outer : l.outer = []
  levels : ∃ v : Level, l.levels = [v] ∧ v.key = none
  window : l.window.Clear
  holds : l.Holds ks

section Ended

variable {l : Lexer} {ks : List TokenKind}

/-- The end is read at the end, after all blocks are closed. -/
theorem exists_streamEnd {r : Standing} {ends : Nat} (h : l.Stands r) (hr : r.Done ends) :
    ∃ l' : Lexer, l.token? = some l' ∧ l'.taken = l.taken ∧
      l'.Ended (r.kinds ++ replicate ends .blockEnd ++ [.streamEnd]) := by
  obtain ⟨v, hlevels, hoptional⟩ := hr.level
  obtain ⟨ds, hends, hblocks, hds⟩ := hr.blocks
  have hflow : l.inFlow = false := by
    rw [Lexer.inFlow, h.levels, hlevels]
  have hclose : l.closeBlocks (-1) = { l.emitEnds ds.length with indent := -1, outer := [] } := by
    rw [closeBlocks, hflow]
    refine closeFrom_append l ?_ hds (.inr rfl)
    rw [h.indent, h.outer, hblocks]
  have hdrop : (l.closeBlocks (-1)).dropKey? = some (l.closeBlocks (-1)).forgetKey := by
    rw [dropKey?, if_neg]
    rw [hclose]
    show ¬ (Option.map (·.isRequired) (l.levels.head?.bind (·.key))).getD false = true
    rw [h.levels, hlevels]
    cases hkey : v.key with
    | none => simp [hkey]
    | some k => simp [hkey, hoptional k hkey]
  have hempty : l.cursor.rest.isEmpty = true := by
    rw [h.cursor, hr.rest]
    rfl
  refine ⟨{ (l.closeBlocks (-1)).forgetKey.emit .streamEnd (l.closeBlocks (-1)).forgetKey.cursor.mark with
      keyAllowed := false }, ?_, ?_, ?_⟩
  · rw [token?, if_pos hempty, streamEnd?, hdrop]
    rfl
  · rw [hclose]
    rfl
  · rw [hclose]
    exact {
      rest := by
        show l.cursor.rest = []
        rw [h.cursor, hr.rest]
      indent := rfl
      outer := rfl
      levels := ⟨{ v with key := none }, by
        show l.levels.modifyHead _ = _
        rw [h.levels, hlevels]
        rfl, rfl⟩
      window := h.window
      holds := by
        rw [← hends]
        exact (h.holds.emitEnds ds.length).emit .streamEnd _ }

theorem Ended.exists_next (h : l.Ended ks) :
    ∃ l' : Lexer, l.next? = some l' ∧ l'.taken = l.taken ∧ l'.Ended (ks ++ [.streamEnd]) := by
  obtain ⟨v, hlevels, hkey⟩ := h.levels
  let r : Standing :=
    { cursor := l.cursor, kinds := ks, levels := l.levels, keyAllowed := l.keyAllowed }
  have hlags : l.Lags r := by
    refine ⟨false, 0, [], ?_⟩
    exact {
      rest := rfl
      mark := rfl
      levels := rfl
      keyAllowed := by simp [r]
      blocks := by rw [h.indent, h.outer]; rfl
      inside := by simp
      inFlow := fun _ => rfl
      kinds := ⟨ks, h.holds, by simp [r]⟩
      window := h.window
      written := by
        show IsWritten l.cursor.rest
        rw [h.rest]
        exact isWritten_nil
      begins := by
        show Begins l.cursor.rest
        rw [h.rest]
        exact begins_nil }
  have hdone : r.Done 0 :=
    { closed := .inr (.inr rfl)
      rest := h.rest
      level := ⟨v, hlevels, by simp [hkey]⟩
      blocks := ⟨[], rfl, rfl, by simp⟩ }
  obtain ⟨l₁, hstands, htaken, hnext⟩ := hlags.exists_stands hdone.closed
  obtain ⟨l', htoken, htaken', hended⟩ := exists_streamEnd hstands hdone
  refine ⟨l', hnext.trans htoken, htaken'.trans htaken, ?_⟩
  simpa [r] using hended

theorem Ended.awaitsKey? (h : l.Ended ks) : l.awaitsKey? = some false := by
  obtain ⟨v, hlevels, hkey⟩ := h.levels
  rw [Lexer.awaitsKey?, hlevels]
  simp [hkey]

/-- At the end there is always a token more. -/
theorem Ended.exists_fill (h : l.Ended ks) (fuel : Nat) (hfuel : 3 ≤ fuel + l.queue.length) :
    ∃ l' : Lexer, ∃ ks', fillFrom? (fuel + 1) l = some l' ∧ l'.Filled ∧ l'.taken = l.taken ∧
      l'.Ended ks' ∧ ks <+: ks' := by
  induction fuel generalizing l ks with
  | zero =>
    have hfilled : l.Filled := ⟨by omega, h.awaitsKey?⟩
    exact ⟨l, ks, hfilled.fillFrom? 0, hfilled, rfl, h, prefix_refl ks⟩
  | succ fuel ih =>
    by_cases hlength : 2 < l.queue.length
    · have hfilled : l.Filled := ⟨hlength, h.awaitsKey?⟩
      exact ⟨l, ks, hfilled.fillFrom? _, hfilled, rfl, h, prefix_refl ks⟩
    · obtain ⟨l₁, hnext, htaken, hended⟩ := h.exists_next
      have hawaits : l.awaitsKey? ≠ none := by
        rw [h.awaitsKey?]
        exact Option.some_ne_none _
      have hqueue : l₁.queue.length = l.queue.length + 1 := by
        have h₁ := hended.holds.count
        have h₀ := h.holds.count
        rw [Lexer.count, htaken] at h₁
        rw [Lexer.count] at h₀
        rw [length_append, length_singleton] at h₁
        omega
      obtain ⟨l', ks', hfill, hfilled, htaken', hended', hlead⟩ := ih hended (by omega)
      refine ⟨l', ks', ?_, hfilled, htaken'.trans htaken, hended', (prefix_append _ _).trans hlead⟩
      rw [fillFrom?_next (fun hf => hlength hf.1) hawaits hnext, hfill]

end Ended

/-! ### All tokens -/

/-- The tokens of a list are still to be read, or wait in order. -/
def Coming (l : Lexer) (ks : List TokenKind) : Prop :=
  (∃ r : Standing, l.Lags r ∧ r.Tidy ∧ r.Finishes ks ∧ l.Safe) ∨ ∃ ks', l.Ended ks' ∧ ks <+: ks'

section Coming

variable {l : Lexer} {ks : List TokenKind}

theorem Holds.queue_length (h : l.Holds ks) : l.queue.length + l.taken = ks.length := by
  have hcount := h.count
  rw [Lexer.count] at hcount
  omega

/-- Reading on from a state, until a token can be handed out. -/
theorem exists_fill_of_finishes {r : Standing} (hr : r.Finishes ks) (h : l.Lags r) (htidy : r.Tidy)
    (hsafe : l.Safe) (htaken : l.taken < ks.length) {fuel : Nat}
    (hfuel : r.cursor.rest.length + 4 ≤ fuel) :
    ∃ l' : Lexer, fillFrom? (fuel + 1) l = some l' ∧ l'.Filled ∧ l'.taken = l.taken ∧ l'.Coming ks := by
  induction hr generalizing l fuel with
  | @close r r' ks hclose _ ih =>
    have hcursor : r'.cursor = r.cursor := by
      obtain ⟨-, o, os, -, -, rfl⟩ := hclose
      rfl
    exact ih (h.closes hclose) (hclose.tidy htidy) hsafe htaken (by rw [hcursor]; exact hfuel)
  | @step r r' ks hstep hrest ih =>
    by_cases hfilled : l.Filled
    · exact ⟨l, hfilled.fillFrom? fuel, hfilled, rfl, .inl ⟨r, h, htidy, .step hstep hrest, hsafe⟩⟩
    · obtain ⟨l₁, hnext, hlags, htaken₁, hsafe₁⟩ := h.exists_next hstep hsafe
      have hshorter := hstep.shorter
      obtain ⟨fuel, rfl⟩ : ∃ f, fuel = f + 1 := ⟨fuel - 1, by omega⟩
      have hfuel' : r'.cursor.rest.length + 4 ≤ fuel := by omega
      obtain ⟨l', hfill, hfilled', htaken', hcoming⟩ :=
        ih hlags (hstep.tidy htidy) hsafe₁ (by rwa [htaken₁]) hfuel'
      refine ⟨l', ?_, hfilled', htaken'.trans htaken₁, hcoming⟩
      rw [fillFrom?_next hfilled (awaitsKey?_ne_none h htidy) hnext, hfill]
  | @done r ends hdone =>
    by_cases hfilled : l.Filled
    · exact ⟨l, hfilled.fillFrom? fuel, hfilled, rfl, .inl ⟨r, h, htidy, .done hdone, hsafe⟩⟩
    · obtain ⟨l₀, hstands, htaken₀, hnext⟩ := h.exists_stands hdone.closed
      obtain ⟨l₁, htoken, htaken₁, hended⟩ := exists_streamEnd hstands hdone
      have hlength := hended.holds.queue_length
      rw [htaken₁, htaken₀] at hlength
      obtain ⟨fuel, rfl⟩ : ∃ f, fuel = f + 1 := ⟨fuel - 1, by omega⟩
      obtain ⟨l', ks', hfill, hfilled', htaken', hended', hlead⟩ :=
        hended.exists_fill fuel (by omega)
      refine ⟨l', ?_, hfilled', htaken'.trans (htaken₁.trans htaken₀), .inr ⟨ks', hended', hlead⟩⟩
      rw [fillFrom?_next hfilled (awaitsKey?_ne_none h htidy) (hnext.trans htoken), hfill]

theorem Coming.exists_filled (h : l.Coming ks) (htaken : l.taken < ks.length) :
    ∃ l' : Lexer, l.filled? = some l' ∧ l'.Filled ∧ l'.taken = l.taken ∧ l'.Coming ks := by
  rcases h with ⟨r, hlags, htidy, hfinishes, hsafe⟩ | ⟨ks', hended, hlead⟩
  · have hlength := hlags.length_le
    exact exists_fill_of_finishes hfinishes hlags htidy hsafe htaken (by omega)
  · have hlength := hended.holds.queue_length
    have hle := hlead.length_le
    obtain ⟨l', ks'', hfill, hfilled, htaken', hended', hlead'⟩ :=
      hended.exists_fill (l.cursor.rest.length + 4) (by omega)
    exact ⟨l', hfill, hfilled, htaken', .inr ⟨ks'', hended', hlead.trans hlead'⟩⟩

theorem Holds.head? (h : l.Holds ks) : l.queue.head?.map Token.kind = ks[l.taken]? := by
  rw [← head?_map, h.2, head?_drop]

theorem Holds.handOut (h : l.Holds ks) (hqueue : 0 < l.queue.length) : l.handOut.Holds ks := by
  have hlength := h.queue_length
  refine ⟨?_, ?_⟩
  · show l.taken + 1 ≤ ks.length
    omega
  · show (l.queue.drop 1).map Token.kind = ks.drop (l.taken + 1)
    rw [map_drop, h.2, drop_drop]

theorem Lags.handOut {r : Standing} (h : l.Lags r) (hqueue : 0 < l.queue.length) : l.handOut.Lags r := by
  obtain ⟨broken, width, closed, h⟩ := h
  obtain ⟨ks, hks, hkinds⟩ := h.kinds
  refine ⟨broken, width, closed, ?_⟩
  exact { h with kinds := ⟨ks, hks.handOut hqueue, hkinds⟩ }

/-- The first token that waits is the one that is due. -/
theorem Coming.head? (h : l.Coming ks) (hl : l.Filled) (htaken : l.taken < ks.length) :
    l.queue.head?.map Token.kind = ks[l.taken]? := by
  rcases h with ⟨r, hlags, htidy, hfinishes, hsafe⟩ | ⟨ks', hended, hlead⟩
  · have hdue : ∀ k ∈ r.keys, k.FreshAt r.cursor.mark → l.taken + 1 ≤ k.index := by
      intro k hk hfresh
      have hfresh' := hfresh.mono hlags.atMost
      have hle := hsafe k (by rw [hlags.keys_eq]; exact hk) hfresh'
      have hne := ne_taken_of_awaitsKey? hlags htidy hl.2 hk hfresh'
      omega
    obtain ⟨broken, width, closed, hbehind⟩ := hlags
    obtain ⟨ks₀, hks₀, hkinds⟩ := hbehind.kinds
    have hlength := hks₀.queue_length
    have hqueue := hl.1
    have hle : l.taken + 1 ≤ r.kinds.length := by
      rw [hkinds, length_append]
      omega
    obtain ⟨rest, hrest⟩ := hfinishes.take_prefix hle hdue
    have hlt : l.taken < (r.kinds.take (l.taken + 1)).length := by
      rw [length_take]
      omega
    rw [hks₀.head?, ← hrest, getElem?_append_left hlt, getElem?_take_of_lt (Nat.lt_succ_self _),
      hkinds, getElem?_append_left (by omega)]
  · obtain ⟨rest, rfl⟩ := hlead
    rw [hended.holds.head?, getElem?_append_left htaken]

theorem Coming.handOut (h : l.Coming ks) (hl : l.Filled) : l.handOut.Coming ks := by
  have hqueue : 0 < l.queue.length := Nat.lt_of_lt_of_le (by decide) (Nat.le_of_lt hl.1)
  rcases h with ⟨r, hlags, htidy, hfinishes, hsafe⟩ | ⟨ks', hended, hlead⟩
  · refine .inl ⟨r, hlags.handOut hqueue, htidy, hfinishes, ?_⟩
    intro k hk hfresh
    have hle := hsafe k hk hfresh
    have hne := ne_taken_of_awaitsKey? hlags htidy hl.2 (by rw [← hlags.keys_eq]; exact hk) hfresh
    show l.taken + 1 ≤ k.index
    omega
  · exact .inr ⟨ks', { hended with holds := hended.holds.handOut hqueue }, hlead⟩

/-- **Handing out in order.** -/
theorem Coming.delivers (h : l.Coming ks) : l.Delivers (ks.drop l.taken) := by
  induction hn : ks.length - l.taken generalizing l with
  | zero =>
    rw [drop_eq_nil_iff.2 (by omega)]
    trivial
  | succ n ih =>
    have htaken : l.taken < ks.length := by omega
    obtain ⟨l', hfill, hfilled, htaken', hcoming⟩ := h.exists_filled htaken
    have hhead := hcoming.head? hfilled (by omega)
    rw [htaken', getElem?_eq_getElem htaken, Option.map_eq_some_iff] at hhead
    obtain ⟨t, ht, hkind⟩ := hhead
    have hrest := ih (hcoming.handOut hfilled) (show ks.length - (l'.taken + 1) = n by omega)
    rw [drop_eq_getElem_cons htaken]
    refine ⟨l', t, hfill, hfilled.fillFrom? _, ht, hkind, ?_⟩
    rw [← htaken']
    exact hrest

end Coming

/-- **What is read is handed out.** -/
theorem delivers_of_finishes {l : Lexer} {r : Standing} {ks : List TokenKind} (hr : r.Finishes ks)
    (h : l.Lags r) (htidy : r.Tidy) (htaken : l.taken = 0) : l.Delivers ks := by
  have hsafe : l.Safe := fun k _ _ => by rw [htaken]; exact Nat.zero_le _
  have hcoming : l.Coming ks := .inl ⟨r, h, htidy, hr, hsafe⟩
  have hdelivers := hcoming.delivers
  rwa [htaken, drop_zero] at hdelivers

/-- **A text whose tokens are known hands them out.** -/
theorem delivers_ofText {cs : List Char} {ks : List TokenKind} (hwritten : IsWritten cs) (hbegins : Begins cs)
    (h : Standing.Finishes { cursor := ⟨cs, {}⟩ } ks) : (ofText cs).Delivers ks := by
  have hstart : ofText cs =
      { cursor := ⟨cs, {}⟩, window := { ahead := Piece.cut Piece.limit ⟨0, true⟩ cs } } := by
    have hmark : Text.stripLead? [byteOrderMark] cs = none := by
      cases cs with
      | nil => rfl
      | cons c cs =>
        have hne : byteOrderMark ≠ c := fun heq => hwritten.notMarked (heq ▸ mem_cons_self)
        rw [Text.stripLead?, if_neg hne]
    rw [ofText, hmark]
  have hlags : (ofText cs).Lags { cursor := ⟨cs, {}⟩ } := by
    rw [hstart]
    refine ⟨false, 0, [], ?_⟩
    exact {
      rest := rfl
      mark := rfl
      levels := rfl
      keyAllowed := rfl
      blocks := rfl
      inside := by simp
      inFlow := fun _ => rfl
      kinds := ⟨[], ⟨Nat.le_refl _, rfl⟩, rfl⟩
      window := ⟨rfl, Window.isAllowed_of_mem_cut hwritten.isAllowed _ rfl⟩
      written := hwritten
      begins := hbegins }
  refine delivers_of_finishes h hlags ?_ (by rw [hstart])
  exact {
    awaited := fun k hk => absurd hk not_mem_nil
    required := fun k hk => absurd hk not_mem_nil
    decreasing := Pairwise.nil
    below := fun k hk => absurd hk not_mem_nil }

end Lexer

end ServiceCompiler.Document

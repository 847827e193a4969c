import SceneReader.Proofs.Diagnostic.QuotedLine
import SceneReader.Proofs.Directive.Splitting
import SceneReader.Proofs.Engine.Cautions
import SceneReader.Proofs.Include.OwnFaults
import SceneReader.Scene.Loading

/-!
# Diagnostics quote the line they point at

A text is read in three stages, and each of them looks up the lines that it shows in the same cut
of the text: the scanner and the parser for tokens, the engine for directives, and the
expansion for includes without a path.  Spans of tokens and of directives are stretches of the
text.  So the line under a diagnostic is the one that its span starts in, wherever counting by
line feeds agrees with the cut.

A form feed counts as the end of a line in the cut, and as a blank in the count.  Behind one the
lines that are shown come too early.

**Results.**
* `isIn_of_tokenize`, `isIn_of_parse`: spans of tokens and of directives.
* `Arises.shows`: what the stages tell of points into the text.
* `quotesLine_of_arises`: the line under a diagnostic is the one that it points at, if no other
  line boundary than the line feed stands before its end.
* `not_quotesLine_formFeed`: behind a form feed it is not.
-/

namespace SceneReader

open Lexer (tokenize between)

/-! ## Spans of tokens and directives -/

section Spans

variable {text : String} {file : Option String} {ts : List Token}

/-- The tokens of a text but the end of the input, in order and in their places. -/
theorem isIn_of_tokenize (h : tokenize text file = .ok ts) :
    ∃ body last, ts = body ++ [last] ∧ last.kind = .endOfInput ∧
      body.Pairwise Lexer.Precedes ∧ ∀ t ∈ body, t.span.IsIn text.toList ∧ t.kind ≠ .endOfInput := by
  obtain ⟨body, stop, last, htiles, horder, -, -, ⟨-, hok⟩ | ⟨e, j, herror, -⟩⟩ :=
    Lexer.tokenize_tiles text file
  · rw [h] at hok
    refine ⟨body, _, Except.ok.inj hok, rfl, horder, fun t ht => ?_⟩
    obtain ⟨i, j, -, -, hbetween⟩ := htiles.token_of_mem ht
    refine ⟨⟨i, j, hbetween.lt, hbetween.le_length, ?_, ?_⟩, hbetween.not_end⟩
    · rw [hbetween.span]
    · rw [hbetween.span]
  · rw [h] at herror
    cases herror

/-- The stretch from one stretch to the other. -/
theorem Span.IsIn.over {s s' : Span} {cs : List Char} (h : s.IsIn cs) (h' : s'.IsIn cs)
    (hle : s.stop.offset ≤ s'.start.offset) (file : Option String) :
    (⟨file, s.start, s'.stop⟩ : Span).IsIn cs := by
  obtain ⟨i, j, hlt, hle', hstart, hstop⟩ := h
  obtain ⟨i', j', hlt', hle'', hstart', hstop'⟩ := h'
  rw [hstop, hstart', Position.offset_ofOffset hle', Position.offset_ofOffset (by omega)] at hle
  exact ⟨i, j', by omega, hle'', hstart, hstop'⟩

theorem Parser.isIn_spanOver {cs : List Char} {t : Token} {us : List Token}
    (horder : (t :: us).Pairwise Lexer.Precedes) (hin : ∀ u ∈ t :: us, u.span.IsIn cs) :
    (Grammar.spanOver t us).IsIn cs := by
  have ht := hin t List.mem_cons_self
  cases us with
  | nil => exact ht
  | cons u us =>
      have hlast := List.getLast_mem (List.cons_ne_nil u us)
      have hspan := ht.over (hin _ (List.mem_cons_of_mem t hlast))
        ((List.pairwise_cons.mp horder).1 _ hlast) t.span.file
      rw [Grammar.spanOver, List.getLast_cons (List.cons_ne_nil u us)]
      exact hspan

theorem Parser.isIn_of_blocks {cs : List Char} {blocks : List (List Token)} {ds : List Directive}
    (h : List.Forall₂ Grammar.Block blocks ds) (horder : blocks.flatten.Pairwise Lexer.Precedes)
    (hin : ∀ t ∈ blocks.flatten, t.span.IsIn cs) : ∀ d ∈ ds, ∀ span ∈ d.span, span.IsIn cs := by
  induction h with
  | nil => exact List.forall_mem_nil _
  | cons hblock _ ih =>
      rw [List.flatten_cons] at horder hin
      obtain ⟨hfirst, hrest, -⟩ := List.pairwise_append.mp horder
      obtain ⟨hfirst', hrest'⟩ := List.forall_mem_append.mp hin
      refine List.forall_mem_cons.mpr ⟨?_, ih hrest hrest'⟩
      cases hblock with
      | directive =>
          rintro span ⟨⟩
          exact isIn_spanOver hfirst hfirst'

/-- Directives have the span from their first token to their last one. -/
theorem isIn_of_parse {ctx : Parser.Context} {ds : List Directive}
    (hts : tokenize text file = .ok ts) (h : (Parser.parse ctx ts).result = .ok ds) :
    ∀ d ∈ ds, ∀ span ∈ d.span, span.IsIn text.toList := by
  obtain ⟨body, last, rfl, hlast, horder, hbody⟩ := isIn_of_tokenize hts
  obtain ⟨blocks, ⟨last', -, htokens⟩, hblocks⟩ :=
    Parser.exists_split_of_parse h rfl (fun t ht => (hbody t ht).2) hlast
  obtain rfl : body = blocks.flatten := List.append_inj_left' htokens rfl
  exact Parser.isIn_of_blocks hblocks horder fun t ht => (hbody t ht).1

end Spans

/-! ## What the stages tell of -/

/-- What is told of a text: that it cannot be read as directives, or cannot be expanded for an error
of the grammar that is its own, what is replaced in its values, and what the engine notes of its
directives, or refuses one for. -/
inductive Arises (text : String) : Diagnostic → Prop
  | unread {o : Options} {file : Option String} {e : SceneError}
      (h : (directivesOf o file text).result = .error e) : Arises text e.diagnostic
  | recovered {o : Options} {file : Option String} {n : Diagnostic}
      (h : n ∈ (directivesOf o file text).notes) : Arises text n
  | unexpanded {files : FileTree} {o : Options} {s : Include.Standing} {e : SceneError}
      (h : Include.FailsFirst files o ⟨s, text.toList⟩ e) (hkind : e.fault.kind = .grammatical) :
      Arises text e.diagnostic
  | noted {K : Type} [Scalar K] {o : Options} {file source : Option String} {files : FileTree}
      {ds : List Directive} {s : EngineState K} {n : Diagnostic}
      (hds : (directivesOf o file text).result = .ok ds)
      (h : n ∈ (Engine.run ⟨files, Text.splitLines text, source⟩ ds s).notes) : Arises text n
  | refused {K : Type} [Scalar K] {o : Options} {file source : Option String} {files : FileTree}
      {ds : List Directive} {s : EngineState K} {e : SceneError}
      (hds : (directivesOf o file text).result = .ok ds)
      (h : (Engine.run ⟨files, Text.splitLines text, source⟩ ds s).rejection =
        some (.scene e)) : Arises text e.diagnostic

section Stages

variable {text : String} {file : Option String}

theorem shows_of_aboutToken (strict : Bool) {ts : List Token} (hts : tokenize text file = .ok ts)
    {span : Span} {line : Option String}
    (h : Parser.AboutToken (.ofSource (some text) strict) ts span line) :
    Shows text span line := by
  refine h.imp_right ?_
  rintro ⟨t, ht, hkind, rfl, rfl⟩
  obtain ⟨body, last, rfl, hlast, -, hbody⟩ := isIn_of_tokenize hts
  rcases List.mem_append.mp ht with ht | ht
  · exact ⟨(hbody t ht).1, rfl⟩
  · exact absurd (List.mem_singleton.mp ht ▸ hlast) hkind

theorem shows_of_aboutDirective {ds : List Directive}
    (hds : ∀ d ∈ ds, ∀ span ∈ d.span, span.IsIn text.toList) {files : FileTree}
    {source : Option String} {span : Span} {line : Option String}
    (h : Engine.AboutDirective ⟨files, Text.splitLines text, source⟩ ds span line) :
    Shows text span line := by
  rcases h with h | ⟨d, hd, hplace⟩
  · exact Or.inl h
  · unfold EngineContext.whereIs at hplace
    cases hspan : d.span with
    | none =>
        rw [hspan] at hplace
        exact Or.inl (Prod.mk.inj hplace).2.symm
    | some s =>
        rw [hspan] at hplace
        obtain ⟨rfl, rfl⟩ := Prod.mk.inj hplace
        exact Or.inr ⟨hds d hd s hspan, rfl⟩

/-- The scanner fails at characters of the text. -/
theorem shows_of_tokenize {e : SceneError} (h : tokenize text file = .error e) :
    Shows text e.span e.sourceLine := by
  refine Or.inr ⟨?_, (Lexer.fault_of_tokenize h).2⟩
  obtain ⟨body, stop, last, -, -, -, -, ⟨-, hok⟩ | ⟨e', j, herror, -, hlt, hle, hspan⟩⟩ :=
    Lexer.tokenize_tiles text file
  · rw [h] at hok
    cases hok
  · rw [h] at herror
    obtain rfl := Except.error.inj herror
    rw [hspan]
    exact ⟨last, j, hlt, hle, rfl, rfl⟩

theorem exists_tokens_of_directivesOf {o : Options} {ds : List Directive}
    (h : (directivesOf o file text).result = .ok ds) : ∃ ts, tokenize text file = .ok ts ∧
      (Parser.parse (.ofSource (some text) o.strictNumbers) ts).result = .ok ds := by
  obtain ⟨ts, hts, hds⟩ := Success.of_result_bind h
  exact ⟨ts, hts, hds⟩

/-- What reading directives tells of. -/
theorem tells_directivesOf (o : Options) (file : Option String) (text : String) :
    (directivesOf o file text).Tells (fun n => Shows text n.span n.sourceLine)
      fun e => Shows text e.span e.sourceLine := by
  cases hts : tokenize text file with
  | error e =>
      unfold directivesOf
      rw [hts]
      exact ⟨List.forall_mem_nil _, .error (shows_of_tokenize hts)⟩
  | ok ts =>
      have hparse := Parser.tells_parse (.ofSource (some text) o.strictNumbers) ts
      have hresult : directivesOf o file text =
          Parser.parse (.ofSource (some text) o.strictNumbers) ts := by
        unfold directivesOf
        rw [hts, Reported.ofExcept_ok, pure_bind]
      rw [hresult]
      exact ⟨fun n hn => shows_of_aboutToken _ hts (hparse.notes n hn),
        fun e he => shows_of_aboutToken _ hts (hparse.error e he).about⟩

/-- What the stages tell of points into the text. -/
theorem Arises.shows {d : Diagnostic} (h : Arises text d) :
    Shows text d.span d.sourceLine := by
  cases h with
  | unread h => exact (tells_directivesOf _ _ text).error _ h
  | recovered h => exact (tells_directivesOf _ _ text).notes _ h
  | unexpanded h hkind =>
      obtain ⟨ts, hts, t, ht, hinclude, rfl⟩ := Include.pathless_of_innermost h hkind
      rw [String.ofList_toList] at hts ⊢
      have hnotEnd : t.kind ≠ .endOfInput := by
        rw [(Token.identifier?_eq_some_iff.mp (beq_iff_eq.mp hinclude)).1]
        exact nofun
      exact shows_of_aboutToken false hts (Or.inr ⟨t, ht, hnotEnd, rfl, rfl⟩)
  | noted hds h =>
      obtain ⟨ts, hts, hds⟩ := exists_tokens_of_directivesOf hds
      exact shows_of_aboutDirective (isIn_of_parse hts hds) ((Engine.tells_run _ _ _).notes _ h)
  | refused hds h =>
      obtain ⟨ts, hts, hds⟩ := exists_tokens_of_directivesOf hds
      exact shows_of_aboutDirective (isIn_of_parse hts hds) ((Engine.tells_run _ _ _).refusal _ h)

end Stages

/-! ## The line that is shown -/

/-- The line under a diagnostic is the one that it points at, if no other line boundary than the
line feed stands before its end. -/
theorem quotesLine_of_arises {text line : String} {d : Diagnostic} (h : Arises text d)
    (hline : d.sourceLine = some line)
    (hfeeds : Text.LineFeedsOnly (Text.throughLine text.toList d.span.start.offset)) :
    d.QuotesLine text.toList line :=
  Diagnostic.quotesLine_of_shows h.shows hline hfeeds

/-- Why a text cannot be read as directives, where this is, and the line that is shown. -/
def complaint? (text : String) : Option (Fault × Span × Option String) :=
  match (directivesOf {} none text).result with
  | .error e => some (e.fault, e.span, e.sourceLine)
  | .ok _ => none

theorem Arises.of_complaint {text : String} {f : Fault} {span : Span} {line : Option String}
    (h : complaint? text = some (f, span, line)) :
    Arises text (SceneError.mk f span line).diagnostic := by
  unfold complaint? at h
  split at h
  · rename_i he
    cases h
    exact .unread he
  · cases h

/-- A name that is no directive, on the second line of a text. -/
theorem quotesLine_of_arises_secondLine :
    Text.LineFeedsOnly (Text.throughLine "WorldBegin\n  Foo 1\n".toList 13) ∧
      (SceneError.mk (.unknownDirective "Foo") ⟨none, ⟨2, 3, 13⟩, ⟨2, 6, 16⟩⟩
        (some "  Foo 1")).diagnostic.QuotesLine "WorldBegin\n  Foo 1\n".toList "  Foo 1" := by
  have hfeeds : Text.LineFeedsOnly (Text.throughLine "WorldBegin\n  Foo 1\n".toList 13) := by
    decide +kernel
  exact ⟨hfeeds, quotesLine_of_arises (.of_complaint (by decide +kernel)) rfl hfeeds⟩

/-- Behind a form feed the line that is shown is not the one that the error points at. -/
theorem not_quotesLine_formFeed : ∃ d line, Arises "\x0cFoo" d ∧ d.sourceLine = some line ∧
    ¬ d.QuotesLine "\x0cFoo".toList line := by
  refine ⟨(SceneError.mk (.unknownDirective "Foo") ⟨none, ⟨1, 2, 1⟩, ⟨1, 5, 4⟩⟩
    (some "")).diagnostic, "", .of_complaint (by decide +kernel), rfl, fun h => ?_⟩
  -- The empty line would be the whole text, in which there is no line feed.
  obtain ⟨before, after, htext, hisLine, -⟩ := h.isLine
  have hplain : '\n' ∉ "\x0cFoo".toList := by decide
  rw [htext] at hplain
  cases hlast : before.getLast? with
  | some c =>
      have hc := hisLine.starts c hlast
      exact hplain (List.mem_append_left _ (hc ▸ List.mem_of_getLast? hlast))
  | none =>
      obtain rfl := List.getLast?_eq_none_iff.mp hlast
      obtain rfl : "\x0cFoo".toList = after := htext
      exact absurd (hisLine.stops '\x0c' rfl) (by decide)

end SceneReader

import SceneReader.Proofs.Directive.Splitting
import SceneReader.Proofs.Include.OwnFaults

/-!
# Where the parameters behind an include end

Expansion looks for the end of the parameters behind an include and does not read them; the parser
of directives finds the end as it reads them.  Both go over the tokens with rules of their own: what
is a single value, what closes a list, where no value stands.  The tokens of a text are the same for
both, and the end of the input is the last of them.

**Invariant.**  `StopsWithin skip ts`: what is skipped lies before the end of the input, and tokens
beyond it have no part in what is skipped.

**Results.**
* `skipValue_values`: a value is skipped as the grammar has it.
* `skipParameters_of_parameters`: parameters that the parser reads are skipped.
* `stopsWithin_skipParameters`: skipping stays before the end of the input.
* `skipParameters_stops`: where the parameters in a text end.
-/

namespace SceneReader
namespace Include

open Grammar (Values)
open SceneReader.Parser (Context Parsed stopAfter)

variable {ts us rest : List Token}

/-! ## What the parser reads is skipped -/

/-- A list of values is skipped up to the bracket that closes it. -/
theorem skipToBracket_values {r : Token} (hr : r.kind = .rightBracket)
    (h : ∀ u ∈ us, Parser.isValue u.kind = true) (stop : Position) (rest : List Token) :
    skipToBracket stop (us ++ r :: rest) = (r.span.stop, rest) := by
  induction us generalizing stop with
  | nil => simp [skipToBracket, hr]
  | cons u us ih =>
      obtain ⟨hu, hus⟩ := List.forall_mem_cons.mp h
      rw [List.cons_append, skipToBracket]
      split
      · rename_i hkind
        simp [Parser.isValue, hkind] at hu
      · rename_i hkind
        simp [Parser.isValue, hkind] at hu
      · exact ih hus u.span.stop

/-- A value is skipped as the grammar has it, whatever follows. -/
theorem skipValue_values {values : OneOrMore Token} (h : Values us values) (stop : Position)
    (rest : List Token) :
    skipValue stop (us ++ rest) = (stopAfter stop us, rest) := by
  cases h with
  | @literal t h =>
      rw [List.cons_append, skipValue]
      cases h with
      | number x hkind => simp [hkind, stopAfter, Parser.stopOf]
      | malformed hkind => simp [hkind, stopAfter, Parser.stopOf]
      | string s hkind => simp [hkind, stopAfter, Parser.stopOf]
      | truth hkind hword => simp [hkind, hword, stopAfter, Parser.stopOf]
  | @list l r values hl h hr =>
      have hlist := skipToBracket_values hr h l.span.stop rest
      rw [List.cons_append, List.append_assoc, List.singleton_append, skipValue, hl]
      dsimp only
      rw [hlist]
      simp [stopAfter, Parser.stopOf]

theorem skipValue_of_takeValues {ctx : Context} {key : String} {declaration : Token}
    {p : Parsed (OneOrMore Token)} (h : Parser.takeValues ctx key declaration ts = .ok p)
    (stop : Position) : skipValue stop ts = (p.stop, p.rest) := by
  obtain ⟨us, htakes, hvalues⟩ := Parser.takeValues_sound stop h
  rw [htakes.tokens, skipValue_values hvalues, htakes.stop]

/-- Parameters that the parser reads are skipped, and nothing behind them is. -/
theorem skipParameters_of_parameters {ctx : Context} {params : ParamMap} {stop : Position}
    {p : Parsed ParamMap} (h : (Parser.parameters ctx params stop ts).result = .ok p) :
    skipParameters stop ts = (p.stop, p.rest) := by
  fun_induction Parser.parameters ctx params stop ts with
  | case1 params stop =>
      cases h
      rw [skipParameters]
  | case2 params stop t ts hnone =>
      cases h
      rw [skipParameters, if_neg (by simp [hnone])]
  | case3 => cases h
  | case4 => cases h
  | case5 => cases h
  | case6 params stop t ts text htext type name hd key hlookup q hq hlt ih =>
      obtain ⟨value, -, hrest⟩ := Success.of_result_bind h
      have hvalue := skipValue_of_takeValues hq t.span.stop
      rw [skipParameters, if_pos (by simp [htext]), hvalue]
      exact ih value hrest

/-! ## The end of the input -/

/-- The end of the input is among the tokens. -/
def HasEnd (ts : List Token) : Prop := ∃ t ∈ ts, t.kind = .endOfInput

theorem HasEnd.of_cons {t : Token} (h : HasEnd (t :: ts)) (ht : t.kind ≠ .endOfInput) :
    HasEnd ts := by
  obtain ⟨u, hu, hend⟩ := h
  rcases List.mem_cons.mp hu with rfl | hu
  · exact absurd hend ht
  · exact ⟨u, hu, hend⟩

/-- The end of the input is not skipped, and what stands beyond these tokens is not looked at. -/
structure StopsWithin (skip : List Token → Position × List Token) (ts : List Token) : Prop where
  hasEnd : HasEnd (skip ts).2
  append (beyond : List Token) : skip (ts ++ beyond) = ((skip ts).1, (skip ts).2 ++ beyond)

theorem skipToBracket_cons {t : Token} (hr : t.kind ≠ .rightBracket) (ht : t.kind ≠ .endOfInput)
    (stop : Position) (ts : List Token) :
    skipToBracket stop (t :: ts) = skipToBracket t.span.stop ts := by
  rw [skipToBracket]
  split <;> simp_all

theorem stopsWithin_skipToBracket (h : HasEnd ts) (stop : Position) :
    StopsWithin (skipToBracket stop) ts := by
  induction ts generalizing stop with
  | nil =>
      obtain ⟨t, ht, -⟩ := h
      cases ht
  | cons t ts ih =>
      by_cases ht : t.kind = .endOfInput
      · constructor
        · simpa [skipToBracket, ht] using h
        · simp [skipToBracket, ht]
      have hts := h.of_cons ht
      by_cases hr : t.kind = .rightBracket
      · constructor
        · simpa [skipToBracket, hr] using hts
        · simp [skipToBracket, hr]
      · have hrest := ih hts t.span.stop
        constructor
        · rw [skipToBracket_cons hr ht]
          exact hrest.hasEnd
        · intro beyond
          rw [List.cons_append, skipToBracket_cons hr ht, skipToBracket_cons hr ht]
          exact hrest.append beyond

theorem stopsWithin_skipValue (h : HasEnd ts) (stop : Position) :
    StopsWithin (skipValue stop) ts := by
  cases ts with
  | nil =>
      obtain ⟨t, ht, -⟩ := h
      cases ht
  | cons t ts =>
      by_cases ht : t.kind = .endOfInput
      · constructor
        · simpa [skipValue, ht] using h
        · simp [skipValue, ht]
      have hts := h.of_cons ht
      cases hkind : t.kind with
      | leftBracket =>
          have hlist := stopsWithin_skipToBracket hts t.span.stop
          constructor
          · simpa [skipValue, hkind] using hlist.hasEnd
          · simpa [skipValue, hkind] using hlist.append
      | identifier =>
          by_cases hword : (boolWord? t.lexeme).isSome = true
          · constructor
            · simpa [skipValue, hkind, hword] using hts
            · simp [skipValue, hkind, hword]
          · constructor
            · simpa [skipValue, hkind, hword] using h
            · simp [skipValue, hkind, hword]
      | endOfInput => exact absurd hkind ht
      | _ =>
          constructor
          · simpa [skipValue, hkind] using hts
          · simp [skipValue, hkind]

theorem stopsWithin_skipParameters (h : HasEnd ts) (stop : Position) :
    StopsWithin (skipParameters stop) ts := by
  fun_induction skipParameters stop ts with
  | case1 =>
      obtain ⟨t, ht, -⟩ := h
      cases ht
  | case2 stop t ts htext hlt ih =>
      have hts : HasEnd ts := h.of_cons fun hkind => by simp [Token.string?, hkind] at htext
      have hvalue := stopsWithin_skipValue hts t.span.stop
      have hrest := ih hvalue.hasEnd
      constructor
      · rw [skipParameters, if_pos htext]
        exact hrest.hasEnd
      · intro beyond
        rw [List.cons_append, skipParameters, if_pos htext, skipParameters, if_pos htext,
          hvalue.append]
        exact hrest.append beyond
  | case3 stop t ts htext =>
      constructor
      · rw [skipParameters, if_neg htext]
        exact h
      · intro beyond
        rw [List.cons_append, skipParameters, if_neg htext, skipParameters, if_neg htext]
        rfl

/-- Behind every place in a text the end of the input is still to come. -/
theorem hasEnd_of_tokenize {source : String} {file : Option String}
    (hts : Lexer.tokenize source file = .ok ts) {j : Nat} (hj : j < ts.length) :
    HasEnd (ts.drop j) := by
  obtain ⟨body, last, rfl, hlast, -⟩ := Parser.exists_body_of_tokenize hts
  rw [List.length_append, List.length_singleton] at hj
  rw [List.drop_append_of_le_length (Nat.le_of_lt_succ hj)]
  exact ⟨last, List.mem_append_right _ List.mem_cons_self, hlast⟩

/-! ## Both ends -/

/-- From every place in a text parameters are skipped up to a place that is not before it and not
behind the end of the input, and what stands beyond the text is not looked at.  If the parser reads
parameters from there, it stops at the same place. -/
theorem skipParameters_stops {source : String} {file : Option String}
    (hts : Lexer.tokenize source file = .ok ts) {j : Nat} (hj : j < ts.length) (stop : Position) :
    ∃ k place, j ≤ k ∧ k < ts.length ∧
      (∀ beyond, skipParameters stop ((ts ++ beyond).drop j) = (place, (ts ++ beyond).drop k)) ∧
      ∀ ctx p, (Parser.parameters ctx .empty stop (ts.drop j)).result = .ok p →
        p.stop = place ∧ p.rest = ts.drop k := by
  have hwithin := stopsWithin_skipParameters (hasEnd_of_tokenize hts hj) stop
  obtain ⟨skipped, hsuffix⟩ := skipParameters_suffix stop (ts.drop j)
  -- what was skipped stands between the places `j` and `j + skipped.length`
  have hleft : (skipParameters stop (ts.drop j)).2 = ts.drop (j + skipped.length) := by
    have hdrop := congrArg (List.drop skipped.length) hsuffix
    rwa [List.drop_left, List.drop_drop] at hdrop
  have hk : j + skipped.length < ts.length := by
    obtain ⟨t, ht, -⟩ := hwithin.hasEnd
    rw [hleft] at ht
    have hpos := List.length_pos_of_mem ht
    rw [List.length_drop] at hpos
    omega
  refine ⟨_, (skipParameters stop (ts.drop j)).1, Nat.le_add_right j skipped.length, hk, ?_, ?_⟩
  · intro beyond
    rw [List.drop_append_of_le_length (Nat.le_of_lt hj),
      List.drop_append_of_le_length (Nat.le_of_lt hk), hwithin.append, hleft]
  · intro ctx p hp
    have hread := skipParameters_of_parameters hp
    rw [← hleft, hread]
    exact ⟨rfl, rfl⟩

open SceneReader.Parser (onFirstLine)

/-- The tokens of an include with two parameters, and a name behind them. -/
def includeWithParameters : List Token :=
  [⟨.identifier, "Include", ⟨none, onFirstLine 0, onFirstLine 7⟩⟩,
   ⟨.string "a", "\"a\"", ⟨none, onFirstLine 8, onFirstLine 11⟩⟩,
   ⟨.string "bool b", "\"bool b\"", ⟨none, onFirstLine 12, onFirstLine 20⟩⟩,
   ⟨.identifier, "TRUE", ⟨none, onFirstLine 21, onFirstLine 25⟩⟩,
   ⟨.string "float c", "\"float c\"", ⟨none, onFirstLine 26, onFirstLine 35⟩⟩,
   ⟨.leftBracket, "[", ⟨none, onFirstLine 36, onFirstLine 37⟩⟩,
   ⟨.malformedNumber, "2x", ⟨none, onFirstLine 38, onFirstLine 40⟩⟩,
   ⟨.rightBracket, "]", ⟨none, onFirstLine 41, onFirstLine 42⟩⟩,
   ⟨.identifier, "WorldEnd", ⟨none, onFirstLine 43, onFirstLine 51⟩⟩,
   ⟨.endOfInput, "", ⟨none, onFirstLine 51, onFirstLine 51⟩⟩]

/-- A truth value without quotes and a list with a malformed number are skipped, and the parser
stops at the same name behind them. -/
theorem skipParameters_stops_includeWithParameters :
    Lexer.tokenize "Include \"a\" \"bool b\" TRUE \"float c\" [ 2x ] WorldEnd" none =
        .ok includeWithParameters ∧
      2 < includeWithParameters.length ∧
      (Parser.parameters ⟨none, false⟩ .empty (onFirstLine 11)
          (includeWithParameters.drop 2)).result =
        .ok ⟨⟨[⟨"bool", "b", .bools ⟨true, []⟩⟩, ⟨"float", "c", .floats ⟨0.0, []⟩⟩]⟩,
          onFirstLine 42, includeWithParameters.drop 8⟩ ∧
      (skipParameters (onFirstLine 11) (includeWithParameters.drop 2)).2 =
        includeWithParameters.drop 8 := by
  have hts : Lexer.tokenize "Include \"a\" \"bool b\" TRUE \"float c\" [ 2x ] WorldEnd" none =
      .ok includeWithParameters :=
    (Lexer.tokenize_ok_iff.mpr ⟨_, .token rfl rfl rfl rfl (.token rfl rfl rfl rfl
      (.token rfl rfl rfl rfl (.token rfl rfl rfl rfl (.token rfl rfl rfl rfl
        (.token rfl rfl rfl rfl (.token rfl rfl rfl rfl (.token rfl rfl rfl rfl
          (.token rfl rfl rfl rfl (.done rfl)))))))))⟩).trans rfl
  have hread : Grammar.Parameters ((includeWithParameters.drop 2).take 6)
      [⟨"bool", "b", .bools ⟨true, []⟩⟩, ⟨"float", "c", .floats ⟨0.0, []⟩⟩] := by
    have htruth : Values ((includeWithParameters.drop 3).take 1)
        ⟨⟨.identifier, "TRUE", ⟨none, onFirstLine 21, onFirstLine 25⟩⟩, []⟩ :=
      .literal (.truth rfl (by decide))
    have hlist : Values ((includeWithParameters.drop 5).take 3)
        ⟨⟨.malformedNumber, "2x", ⟨none, onFirstLine 38, onFirstLine 40⟩⟩, []⟩ :=
      .list ⟨_, []⟩ rfl (List.forall_mem_singleton.mpr rfl) rfl
    exact .cons rfl (.typed (by decide +kernel)) htruth
      (.cons rfl (.typed (by decide +kernel)) hlist .nil)
  have hnone : ∀ t ∈ (includeWithParameters.drop 8).head?, t.string? = none := by
    simp [includeWithParameters, Token.string?]
  have hparameters : (Parser.parameters ⟨none, false⟩ .empty (onFirstLine 11)
      ((includeWithParameters.drop 2).take 6 ++ includeWithParameters.drop 8)).result = .ok _ :=
    Parser.parameters_complete rfl hread (by decide) hnone (onFirstLine 11)
  have hlength : 2 < includeWithParameters.length := by decide
  obtain ⟨k, place, -, -, hskip, hstop⟩ :=
    skipParameters_stops hts hlength (onFirstLine 11)
  refine ⟨hts, hlength, hparameters, ?_⟩
  have hskip' := hskip []
  rw [List.append_nil] at hskip'
  rw [hskip']
  exact (hstop _ _ hparameters).2.symm

end Include
end SceneReader

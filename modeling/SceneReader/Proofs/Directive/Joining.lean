import SceneReader.Proofs.Directive.Places
import SceneReader.Proofs.Directive.RoundTrip
import SceneReader.Proofs.Include.Frame

/-!
# Texts one after the other

Each of two texts is read as directives.  Then the first one, a line feed and the second one are
read as the directives of both in order, with the warnings of both in order: no token and no
directive goes on from the one into the other.

The last token of the first text ends before the line feed, and so does a comment behind it.  What
the second text begins with is the name of a directive or nothing at all, and with neither of them
does an argument or a parameter go on.

**Results.**
* `tokens_append`: the tokens of the texts are those of the joined text at other places.
* `parse_append`: tokens of directives, one row after the other.
* `readsAs_append`: two texts, and a third one that is put between them.
-/

namespace SceneReader
namespace Parser

variable {strict : Bool} {file₁ file₂ : Option String} {lines₁ lines₂ : Option (List String)}
  {s₁ s₂ : String} {ts₁ ts₂ : List Token} {ds₁ ds₂ : List Directive} {notes₁ notes₂ : Diagnostics}

/-- A text in a file of some name is read as directives, with some warnings, while some lines are
at hand to be quoted. -/
def ReadsAs (strict : Bool) (file : Option String) (lines : Option (List String))
    (source : String) (ds : List Directive) (notes : Diagnostics) : Prop :=
  ∃ ts, Lexer.tokenize source file = .ok ts ∧ parse ⟨lines, strict⟩ ts = ⟨notes, .ok ds⟩

/-- The text is read as the directives with the warnings but for their places, whatever its file is
called and whatever lines are at hand. -/
def ReadsAlike (strict : Bool) (source : String) (ds : List Directive) (notes : Diagnostics) :
    Prop :=
  ∀ file lines, ∃ ds' notes', ReadsAs strict file lines source ds' notes' ∧
    ds'.map Directive.unplaced = ds.map Directive.unplaced ∧
    notes'.map Diagnostic.unplaced = notes.map Diagnostic.unplaced

/-! ## Tokens -/

/-- The tokens of a joined text are those of the first text but for its end, and those of the
second one. -/
theorem tokens_append (h₁ : Lexer.tokenize s₁ file₁ = .ok ts₁)
    (h₂ : Lexer.tokenize s₂ file₂ = .ok ts₂) (file : Option String) :
    ∃ body₁ last us vs, ts₁ = body₁ ++ [last] ∧ last.kind = .endOfInput ∧
      (∀ t ∈ body₁, t.kind ≠ .endOfInput) ∧
      Lexer.tokenize (s₁ ++ "\n" ++ s₂) file = .ok (us ++ vs) ∧ Moved body₁ us ∧ Moved ts₂ vs := by
  obtain ⟨body₁, last, rfl, hlast, hbody⟩ := exists_body_of_tokenize h₁
  obtain ⟨ps₁, hrow₁⟩ := Lexer.tokenize_ok_iff.mp h₁
  obtain ⟨ps₂, hrow₂⟩ := Lexer.tokenize_ok_iff.mp h₂
  obtain ⟨u, hscans, hend⟩ := hrow₁.spells
  obtain ⟨core, hcore⟩ := hscans.exists_core
  rw [hcore] at hscans
  have hspells := Include.spells_newline hscans hend hrow₂.spells
  have htext : core ++ (u ++ '\n' :: s₂.toList) = (s₁ ++ "\n" ++ s₂).toList := by
    simp [hcore]
  rw [htext] at hspells
  obtain ⟨ts, hts, hpieces⟩ := (Lexer.spells_iff file).mp hspells
  rw [String.ofList_toList] at hts
  have hbody₁ : body₁.map Token.piece = ps₁ := by
    have hall := hrow₁.map_piece
    rw [List.map_append] at hall
    exact (List.append_inj' hall rfl).1
  rw [List.append_assoc, ← hrow₂.map_piece, ← hbody₁] at hpieces
  obtain ⟨us, vs, rfl, hus, hvs⟩ := List.map_eq_append_iff.mp hpieces
  exact ⟨body₁, last, us, vs, rfl, hlast, hbody, hts, hus, hvs⟩

/-! ## Directives -/

/-- What is read as directives begins with no string. -/
theorem noString_of_parse {ctx : Context} (h : (parse ctx ts₂).result = .ok ds₂) :
    ∀ t ∈ ts₂.head?, t.string? = none := by
  have hstrict : ctx.strict = ctx.strict := rfl
  obtain ⟨body, rest, rfl, hend, -, hhead, -⟩ := read_exchange hstrict (result_parse_iff.mp h).1
  cases body with
  | cons t body => exact hhead
  | nil =>
      cases rest with
      | nil => exact fun t ht => (Option.not_mem_none t ht).elim
      | cons t rest =>
          rintro _ ⟨⟩
          rw [Token.string?, Token.isEnd_iff.mp hend]

/-- Tokens of directives at other places, behind other such tokens. -/
theorem parse_append {ctx₁ ctx₂ ctx : Context} (hstrict₁ : ctx.strict = ctx₁.strict)
    (hstrict₂ : ctx.strict = ctx₂.strict) {body last us vs}
    (hlast : last.kind = .endOfInput) (hbody : ∀ t ∈ body, t.kind ≠ .endOfInput)
    (h₁ : parse ctx₁ (body ++ [last]) = ⟨notes₁, .ok ds₁⟩)
    (h₂ : parse ctx₂ ts₂ = ⟨notes₂, .ok ds₂⟩) (hus : Moved body us) (hvs : Moved ts₂ vs) :
    ∃ ds notes, parse ctx (us ++ vs) = ⟨notes, .ok ds⟩ ∧
      ds.map Directive.unplaced = (ds₁ ++ ds₂).map Directive.unplaced ∧
      notes.map Diagnostic.unplaced = (notes₁ ++ notes₂).map Diagnostic.unplaced := by
  have hresult₁ := congrArg Reported.result h₁
  have hresult₂ := congrArg Reported.result h₂
  obtain ⟨herror, hread⟩ := result_parse_iff.mp hresult₁
  obtain ⟨front, rest, hts, hend, hfront, -, hexchange⟩ := read_exchange hstrict₁ herror
  obtain ⟨rfl, rfl⟩ := body_unique hts hbody hfront hlast hend
  have hnone : ∀ t ∈ vs.head?, t.string? = none := by
    have hmore : ∀ t ∈ ([] : List Token).head?, t.string? = none := nofun
    simpa using noString_moved hvs (noString_of_parse hresult₂) hmore
  obtain ⟨inner, notes, hboth, hinner, hnotes⟩ := hexchange us vs hus hnone
  obtain ⟨ds', hds', hsame, hnotes'⟩ := repeats_parse_moved hstrict₂ hvs _ hresult₂
  obtain ⟨herror', hread'⟩ := result_parse_iff.mp hds'
  refine ⟨inner ++ ds', notes ++ (read ctx vs).notes, ?_, ?_, ?_⟩
  · unfold parse
    rw [hboth, herror', hread']
  · rw [List.map_append, List.map_append, hinner, hread, hsame]
  · have hfirst : (read ctx₁ (front ++ [last])).notes = notes₁ := congrArg Reported.notes h₁
    have hsecond : (read ctx vs).notes.map Diagnostic.unplaced =
        notes₂.map Diagnostic.unplaced := by
      rw [h₂] at hnotes'
      exact hnotes'
    rw [List.map_append, List.map_append, hnotes, hfirst, hsecond]

/-- Two texts that are read as directives, one after the other. -/
theorem ReadsAs.append (h₁ : ReadsAs strict file₁ lines₁ s₁ ds₁ notes₁)
    (h₂ : ReadsAs strict file₂ lines₂ s₂ ds₂ notes₂) :
    ReadsAlike strict (s₁ ++ "\n" ++ s₂) (ds₁ ++ ds₂) (notes₁ ++ notes₂) := by
  obtain ⟨ts₁, hts₁, hparse₁⟩ := h₁
  obtain ⟨ts₂, hts₂, hparse₂⟩ := h₂
  intro file lines
  obtain ⟨body, last, us, vs, rfl, hlast, hbody, hts, hus, hvs⟩ := tokens_append hts₁ hts₂ file
  have hstrict (lines' : Option (List String)) :
      (⟨lines, strict⟩ : Context).strict = (⟨lines', strict⟩ : Context).strict := rfl
  obtain ⟨ds, notes, hparse, hds, hnotes⟩ :=
    parse_append (hstrict lines₁) (hstrict lines₂) hlast hbody hparse₁ hparse₂ hus hvs
  exact ⟨ds, notes, ⟨us ++ vs, hts, hparse⟩, hds, hnotes⟩

/-- Two texts that are read as directives are read one after the other as the directives of both,
with the warnings of both.  A third such text may be put between them, and all three are read as
before. -/
theorem readsAs_append (h₁ : ReadsAs strict file₁ lines₁ s₁ ds₁ notes₁)
    (h₂ : ReadsAs strict file₂ lines₂ s₂ ds₂ notes₂) :
    ReadsAlike strict (s₁ ++ "\n" ++ s₂) (ds₁ ++ ds₂) (notes₁ ++ notes₂) ∧
      ∀ file lines s ds notes, ReadsAs strict file lines s ds notes →
        ReadsAlike strict (s₁ ++ "\n" ++ s ++ "\n" ++ s₂) (ds₁ ++ ds ++ ds₂)
          (notes₁ ++ notes ++ notes₂) := by
  refine ⟨h₁.append h₂, fun file lines s ds notes h => ?_⟩
  obtain ⟨ds', notes', hfront, hds, hnotes⟩ := h₁.append h file lines
  intro file' lines'
  obtain ⟨ds'', notes'', hall, hds', hnotes'⟩ := hfront.append h₂ file' lines'
  refine ⟨ds'', notes'', hall, hds'.trans ?_, hnotes'.trans ?_⟩
  · rw [List.map_append, hds, ← List.map_append]
  · rw [List.map_append, hnotes, ← List.map_append]

/-! A text that ends in a comment, without a line feed, and gives a warning. -/

/-- The tokens of a sphere with a flag that is neither true nor false. -/
def flaggedSphere : List Token :=
  [⟨.identifier, "Shape", ⟨none, onFirstLine 0, onFirstLine 5⟩⟩,
   ⟨.string "sphere", "\"sphere\"", ⟨none, onFirstLine 6, onFirstLine 14⟩⟩,
   ⟨.string "bool flag", "\"bool flag\"", ⟨none, onFirstLine 15, onFirstLine 26⟩⟩,
   ⟨.string "maybe", "\"maybe\"", ⟨none, onFirstLine 27, onFirstLine 34⟩⟩,
   ⟨.endOfInput, "", ⟨none, onFirstLine 40, onFirstLine 40⟩⟩]

/-- The sphere as it is read. -/
def unflaggedSphere : Directive :=
  ⟨.shape, [.text "sphere"], ⟨[⟨"bool", "flag", .bools ⟨false, []⟩⟩]⟩,
    some ⟨none, onFirstLine 0, onFirstLine 34⟩⟩

/-- The warning about the flag. -/
def flagWarning : Diagnostic :=
  (Caution.malformedBool "bool flag" "\"maybe\"").diagnostic
    ⟨none, onFirstLine 27, onFirstLine 34⟩ none

theorem readsAs_flaggedSphere :
    ReadsAs false none none "Shape \"sphere\" \"bool flag\" \"maybe\" # end"
      [unflaggedSphere] [flagWarning] := by
  have hts : Lexer.tokenize "Shape \"sphere\" \"bool flag\" \"maybe\" # end" none =
      .ok flaggedSphere :=
    (Lexer.tokenize_ok_iff.mpr ⟨_, .token rfl rfl rfl rfl (.token rfl rfl rfl rfl
      (.token rfl rfl rfl rfl (.token rfl rfl rfl rfl (.done rfl))))⟩).trans rfl
  have hd : declaration? "bool flag" = some ("bool", "flag") := by decide +kernel
  have hvalue : buildProperty (misfit ⟨none, false⟩ (makeKey "bool" "flag")) "bool"
      ⟨⟨.string "maybe", "\"maybe\"", ⟨none, onFirstLine 27, onFirstLine 34⟩⟩, []⟩ =
      ⟨[flagWarning], .ok (.bools ⟨false, []⟩)⟩ := rfl
  have hparams (stop : Position) :
      parameters ⟨none, false⟩ .empty stop (flaggedSphere.drop 2) =
        ⟨[flagWarning], .ok ⟨unflaggedSphere.params, onFirstLine 34, flaggedSphere.drop 4⟩⟩ := by
    change parameters _ _ _ (_ :: _) = _
    rw [parameters_cons rfl hd List.not_mem_nil rfl]
    change buildProperty _ _ ⟨_, []⟩ >>= _ = _
    rw [hvalue, Reported.ok_bind, parameters_of_noString (by rintro _ ⟨⟩; rfl)]
    rfl
  have hdirective : directive ⟨none, false⟩ flaggedSphere =
      ⟨[flagWarning], .ok ⟨unflaggedSphere, onFirstLine 34, flaggedSphere.drop 4⟩⟩ := by
    change parameters _ _ _ (flaggedSphere.drop 2) >>= _ = _
    rw [hparams]
    rfl
  have hmore : ¬ atEnd flaggedSphere = true := Bool.false_ne_true
  have hend : read ⟨none, false⟩ (flaggedSphere.drop 4) = ⟨[], [], none⟩ := by
    rw [read]
    rfl
  refine ⟨_, hts, ?_⟩
  unfold parse
  rw [read_eq hmore, hdirective]
  dsimp only
  rw [hend]
  rfl

/-- The identity as it is read. -/
def identityAlone : Directive :=
  ⟨.identity, [], .empty, some ⟨none, onFirstLine 0, onFirstLine 8⟩⟩

theorem readsAs_identity : ReadsAs false none none "Identity" [identityAlone] [] := by
  let ts : List Token := [⟨.identifier, "Identity", ⟨none, onFirstLine 0, onFirstLine 8⟩⟩,
    ⟨.endOfInput, "", ⟨none, onFirstLine 8, onFirstLine 8⟩⟩]
  have hts : Lexer.tokenize "Identity" none = .ok ts :=
    (Lexer.tokenize_ok_iff.mpr ⟨_, .token rfl rfl rfl rfl (.done rfl)⟩).trans rfl
  have hmore : ¬ atEnd ts = true := Bool.false_ne_true
  refine ⟨ts, hts, parse_eq_pure_iff.mpr ((read_eq_cons_iff hmore).mpr
    ⟨⟨_, onFirstLine 8, ts.tail⟩, rfl, rfl, ?_⟩)⟩
  rw [read]
  rfl

/-- The comment does not run on into the directive behind it, and a third text between the two is
read by itself. -/
theorem readsAs_append_flaggedSphere :
    ReadsAs false none none "Shape \"sphere\" \"bool flag\" \"maybe\" # end" [unflaggedSphere]
        [flagWarning] ∧
      ReadsAlike false ("Shape \"sphere\" \"bool flag\" \"maybe\" # end" ++ "\n" ++ "Identity"
        ++ "\n" ++ "Identity") ([unflaggedSphere] ++ [identityAlone] ++ [identityAlone])
        ([flagWarning] ++ [] ++ []) :=
  ⟨readsAs_flaggedSphere,
    (readsAs_append readsAs_flaggedSphere readsAs_identity).2 _ _ _ _ _ readsAs_identity⟩

end Parser
end SceneReader

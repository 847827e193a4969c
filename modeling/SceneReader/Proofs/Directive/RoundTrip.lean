import SceneReader.Proofs.Directive.WrittenParameters
import SceneReader.Scene.Loading

/-!
# Directives that are read back

The directives of a text are written again, one to a line, and what is written is read.
It gives directives with the same names, arguments and parameters, and no diagnostic,
exactly when every directive is legible.

Four things are illegible: a number that is written as a word, among arguments and values;
a text that ends with a backslash; a name of a parameter that does; and truth values
without a declared type.  Infinity is the value of every numeral that is too large.

**Results.**
* `toList_format`: a directive is written in words.
* `readsBack_directive`, `read_lines_iff`: a directive, and a text of directives, is read
  back exactly when it is legible.
* `roundTrips_iff_of_wellFormed`: well-formed directives are written so that they are read again.
* `roundTrips_iff`: the directives of a text are written so that they are read again.
-/

namespace SceneReader

open Lexer (Tokens Cut Quotable spaced)

namespace Directive

/-- What a directive says, wherever it stands. -/
def content (d : Directive) : DirectiveName × List Argument × ParamMap :=
  (d.name, d.args, d.params)

/-- The directive is written in a way that can be read. -/
structure Legible (d : Directive) : Prop where
  args : ∀ a ∈ d.args, a.Legible
  params : ∀ p ∈ d.params.entries, p.Legible

/-- The numbers that a directive is written with, but for integers. -/
def writtenNumbers (d : Directive) : List Float :=
  d.numbers ++ d.params.entries.flatMap (·.value.numbers)

/-- The words behind the name of a directive. -/
def words (d : Directive) : List String :=
  d.name.signature.argWords d.args ++ d.params.entries.flatMap Param.words

end Directive

/-- The arguments are those that the name asks for, and the parameters could have been declared,
of which there are none where the name does not ask for them. -/
structure Directive.WellFormed (d : Directive) : Prop where
  fits : d.name.signature.Fits d.args
  declared : d.params.WellDeclared
  bare : d.name.signature.hasParams = false → d.params = .empty

theorem Directive.Parsed.wellFormed {d : Directive} (h : d.Parsed) : d.WellFormed :=
  ⟨h.fits, h.wellDeclared.1, h.wellDeclared.2⟩

/-- The directives in scene text, one to a line. -/
def written (ds : List Directive) : String :=
  "\n".intercalate (ds.map (·.format none))

/-- What is written is read without a diagnostic, and says the same. -/
def RoundTrips (o : Options) (file : Option String) (ds : List Directive) : Prop :=
  ∃ ds', directivesOf o file (written ds) = pure ds' ∧
    ds'.map Directive.content = ds.map Directive.content

/-! ## Written directives -/

theorem spaced_bracketed (w : String) (ws : List String) :
    spaced [bracketed (w :: ws)] = spaced ("[" :: (w :: ws ++ ["]"])) := by
  rw [show spaced [bracketed (w :: ws)] = ' ' :: (bracketed (w :: ws)).toList ++ [] from rfl]
  simp only [bracketed, String.toList_append, Lexer.toList_intercalate_space]
  simp [spaced]

theorem spaced_bracketed_of_ne_nil {ws : List String} (h : ws ≠ []) :
    spaced [bracketed ws] = spaced ("[" :: (ws ++ ["]"])) := by
  obtain ⟨w, ws, rfl⟩ := List.exists_cons_of_ne_nil h
  exact spaced_bracketed w ws

theorem Property.items_ne_nil (v : Property) : v.items ≠ [] := by
  cases v with
  | floats | ints | strings | bools => exact List.cons_ne_nil _ _

theorem spaced_paramTexts (p : Param) :
    spaced (Directive.paramTexts none p) = spaced p.words := by
  change spaced ([Text.quote p.key] ++ [bracketed p.value.items]) =
    spaced ([Text.quote p.key] ++ _)
  rw [Lexer.spaced_append, Lexer.spaced_append,
    spaced_bracketed_of_ne_nil p.value.items_ne_nil]

theorem spaced_argTexts {d : Directive} (h : d.name.signature.Fits d.args) :
    spaced d.argTexts = spaced (d.name.signature.argWords d.args) := by
  unfold Directive.argTexts
  generalize d.name.signature = shape at *
  generalize d.args = args at *
  cases h with
  | matrix xs hlength =>
      refine spaced_bracketed_of_ne_nil ?_
      intro hnil
      simp only [List.map_eq_nil_iff] at hnil
      rw [hnil] at hlength
      cases hlength
  | nothing | numbers | keyword | name | oneName | twoNames | named | texture => rfl

/-- A directive is written in words. -/
theorem toList_format {d : Directive} (h : d.name.signature.Fits d.args) :
    (d.format none).toList = d.name.text.toList ++ spaced d.words := by
  have hparams : spaced (d.params.entries.flatMap (Directive.paramTexts none)) =
      spaced (d.params.entries.flatMap Param.words) := by
    induction d.params.entries with
    | nil => rfl
    | cons p ps ih =>
        rw [List.flatMap_cons, List.flatMap_cons, Lexer.spaced_append, Lexer.spaced_append, ih,
          spaced_paramTexts]
  unfold Directive.format Directive.words
  rw [List.cons_append, Lexer.toList_intercalate_space, Lexer.spaced_append, Lexer.spaced_append,
    spaced_argTexts h, hparams]

theorem lexes_name (name : DirectiveName) : Lexer.Lexes name.text .identifier :=
  .name (by cases name <;> decide)

/-- The lines of a text, each behind its line feed. -/
def lines (ds : List Directive) : List Char :=
  ds.flatMap fun d => '\n' :: (d.format none).toList

theorem cut_lines (ds : List Directive) : Cut (lines ds) := by
  cases ds with
  | nil => exact Lexer.cut_nil
  | cons d ds => exact Lexer.cut_blank (by decide) _

theorem lines_cons (d : Directive) (ds : List Directive) :
    lines (d :: ds) = '\n' :: ((d.format none).toList ++ lines ds) := by
  simp [lines]

/-- A text is its lines without the first line feed. -/
theorem toList_written (d : Directive) (ds : List Directive) :
    lines (d :: ds) = '\n' :: (written (d :: ds)).toList := by
  have hlines : lines ds = (ds.map (·.format none)).flatMap
      (fun line => "\n".toList ++ line.toList) := by
    rw [List.flatMap_map]
    rfl
  rw [lines_cons, hlines, written, List.map_cons, Lexer.toList_intercalate_cons]

theorem takeGap_written (ds : List Directive) :
    (Lexer.takeGap false (lines ds)).2 = (Lexer.takeGap false (written ds).toList).2 := by
  cases ds with
  | nil => rfl
  | cons d ds =>
      rw [toList_written]
      exact Lexer.takeGap_blank_cons Lexer.isBlank_newline _

namespace Parser

variable {ctx : Context} {after : List Char} {ts : List Token} {d : Directive}

/-! ## One directive -/

/-- The parameters of a well-formed directive are read back exactly when they are legible. -/
theorem readsBack_parametersOf {stop : Position} (hd : d.WellFormed)
    (hexact : ∀ p ∈ d.params.entries, ∀ x ∈ p.value.numbers, Number.Exact x)
    (hafter : Cut after) (hnext : NoString after)
    (h : Tokens (spaced (d.params.entries.flatMap Param.words) ++ after) ts) :
    ReadsBack (parametersOf ctx d.name.signature stop ts) (· = d.params)
      (∀ p ∈ d.params.entries, p.Legible) after := by
  rw [parametersOf_eq]
  split
  · have hreads : ReadsBack (parameters ctx .empty stop ts) _ _ after :=
      readsBack_parameters hd.declared hexact hafter hnext h
    refine ⟨fun hlegible => ?_, fun p hp hvalue => hreads.leaves p hp (congrArg _ hvalue)⟩
    obtain ⟨p, hp, hvalue⟩ := hreads.finds hlegible
    exact ⟨p, hp, congrArg ParamMap.mk hvalue⟩
  · rename_i hshape
    have hempty := hd.bare (Bool.eq_false_iff.mpr hshape)
    rw [hempty] at h ⊢
    refine ⟨fun _ => ⟨_, rfl, rfl⟩, fun p hp _ => ?_⟩
    cases hp
    exact ⟨List.forall_mem_nil _, h⟩

/-- A directive is read back exactly when it is legible. -/
theorem readsBack_directive (hd : d.WellFormed)
    (hexact : ∀ x ∈ d.writtenNumbers, Number.Exact x) (hafter : Cut after)
    (hnext : NoString after)
    (h : Tokens (d.name.text.toList ++ (spaced d.words ++ after)) ts) :
    ReadsBack (directive ctx ts) (fun d' => d'.content = d.content) d.Legible after := by
  obtain ⟨t, rest, rfl, ht, hrest⟩ := h.uncons (lexes_name d.name _ (Lexer.cut_spaced hafter _))
  have hname : directiveName ctx (t :: rest) = .ok (d.name, t) := by
    have hidentifier : t.identifier? = some d.name.text := Token.identifier?_of_piece ht
    simp only [directiveName, hidentifier, DirectiveName.ofText?_text]
  rw [Directive.words, Lexer.spaced_append, List.append_assoc] at hrest
  have hsingle : d.name.signature = .oneOrTwoNames →
      NoString (spaced (d.params.entries.flatMap Param.words) ++ after) := by
    intro hshape
    rw [hd.bare (by rw [hshape]; rfl)]
    exact hnext
  have hargs : ReadsBack (arguments ctx t d.name.signature rest) _ _ _ :=
    readsBack_arguments hd.fits
      (fun x hx => hexact x (List.mem_append_left _ (List.mem_filterMap.mpr ⟨_, hx, rfl⟩)))
      (Lexer.cut_spaced hafter _) hsingle hrest
  have hparams : ∀ args : Parsed (List Argument),
      Tokens (spaced (d.params.entries.flatMap Param.words) ++ after) args.rest →
      ReadsBack (parametersOf ctx d.name.signature args.stop args.rest) (· = d.params)
        (∀ p ∈ d.params.entries, p.Legible) after := by
    intro args htokens
    refine readsBack_parametersOf hd (fun p hp x hx => hexact x ?_) hafter hnext htokens
    exact List.mem_append_right _ (List.mem_flatMap.mpr ⟨p, hp, hx⟩)
  constructor
  · intro hlegible
    obtain ⟨args, hread, hvalue⟩ := hargs.finds hlegible.args
    obtain ⟨-, htokens⟩ := hargs.leaves args hread hvalue
    obtain ⟨params, hread', hvalue'⟩ := (hparams args htokens).finds hlegible.params
    unfold directive
    rw [hname]
    dsimp only [List.tail_cons]
    rw [show arguments ctx t d.name.signature rest = .ok args from hread]
    dsimp only
    rw [hread', pure_bind]
    exact ⟨_, rfl, by rw [Directive.content, Directive.content, hvalue, hvalue']⟩
  · intro p hp hcontent
    unfold directive at hp
    rw [hname] at hp
    dsimp only [List.tail_cons] at hp
    split at hp
    · cases hp
    · rename_i args hread
      obtain ⟨params, hread', hp⟩ := Success.of_bind_eq_pure hp
      cases hp
      simp only [Directive.content, Prod.mk.injEq, true_and] at hcontent
      obtain ⟨hlegible, htokens⟩ := hargs.leaves args hread hcontent.1
      obtain ⟨hlegible', htokens⟩ := (hparams args htokens).leaves params hread' hcontent.2
      exact ⟨⟨hlegible, hlegible'⟩, htokens⟩

/-! ## Texts -/

/-- The first line begins with the name of its directive. -/
theorem lines_cons_of_wellFormed (hd : d.WellFormed) (ds : List Directive) :
    lines (d :: ds) = '\n' :: (d.name.text.toList ++ (spaced d.words ++ lines ds)) := by
  rw [lines_cons, toList_format hd.fits, List.append_assoc]

theorem tokens_lines_cons {ds : List Directive} (hd : d.WellFormed)
    (h : Tokens (lines (d :: ds)) ts) :
    Tokens (d.name.text.toList ++ (spaced d.words ++ lines ds)) ts := by
  rw [lines_cons_of_wellFormed hd] at h
  exact h.of_blank Lexer.isBlank_newline

theorem kind_of_lines_cons {ds : List Directive} (hd : d.WellFormed)
    (h : Tokens (lines (d :: ds)) ts) :
    ∃ t rest, ts = t :: rest ∧ t.kind = .identifier := by
  obtain ⟨t, rest, rfl, ht, -⟩ := (tokens_lines_cons hd h).uncons
    (lexes_name d.name _ (Lexer.cut_spaced (cut_lines ds) _))
  exact ⟨t, rest, rfl, congrArg Lexer.Piece.kind ht⟩

theorem kind_of_lines_nil (h : Tokens (lines []) ts) : ∃ t, ts = [t] ∧ t.kind = .endOfInput := by
  obtain ⟨e, rfl, he⟩ := h.end_of_nil
  exact ⟨e, rfl, congrArg Lexer.Piece.kind he⟩

theorem noString_lines {ds : List Directive} (hds : ∀ d ∈ ds, d.WellFormed) :
    NoString (lines ds) := by
  intro ts h t ht
  cases ds with
  | nil =>
      obtain ⟨e, rfl, hkind⟩ := kind_of_lines_nil h
      cases ht
      rw [Token.string?, hkind]
  | cons d ds =>
      obtain ⟨u, rest, rfl, hkind⟩ := kind_of_lines_cons (hds d List.mem_cons_self) h
      cases ht
      rw [Token.string?, hkind]

theorem read_eq (hend : ¬ atEnd ts = true) :
    read ctx ts = match (directive ctx ts).result with
      | .error e => ⟨[], (directive ctx ts).notes, some e⟩
      | .ok p => ⟨p.value :: (read ctx p.rest).directives,
          (directive ctx ts).notes ++ (read ctx p.rest).notes, (read ctx p.rest).error⟩ := by
  rw [read, if_neg hend]
  dsimp only
  split
  · rename_i hd
    rw [hd]
  · rename_i hd
    rw [hd]

/-- A reading without a diagnostic begins with a directive and goes on with a reading. -/
theorem read_eq_cons_iff {d : Directive} {ds : List Directive} (hend : ¬ atEnd ts = true) :
    read ctx ts = ⟨d :: ds, [], none⟩ ↔
      ∃ p, directive ctx ts = pure p ∧ p.value = d ∧ read ctx p.rest = ⟨ds, [], none⟩ := by
  rw [read_eq hend]
  obtain ⟨notes, _ | p⟩ := directive ctx ts
  · constructor
    · intro h
      cases h
    · rintro ⟨p, h, -⟩
      cases h
  · dsimp only
    constructor
    · intro h
      obtain ⟨hds, hnotes, herror⟩ := Reading.mk.inj h
      obtain ⟨hd, hds⟩ := List.cons.inj hds
      obtain ⟨rfl, hnotes⟩ := List.append_eq_nil_iff.mp hnotes
      refine ⟨p, rfl, hd, ?_⟩
      cases hread : read ctx p.rest
      rw [hread] at hds hnotes herror
      subst hds hnotes herror
      rfl
    · rintro ⟨q, hq, rfl, hread⟩
      cases hq
      rw [hread]
      rfl

/-- A text of directives is read back exactly when every directive is legible. -/
theorem read_lines_iff {ds : List Directive} (hds : ∀ d ∈ ds, d.WellFormed)
    (hexact : ∀ d ∈ ds, ∀ x ∈ d.writtenNumbers, Number.Exact x) (h : Tokens (lines ds) ts) :
    (∃ ds', read ctx ts = ⟨ds', [], none⟩ ∧
      ds'.map Directive.content = ds.map Directive.content) ↔ ∀ d ∈ ds, d.Legible := by
  induction ds generalizing ts with
  | nil =>
      obtain ⟨e, rfl, hkind⟩ := kind_of_lines_nil h
      have hend : atEnd [e] = true := by
        rw [atEnd, Token.isEnd, hkind]
      rw [read, if_pos hend]
      exact iff_of_true ⟨[], rfl, rfl⟩ (List.forall_mem_nil _)
  | cons d ds ih =>
      obtain ⟨hd, hrest⟩ := List.forall_mem_cons.mp hds
      obtain ⟨hexact, hexact'⟩ := List.forall_mem_cons.mp hexact
      have hend : ¬ atEnd ts = true := by
        obtain ⟨t, rest, rfl, hkind⟩ := kind_of_lines_cons hd h
        simp [atEnd, Token.isEnd, hkind]
      have hreads : ReadsBack (directive ctx ts) _ d.Legible (lines ds) :=
        readsBack_directive hd hexact (cut_lines ds) (noString_lines hrest)
          (tokens_lines_cons hd h)
      rw [List.forall_mem_cons]
      constructor
      · rintro ⟨ds', hread, hcontent⟩
        cases ds' with
        | nil => cases hcontent
        | cons d' ds' =>
            obtain ⟨hfirst, hrest'⟩ := List.cons.inj hcontent
            obtain ⟨p, hp, rfl, hread'⟩ := (read_eq_cons_iff hend).mp hread
            obtain ⟨hlegible, htokens⟩ := hreads.leaves p hp hfirst
            exact ⟨hlegible, (ih hrest hexact' htokens).mp ⟨ds', hread', hrest'⟩⟩
      · rintro ⟨hlegible, hall⟩
        obtain ⟨p, hp, hfirst⟩ := hreads.finds hlegible
        obtain ⟨-, htokens⟩ := hreads.leaves p hp hfirst
        obtain ⟨ds', hread, hcontent⟩ := (ih hrest hexact' htokens).mpr hall
        exact ⟨p.value :: ds', (read_eq_cons_iff hend).mpr ⟨p, hp, rfl, hread⟩,
          congrArg₂ List.cons hfirst hcontent⟩

theorem parse_eq_pure_iff {ds : List Directive} :
    parse ctx ts = pure ds ↔ read ctx ts = ⟨ds, [], none⟩ := by
  unfold parse
  obtain ⟨ds', notes, error⟩ := read ctx ts
  constructor
  · intro h
    cases error with
    | none =>
        cases h
        rfl
    | some e => cases h
  · intro h
    cases h
    rfl

/-! ## Tokens of legible directives -/

/-- The words of a legible directive are one token each. -/
theorem lexes_words (hd : d.WellFormed) (hexact : ∀ x ∈ d.writtenNumbers, Number.Exact x)
    (hlegible : d.Legible) : ∀ w ∈ d.words, ∃ kind, Lexer.Lexes w kind := by
  obtain ⟨hargs, hparams⟩ := List.forall_mem_append.mp hexact
  refine List.forall_mem_append.mpr ⟨?_, fun w hw => ?_⟩
  · exact lexes_argWords hd.fits
      (fun x hx => hargs x (List.mem_filterMap.mpr ⟨_, hx, rfl⟩)) hlegible.args
  · obtain ⟨p, hp, hw⟩ := List.mem_flatMap.mp hw
    exact lexes_paramWords (hd.declared.declared p hp)
      (fun x hx => hparams x (List.mem_flatMap.mpr ⟨p, hp, hx⟩)) (hlegible.params p hp) w hw

theorem spells_lines {ds : List Directive} (hds : ∀ d ∈ ds, d.WellFormed)
    (hexact : ∀ d ∈ ds, ∀ x ∈ d.writtenNumbers, Number.Exact x)
    (hlegible : ∀ d ∈ ds, d.Legible) : ∃ ps, Lexer.Spells (lines ds) ps := by
  induction ds with
  | nil => exact ⟨[], [], .nil [], rfl⟩
  | cons d ds ih =>
      obtain ⟨hd, hrest⟩ := List.forall_mem_cons.mp hds
      obtain ⟨hexact, hexact'⟩ := List.forall_mem_cons.mp hexact
      obtain ⟨hfirst, hlegible'⟩ := List.forall_mem_cons.mp hlegible
      obtain ⟨ps, hps⟩ := ih hrest hexact' hlegible'
      obtain ⟨qs, hqs⟩ := Lexer.spells_spaced (lexes_words hd hexact hfirst) (cut_lines ds) hps
      have hname := (lexes_name d.name _ (Lexer.cut_spaced (cut_lines ds) _)).spells hqs
      refine ⟨_, hname.congr ?_⟩
      rw [lines_cons_of_wellFormed hd]
      exact Lexer.takeGap_blank_cons Lexer.isBlank_newline _

end Parser

/-- Written directives are read back exactly when they are legible. -/
theorem roundTrips_iff_of_wellFormed (o : Options) (file : Option String) {ds : List Directive}
    (hds : ∀ d ∈ ds, d.WellFormed) (hexact : ∀ d ∈ ds, ∀ x ∈ d.writtenNumbers, Number.Exact x) :
    RoundTrips o file ds ↔ ∀ d ∈ ds, d.Legible := by
  unfold RoundTrips
  constructor
  · rintro ⟨ds', hread, hcontent⟩
    obtain ⟨ts, htokenize, hparse⟩ := Success.of_bind_eq_pure hread
    have htokens := Lexer.tokens_of_tokenize (congrArg Reported.result htokenize)
    exact (Parser.read_lines_iff hds hexact (htokens.congr (takeGap_written ds))).mp
      ⟨ds', Parser.parse_eq_pure_iff.mp hparse, hcontent⟩
  · intro hlegible
    obtain ⟨ps, hspells⟩ := Parser.spells_lines hds hexact hlegible
    obtain ⟨ts, htokenize, -⟩ :=
      (Lexer.spells_iff file).mp (hspells.congr (takeGap_written ds).symm)
    rw [String.ofList_toList] at htokenize
    have htokens := Lexer.tokens_of_tokenize htokenize
    obtain ⟨ds', hread, hcontent⟩ :=
      (Parser.read_lines_iff hds hexact (htokens.congr (takeGap_written ds))).mpr hlegible
    refine ⟨ds', ?_, hcontent⟩
    unfold directivesOf
    rw [htokenize]
    exact Parser.parse_eq_pure_iff.mpr hread

/-- Written directives that could be parsed are read back exactly when they are legible. -/
theorem roundTrips_iff_of_parsed (o : Options) (file : Option String) {ds : List Directive}
    (hparsed : ∀ d ∈ ds, d.Parsed) (hexact : ∀ d ∈ ds, ∀ x ∈ d.writtenNumbers, Number.Exact x) :
    RoundTrips o file ds ↔ ∀ d ∈ ds, d.Legible :=
  roundTrips_iff_of_wellFormed o file (fun d hd => (hparsed d hd).wellFormed) hexact

theorem parsed_of_directivesOf {o : Options} {file : Option String} {text : String}
    {ds : List Directive} (h : (directivesOf o file text).result = .ok ds) :
    ∀ d ∈ ds, d.Parsed := by
  obtain ⟨ts, -, h⟩ := Success.of_result_bind h
  exact fun d hd => Parser.parsed_of_mem_parse h hd

/-- The directives of a text are written so that they are read again, without a diagnostic
and with the same contents, exactly when each of them is legible. -/
theorem roundTrips_iff {o : Options} {file : Option String} {text : String}
    {ds : List Directive} (h : (directivesOf o file text).result = .ok ds)
    (hexact : ∀ d ∈ ds, ∀ x ∈ d.writtenNumbers, Number.Exact x) :
    RoundTrips o file ds ↔ ∀ d ∈ ds, d.Legible :=
  roundTrips_iff_of_parsed o file (parsed_of_directivesOf h) hexact

theorem directivesOf_sphere :
    (directivesOf {} none "Shape \"sphere\" \"float radius\" 1.5").result = .ok
      [⟨.shape, [.text "sphere"], ⟨[⟨"float", "radius", .floats ⟨1.5, []⟩⟩]⟩,
        some ⟨none, ⟨1, 1, 0⟩, ⟨1, 34, 33⟩⟩⟩] := by
  have htokens : Lexer.tokenize "Shape \"sphere\" \"float radius\" 1.5" none = .ok
      [⟨.identifier, "Shape", ⟨none, ⟨1, 1, 0⟩, ⟨1, 6, 5⟩⟩⟩,
       ⟨.string "sphere", "\"sphere\"", ⟨none, ⟨1, 7, 6⟩, ⟨1, 15, 14⟩⟩⟩,
       ⟨.string "float radius", "\"float radius\"", ⟨none, ⟨1, 16, 15⟩, ⟨1, 30, 29⟩⟩⟩,
       ⟨.number 1.5, "1.5", ⟨none, ⟨1, 31, 30⟩, ⟨1, 34, 33⟩⟩⟩,
       ⟨.endOfInput, "", ⟨none, ⟨1, 34, 33⟩, ⟨1, 34, 33⟩⟩⟩] :=
    (Lexer.tokenize_ok_iff.mpr ⟨_, .token rfl rfl rfl rfl (.token rfl rfl rfl rfl
      (.token rfl rfl rfl rfl (.token rfl rfl rfl rfl (.done rfl))))⟩).trans rfl
  unfold directivesOf
  rw [htokens]
  refine congrArg Reported.result (Parser.parse_eq_pure_iff.mpr ?_)
  refine (Parser.read_eq_cons_iff ?_).mpr ⟨⟨_, ⟨1, 34, 33⟩,
    [⟨.endOfInput, "", ⟨none, ⟨1, 34, 33⟩, ⟨1, 34, 33⟩⟩⟩]⟩, ?_, rfl, ?_⟩
  · exact Bool.false_ne_true
  · have hd : Parser.declaration? "float radius" = some ("float", "radius") := by decide +kernel
    change Parser.parameters _ _ _ (_ :: _) >>= _ = _
    rw [Parser.parameters_cons rfl hd List.not_mem_nil rfl]
    change Parser.parameters _ _ _ (_ :: _) >>= _ = _
    rw [Parser.parameters_of_noString (by rintro _ ⟨⟩; rfl)]
    rfl
  · rw [Parser.read]
    rfl

theorem roundTrips_iff_sphere :
    ∃ ds, (directivesOf {} none "Shape \"sphere\" \"float radius\" 1.5").result = .ok ds ∧
      (∀ d ∈ ds, ∀ x ∈ d.writtenNumbers, Number.Exact x) ∧ RoundTrips {} none ds := by
  have hexact : ∀ d ∈ [(⟨.shape, [.text "sphere"], ⟨[⟨"float", "radius", .floats ⟨1.5, []⟩⟩]⟩,
      some ⟨none, ⟨1, 1, 0⟩, ⟨1, 34, 33⟩⟩⟩ : Directive)],
      ∀ x ∈ d.writtenNumbers, Number.Exact x := by
    rintro d hd x hx
    obtain rfl := List.mem_singleton.mp hd
    obtain rfl : x = 1.5 := List.mem_singleton.mp hx
    unfold Number.Exact
    decide +kernel
  refine ⟨_, directivesOf_sphere, hexact, (roundTrips_iff directivesOf_sphere hexact).mpr ?_⟩
  intro d hd
  obtain rfl := List.mem_singleton.mp hd
  refine ⟨fun a ha => ?_, fun p hp => ?_⟩
  · obtain rfl := List.mem_singleton.mp ha
    exact (by decide : Quotable "sphere")
  · obtain rfl := List.mem_singleton.mp hp
    refine ⟨by decide, fun x hx => ?_, fun htype => absurd htype (by decide)⟩
    obtain rfl : x = 1.5 := List.mem_singleton.mp hx
    decide +kernel

theorem directivesOf_overflow :
    (directivesOf {} none "Translate 1e999 0 0").result = .ok
      [⟨.translate, [.number Number.infinity, .number 0.0, .number 0.0], .empty,
        some ⟨none, ⟨1, 1, 0⟩, ⟨1, 20, 19⟩⟩⟩] := by
  have htokens : Lexer.tokenize "Translate 1e999 0 0" none = .ok
      [⟨.identifier, "Translate", ⟨none, ⟨1, 1, 0⟩, ⟨1, 10, 9⟩⟩⟩,
       ⟨.number Number.infinity, "1e999", ⟨none, ⟨1, 11, 10⟩, ⟨1, 16, 15⟩⟩⟩,
       ⟨.number 0.0, "0", ⟨none, ⟨1, 17, 16⟩, ⟨1, 18, 17⟩⟩⟩,
       ⟨.number 0.0, "0", ⟨none, ⟨1, 19, 18⟩, ⟨1, 20, 19⟩⟩⟩,
       ⟨.endOfInput, "", ⟨none, ⟨1, 20, 19⟩, ⟨1, 20, 19⟩⟩⟩] :=
    (Lexer.tokenize_ok_iff.mpr ⟨_, .token rfl rfl rfl rfl (.token rfl rfl rfl rfl
      (.token rfl rfl rfl rfl (.token rfl rfl rfl rfl (.done rfl))))⟩).trans rfl
  unfold directivesOf
  rw [htokens]
  refine congrArg Reported.result (Parser.parse_eq_pure_iff.mpr ?_)
  refine (Parser.read_eq_cons_iff ?_).mpr ⟨_, rfl, rfl, ?_⟩
  · exact Bool.false_ne_true
  · rw [Parser.read]
    rfl

/-- A numeral that is too large is read as infinity, which is written as a word. -/
theorem not_roundTrips_overflow :
    ∃ ds, (directivesOf {} none "Translate 1e999 0 0").result = .ok ds ∧
      (∀ d ∈ ds, ∀ x ∈ d.writtenNumbers, Number.Exact x) ∧ ¬ RoundTrips {} none ds := by
  have hexact : ∀ d ∈ [(⟨.translate, [.number Number.infinity, .number 0.0, .number 0.0], .empty,
      some ⟨none, ⟨1, 1, 0⟩, ⟨1, 20, 19⟩⟩⟩ : Directive)],
      ∀ x ∈ d.writtenNumbers, Number.Exact x := by
    rintro d hd x hx
    obtain rfl := List.mem_singleton.mp hd
    have hcases : x = Number.infinity ∨ x = 0.0 ∨ x = 0.0 := by
      simpa [Directive.writtenNumbers, Directive.numbers, ParamMap.empty] using hx
    unfold Number.Exact
    rcases hcases with rfl | rfl | rfl <;> decide +kernel
  refine ⟨_, directivesOf_overflow, hexact, fun hround => ?_⟩
  have hlegible := (roundTrips_iff_of_parsed {} none
    (parsed_of_directivesOf directivesOf_overflow) hexact).mp hround _ List.mem_cons_self
  have hword : Number.isWord Number.infinity = false := hlegible.args _ List.mem_cons_self
  exact absurd hword (by decide +kernel)

end SceneReader

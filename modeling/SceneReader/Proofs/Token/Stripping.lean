import SceneReader.Proofs.Token.Reading
import SceneReader.Source.Comment

/-!
# Tokens of a stripped text

Stripping a text and scanning it for tokens are two readings of the same literals, and
they escape differently: a backslash takes any character along for the one, and only a
double quote for the other.  Both run through the text side by side here.  As long as no
token contains a place where stripping finds a comment, the two readings meet again at
the end of every token, and stripping shows neither in the tokens nor in where they
start.  The first token that does contain such a place is lost.

**Results.**
* `stripFrom_of_clear`, `clear_of_prefix`: what stripping leaves of a stretch.
* `takeGap_stripFrom`: a gap of the stripped text is the stripped gap.
* `tokenize_stripText_iff`: when stripping is invisible.
* `tokenize_stripText_of_noTwin`: it is where no literal has two backslashes in a row.
-/

namespace SceneReader

/-- What a token is and where it starts in its line; the end of the input may be
anywhere. -/
def Token.standing (t : Token) : TokenKind × String × Option (Nat × Nat) :=
  (t.kind, t.lexeme, if t.isEnd then none else some (t.span.start.line, t.span.start.column))

namespace Comment

/-! ## Regions -/

namespace Region

@[simp] theorem afterAll_nil (r : Region) : r.afterAll [] = r := rfl

@[simp] theorem afterAll_cons (r : Region) (c : Char) (cs : List Char) :
    r.afterAll (c :: cs) = (r.after c).afterAll cs := rfl

theorem afterAll_append (r : Region) (cs ds : List Char) :
    r.afterAll (cs ++ ds) = (r.afterAll cs).afterAll ds := by
  simp [afterAll]

/-- A hash in plain text is what a comment starts with. -/
theorem after_eq_comment_iff {r : Region} {c : Char} (hr : r ≠ comment) :
    r.after c = comment ↔ r = plain ∧ c = '#' := by
  cases r with
  | plain =>
      by_cases hquote : c = '"'
      · subst hquote
        decide
      · simp [after, hquote]
  | literal =>
      simp only [after]
      split
      · simp
      · split <;> simp
  | escaped => simp [after]
  | comment => exact absurd rfl hr

theorem keeps_iff {r : Region} {c : Char} (hr : r ≠ comment) :
    r.keeps c = true ↔ r.after c ≠ comment := by
  rw [ne_eq, after_eq_comment_iff hr]
  cases r with
  | plain => simp [keeps]
  | literal => simp [keeps]
  | escaped => simp [keeps]
  | comment => exact absurd rfl hr

end Region

/-- Stripping a text finds a comment at the character. -/
def OpensAt (r : Region) (cs : List Char) (i : Nat) : Prop :=
  cs[i]? = some '#' ∧ r.afterAll (cs.take i) = .plain

/-- Stripping finds no comment in the stretch. -/
def Clear (r : Region) (cs : List Char) : Prop :=
  ∀ i, ¬ OpensAt r cs i

theorem opensAt_zero {r : Region} {c : Char} {cs : List Char} :
    OpensAt r (c :: cs) 0 ↔ r = .plain ∧ c = '#' := by
  simp [OpensAt, and_comm]

theorem opensAt_succ {r : Region} {c : Char} {cs : List Char} {i : Nat} :
    OpensAt r (c :: cs) (i + 1) ↔ OpensAt (r.after c) cs i := by
  simp [OpensAt]

theorem clear_nil (r : Region) : Clear r [] := by
  intro i h
  simp [OpensAt] at h

theorem clear_cons {r : Region} {c : Char} {cs : List Char} :
    Clear r (c :: cs) ↔ ¬ (r = .plain ∧ c = '#') ∧ Clear (r.after c) cs := by
  constructor
  · intro h
    exact ⟨fun h0 => h 0 (opensAt_zero.mpr h0), fun i hi => h (i + 1) (opensAt_succ.mpr hi)⟩
  · rintro ⟨hfirst, hrest⟩ i hi
    cases i with
    | zero => exact hfirst (opensAt_zero.mp hi)
    | succ i => exact hrest i (opensAt_succ.mp hi)

theorem clear_of_not_mem {cs : List Char} (h : '#' ∉ cs) (r : Region) : Clear r cs := by
  rintro i ⟨hi, -⟩
  exact h (List.mem_of_getElem? hi)

/-- A stretch is clear where it stands in a text, if no comment opens between its ends. -/
theorem clear_iff_between (done cs rest : List Char) :
    Clear (Region.plain.afterAll done) cs ↔
      ∀ i, done.length ≤ i → i < done.length + cs.length →
        ¬ OpensAt .plain (done ++ (cs ++ rest)) i := by
  have hshift : ∀ j, j < cs.length → (OpensAt .plain (done ++ (cs ++ rest)) (done.length + j) ↔
      OpensAt (Region.plain.afterAll done) cs j) := by
    intro j hj
    have hget : (done ++ (cs ++ rest))[done.length + j]? = cs[j]? := by
      rw [List.getElem?_append_right (by omega), Nat.add_sub_cancel_left,
        List.getElem?_append_left hj]
    have htake : (done ++ (cs ++ rest)).take (done.length + j) = done ++ cs.take j := by
      rw [List.take_append, List.take_of_length_le (by omega), Nat.add_sub_cancel_left,
        List.take_append_of_le_length (by omega)]
    rw [OpensAt, OpensAt, hget, htake, Region.afterAll_append]
  constructor
  · intro h i hle hlt hi
    obtain ⟨j, rfl⟩ := Nat.exists_eq_add_of_le hle
    exact h j ((hshift j (by omega)).mp hi)
  · intro h j hj
    have hlt : j < cs.length := (List.getElem?_eq_some_iff.mp hj.1).1
    exact h (done.length + j) (by omega) (by omega) ((hshift j hlt).mpr hj)

/-! ## What stripping leaves -/

variable {r : Region} {cs : List Char}

theorem afterAll_ne_comment (hr : r ≠ .comment) (h : Clear r cs) : r.afterAll cs ≠ .comment := by
  induction cs generalizing r with
  | nil => exact hr
  | cons c cs ih =>
      obtain ⟨hfirst, hrest⟩ := clear_cons.mp h
      exact ih (mt (Region.after_eq_comment_iff hr).mp hfirst) hrest

theorem stripFrom_of_clear (hr : r ≠ .comment) (h : Clear r cs) : stripFrom r cs = cs := by
  induction cs generalizing r with
  | nil => rfl
  | cons c cs ih =>
      obtain ⟨hfirst, hrest⟩ := clear_cons.mp h
      have hafter : r.after c ≠ .comment := mt (Region.after_eq_comment_iff hr).mp hfirst
      rw [stripFrom, if_pos ((Region.keeps_iff hr).mpr hafter), ih hafter hrest]

/-- Behind a comment the stripped text goes on with a line feed, or it is over. -/
theorem head_stripFrom_comment (cs : List Char) :
    ∀ d ∈ (stripFrom .comment cs).head?, d = '\n' := by
  induction cs with
  | nil => simp [stripFrom]
  | cons c cs ih =>
      by_cases hc : c = '\n'
      · subst hc
        simp [stripFrom, Region.keeps]
      · simpa [stripFrom, Region.keeps, Region.after, hc] using ih

/-- Only a clear stretch opens the stripped text that it opened before. -/
theorem clear_of_prefix (hr : r ≠ .comment) {tail after : List Char}
    (h : stripFrom r (cs ++ tail) = cs ++ after) : Clear r cs := by
  induction cs generalizing r with
  | nil => exact clear_nil r
  | cons c cs ih =>
      rw [List.cons_append, stripFrom] at h
      split at h
      · rename_i hkeeps
        have hafter := (Region.keeps_iff hr).mp hkeeps
        exact clear_cons.mpr ⟨mt (Region.after_eq_comment_iff hr).mpr hafter,
          ih hafter (List.cons.inj h).2⟩
      · -- the comment is gone, and the hash it started with would have to be there
        rename_i hkeeps
        have hcomment : r.after c = .comment := by
          rw [Region.keeps_iff hr] at hkeeps
          exact Decidable.not_not.mp hkeeps
        obtain ⟨-, rfl⟩ := (Region.after_eq_comment_iff hr).mp hcomment
        have hhead := head_stripFrom_comment (cs ++ tail) '#'
        rw [hcomment] at h
        simp [h] at hhead

/-! ## Places -/

/-- Where a stripped text stands when the text itself stands at a place: in the same line,
and outside of comments in the same column. -/
def Aligned (r : Region) (place stripped : Position) : Prop :=
  stripped.line = place.line ∧ (r ≠ .comment → stripped.column = place.column)

theorem Aligned.stripFrom {place stripped : Position} (h : Aligned r place stripped)
    (cs : List Char) :
    Aligned (r.afterAll cs) (place.advanceAll cs) (stripped.advanceAll (stripFrom r cs)) := by
  induction cs generalizing r place stripped with
  | nil => exact h
  | cons c cs ih =>
      obtain ⟨hline, hcolumn⟩ := h
      have hstep : Aligned (r.after c) (place.advance c)
          (if r.keeps c then stripped.advance c else stripped) := by
        by_cases hr : r = .comment
        · subst hr
          by_cases hc : c = '\n'
          · simp [Aligned, Region.keeps, Position.advance, hc, hline]
          · simp [Aligned, Region.keeps, Region.after, Position.advance, hc, hline]
        · specialize hcolumn hr
          by_cases hc : r.after c = .comment
          · have hkeeps : r.keeps c = false := by
              rw [← Bool.not_eq_true, Region.keeps_iff hr]
              simp [hc]
            obtain ⟨-, rfl⟩ := (Region.after_eq_comment_iff hr).mp hc
            simp [Aligned, hkeeps, hc, Position.advance, hline]
          · rw [if_pos ((Region.keeps_iff hr).mpr hc)]
            unfold Position.advance
            split <;> simp [Aligned, hline, hcolumn]
      have hrest := ih hstep
      unfold Comment.stripFrom
      split <;> simpa [Position.advanceAll, *] using hrest

end Comment

namespace Lexer

open Comment (stripFrom Region Clear Aligned)

/-! ## Gaps -/

/-- Whether a comment is open after one more character of a gap, if the gap goes on. -/
def gapAfter (b : Bool) (c : Char) : Option Bool :=
  if b && c != '\n' then some true
  else if Text.isBlank c then some false
  else if c = '#' then some true
  else none

theorem takeGap_cons (b : Bool) (c : Char) (cs : List Char) :
    takeGap b (c :: cs) = match gapAfter b c with
      | some b' => (c :: (takeGap b' cs).1, (takeGap b' cs).2)
      | none => ([], c :: cs) := by
  rw [takeGap, gapAfter]
  split
  · rfl
  · split
    · rfl
    · split <;> rfl

theorem gapAfter_eq_none {b : Bool} {c : Char} (h : gapAfter b c = none) :
    b = false ∧ c ≠ '#' := by
  rcases takeGap_cases b c with ⟨b', hc⟩ | ⟨hb, -, hmark, -⟩
  · have hgap := hc []
    rw [takeGap_cons, h] at hgap
    cases (Prod.ext_iff.mp hgap).1
  · exact ⟨hb, hmark⟩

/-- The scanner stands at one place of a text and at the place of the stripped text that
belongs to it: in the text it is in a comment wherever stripping is in one, and otherwise
it finds the same in both. -/
structure InStep (r : Region) (b b' : Bool) : Prop where
  inside : r = .comment → b = true
  outside : r ≠ .comment → b' = b

theorem inStep_false {r : Region} (h : r ≠ .comment) : InStep r false false :=
  ⟨fun hr => absurd hr h, fun _ => rfl⟩

theorem not_isBlank_mark : Text.isBlank '#' = false := by decide

/-- A kept character is read in both texts, and a dropped one in the text alone. -/
theorem InStep.after {r : Region} {b b' d : Bool} {c : Char} (h : InStep r b b')
    (hd : gapAfter b c = some d) :
    (r.keeps c = true ∧ ∃ d', gapAfter b' c = some d' ∧ InStep (r.after c) d d') ∨
      (r.keeps c = false ∧ InStep (r.after c) d b') := by
  by_cases hr : r = .comment
  · subst hr
    obtain rfl := h.inside rfl
    by_cases hc : c = '\n'
    · subst hc
      left
      have hblank : ∀ b, gapAfter b '\n' = some false := by
        intro b
        simp [gapAfter, isBlank_newline]
      rw [hblank] at hd
      cases hd
      exact ⟨rfl, false, hblank b', inStep_false (by decide)⟩
    · right
      simp only [gapAfter, Bool.true_and, bne_iff_ne, ne_eq, hc, not_false_eq_true, if_true,
        Option.some.injEq] at hd
      subst hd
      simp only [Region.keeps, Region.after, hc, if_false, beq_eq_false_iff_ne, ne_eq,
        not_false_eq_true, true_and]
      exact ⟨fun _ => rfl, fun hne => absurd rfl hne⟩
  · obtain rfl := h.outside hr
    by_cases hc : r.after c = .comment
    · right
      obtain ⟨-, rfl⟩ := (Region.after_eq_comment_iff hr).mp hc
      have hkeeps : r.keeps '#' = false := by
        rw [← Bool.not_eq_true, Region.keeps_iff hr]
        simp [hc]
      have hd' : d = true := by
        simpa [gapAfter, not_isBlank_mark, eq_comm] using hd
      exact ⟨hkeeps, fun _ => hd', fun hne => absurd hc hne⟩
    · left
      exact ⟨(Region.keeps_iff hr).mpr hc, d, hd, fun hcomment => absurd hcomment hc,
        fun _ => rfl⟩

/-- A gap of the stripped text is the stripped gap, and no comment is open where a token
follows. -/
theorem takeGap_stripFrom {r : Region} {b b' : Bool} {cs gap rest : List Char}
    (hstep : InStep r b b') (h : takeGap b cs = (gap, rest)) :
    takeGap b' (stripFrom r cs) = (stripFrom r gap, stripFrom (r.afterAll gap) rest) ∧
      (rest ≠ [] → r.afterAll gap ≠ .comment) := by
  induction cs generalizing r b b' gap with
  | nil =>
      cases h
      exact ⟨rfl, fun hne => absurd rfl hne⟩
  | cons c cs ih =>
      rw [takeGap_cons] at h
      cases hd : gapAfter b c with
      | some d =>
          rw [hd] at h
          cases h
          rcases hstep.after hd with ⟨hkeeps, d', hd', hnext⟩ | ⟨hkeeps, hnext⟩
          · obtain ⟨hgap, hopen⟩ := ih hnext rfl
            simp only [stripFrom, hkeeps, if_true, takeGap_cons, hd', hgap, Region.afterAll_cons]
            exact ⟨trivial, hopen⟩
          · obtain ⟨hgap, hopen⟩ := ih hnext rfl
            simp only [stripFrom, hkeeps, Bool.false_eq_true, if_false, hgap,
              Region.afterAll_cons]
            exact ⟨trivial, hopen⟩
      | none =>
          -- the character starts a token, so that it is neither in a comment nor opens one
          rw [hd] at h
          cases h
          obtain ⟨rfl, hmark⟩ := gapAfter_eq_none hd
          have hr : r ≠ .comment := by
            intro hcomment
            cases hstep.inside hcomment
          obtain rfl := hstep.outside hr
          have hkeeps : r.keeps c = true := by
            rw [Region.keeps_iff hr, ne_eq, Region.after_eq_comment_iff hr]
            exact fun hc => hmark hc.2
          simp only [stripFrom, Region.afterAll_nil, hkeeps, if_true, takeGap_cons, hd]
          exact ⟨trivial, fun _ => hr⟩

/-! ## Tokens -/

/-- What stands behind a token may stand there stripped. -/
theorem exchanges_stripFrom {r : Region} (hr : r ≠ .comment) (after : List Char) :
    Exchanges after (stripFrom r after) := by
  cases after with
  | nil => exact Or.inl rfl
  | cons c cs =>
      by_cases hc : r.after c = .comment
      · have hkeeps : ¬ r.keeps c = true := by simp [Region.keeps_iff hr, hc]
        refine Or.inr fun d hd => ?_
        rw [stripFrom, if_neg hkeeps, hc] at hd
        rw [Comment.head_stripFrom_comment cs d hd]
        decide
      · rw [stripFrom, if_pos ((Region.keeps_iff hr).mpr hc)]
        exact Or.inl rfl

/-- In the stripped text a clear token is there, with its stripped surroundings. -/
theorem scanToken_stripFrom {r : Region} {c : Char} {rest lexeme after : List Char}
    {kind : TokenKind} (hr : r ≠ .comment) (hclear : Clear r lexeme)
    (h : scanToken c rest = .token kind lexeme after) :
    ∃ rest', stripFrom r (c :: rest) = c :: rest' ∧
      scanToken c rest' = .token kind lexeme (stripFrom (r.afterAll lexeme) after) := by
  have hafter := Comment.afterAll_ne_comment hr hclear
  obtain ⟨body, rfl, hscan⟩ := scanToken_exchange h (exchanges_stripFrom hafter after)
  refine ⟨body ++ stripFrom (r.afterAll (c :: body)) after, ?_, hscan⟩
  rw [← Lexed.lexeme_append h, Comment.strip_append, Comment.stripFrom_of_clear hr hclear,
    List.cons_append]

/-! ## Texts -/

/-- The tokens show that the texts they come from are the same up to comments. -/
def Alike (ts ts' : List Token) : Prop :=
  ts'.map Token.standing = ts.map Token.standing

theorem alike_cons {t t' : Token} {ts ts' : List Token} :
    Alike (t :: ts) (t' :: ts') ↔ t'.standing = t.standing ∧ Alike ts ts' := by
  simp [Alike]

/-- No comment opens inside a token. -/
def ClearTokens (cs : List Char) (ts : List Token) : Prop :=
  ∀ t ∈ ts, ∀ i, t.span.start.offset ≤ i → i < t.span.stop.offset →
    ¬ Comment.OpensAt .plain cs i

theorem standing_of_not_end {kind : TokenKind} (h : kind ≠ .endOfInput) (lexeme : String)
    (span : Span) : Token.standing ⟨kind, lexeme, span⟩ =
      (kind, lexeme, some (span.start.line, span.start.column)) := by
  cases kind with
  | endOfInput => exact absurd rfl h
  | _ => rfl

/-- A token of the text is the next one of the stripped text if it is clear, and only
then; behind it the stripped rest of the text goes on. -/
theorem Row.stripFrom_cons_iff {file : Option String} {place stripped start stop : Position}
    {r : Region} {cs gap rest lexeme after : List Char} {c : Char} {kind : TokenKind}
    {ts : List Token} (hgap : takeGap false cs = (gap, c :: rest))
    (htoken : scanToken c rest = .token kind lexeme after) (hr : r ≠ .comment)
    (haligned : Aligned r place stripped) (hstart : start = place.advanceAll gap) :
    (∃ ps' ts', Row file stripped (stripFrom r cs) ps' ts' ∧
        Alike (⟨kind, String.ofList lexeme, ⟨file, start, stop⟩⟩ :: ts) ts') ↔
      Clear (r.afterAll gap) lexeme ∧
        ∃ ps' ts', Row file ((stripped.advanceAll (stripFrom r gap)).advanceAll lexeme)
          (stripFrom ((r.afterAll gap).afterAll lexeme) after) ps' ts' ∧ Alike ts ts' := by
  obtain ⟨hgap', hopen⟩ := takeGap_stripFrom (inStep_false hr) hgap
  have hopen := hopen (List.cons_ne_nil c rest)
  obtain ⟨hline, hcolumn⟩ := haligned.stripFrom gap
  have hkind := kind_ne_endOfInput htoken
  constructor
  · rintro ⟨ps', ts', hrow, halike⟩
    cases hrow with
    | done _ =>
        obtain ⟨hfirst, -⟩ := alike_cons.mp halike
        rw [standing_of_not_end hkind] at hfirst
        cases congrArg (fun standing => standing.2.2) hfirst
    | @token _ start' stop' _ gap' rest' lexeme' after' c' kind' ps' ts' hgap'' htoken' hstart'
        hstop' hrow =>
        obtain ⟨hfirst, htail⟩ := alike_cons.mp halike
        rw [standing_of_not_end hkind, standing_of_not_end (kind_ne_endOfInput htoken')] at hfirst
        obtain rfl : lexeme' = lexeme :=
          String.ofList_injective (congrArg (fun standing => standing.2.1) hfirst)
        rw [hgap'] at hgap''
        obtain ⟨rfl, hrest⟩ := Prod.ext_iff.mp hgap''
        -- the stripped text goes on with the token, so nothing of it was stripped
        have hstripped : stripFrom (r.afterAll gap) (lexeme' ++ after) = lexeme' ++ after' := by
          rw [Lexed.lexeme_append htoken, Lexed.lexeme_append htoken']
          exact hrest
        have hclear := Comment.clear_of_prefix hopen hstripped
        rw [Comment.strip_append, Comment.stripFrom_of_clear hopen hclear] at hstripped
        subst hstart' hstop'
        rw [List.append_cancel_left hstripped]
        exact ⟨hclear, ps', ts', hrow, htail⟩
  · rintro ⟨hclear, ps', ts', hrow, halike⟩
    obtain ⟨rest', hrest, htoken'⟩ := scanToken_stripFrom hopen hclear htoken
    rw [hrest] at hgap'
    refine ⟨_, _, .token hgap' htoken' rfl rfl hrow, alike_cons.mpr ⟨?_, halike⟩⟩
    rw [standing_of_not_end hkind, standing_of_not_end hkind, hstart]
    simp only [hline, hcolumn hopen]

theorem clearTokens_end (cs : List Char) (t : Token) (h : t.span.stop = t.span.start) :
    ClearTokens cs [t] := by
  intro t' ht i hle hlt
  obtain rfl := List.mem_singleton.mp ht
  rw [h] at hlt
  exact absurd hlt (Nat.not_lt.mpr hle)

/-- The first token of a row is clear where it stands behind its gap. -/
theorem clearTokens_cons {place start stop : Position} {done cs gap rest lexeme after : List Char}
    {c : Char} {kind : TokenKind} {file : Option String} {ts : List Token}
    (hgap : takeGap false cs = (gap, c :: rest))
    (htoken : scanToken c rest = .token kind lexeme after) (hstart : start = place.advanceAll gap)
    (hstop : stop = start.advanceAll lexeme) (hplace : place.offset = done.length) :
    ClearTokens (done ++ cs) (⟨kind, String.ofList lexeme, ⟨file, start, stop⟩⟩ :: ts) ↔
      Clear (Region.plain.afterAll (done ++ gap)) lexeme ∧
        ClearTokens (done ++ (gap ++ lexeme) ++ after) ts := by
  have htext : done ++ cs = done ++ gap ++ (lexeme ++ after) := by
    rw [List.append_assoc, gap_append_token hgap htoken]
  have hoffset : start.offset = (done ++ gap).length := by
    rw [hstart, Position.offset_advanceAll, hplace, List.length_append]
  rw [ClearTokens, List.forall_mem_cons, htext, Comment.clear_iff_between _ lexeme after, hstop,
    Position.offset_advanceAll, hoffset]
  simp only [ClearTokens, List.append_assoc]

/-- What is left of a text is stripped to the same tokens if no comment opens inside of
them, and only then. -/
theorem Row.stripFrom_iff {file : Option String} {place stripped : Position}
    {done cs : List Char} {ps : List Piece} {ts : List Token} (h : Row file place cs ps ts)
    (hplace : place.offset = done.length) (hr : Region.plain.afterAll done ≠ .comment)
    (haligned : Aligned (Region.plain.afterAll done) place stripped) :
    (∃ ps' ts', Row file stripped (stripFrom (Region.plain.afterAll done) cs) ps' ts' ∧
        Alike ts ts') ↔ ClearTokens (done ++ cs) ts := by
  induction h generalizing done stripped with
  | @done place cs gap hgap =>
      constructor
      · intro _
        exact clearTokens_end _ _ rfl
      · intro _
        exact ⟨[], _, .done (takeGap_stripFrom (inStep_false hr) hgap).1, rfl⟩
  | @token place start stop cs gap rest lexeme after c kind ps ts hgap htoken hstart hstop _ ih =>
      rw [Row.stripFrom_cons_iff hgap htoken hr haligned hstart,
        clearTokens_cons hgap htoken hstart hstop hplace, Region.afterAll_append _ done gap]
      refine and_congr_right fun hclear => ?_
      have hopen := (takeGap_stripFrom (inStep_false hr) hgap).2 (List.cons_ne_nil c rest)
      have hnext := (haligned.stripFrom gap).stripFrom lexeme
      rw [Comment.stripFrom_of_clear hopen hclear, ← hstart, ← hstop] at hnext
      rw [← Region.afterAll_append, ← Region.afterAll_append] at hnext ⊢
      refine ih ?_ ?_ hnext
      · simp only [hstop, hstart, Position.offset_advanceAll, hplace, List.length_append,
          Nat.add_assoc]
      · rw [Region.afterAll_append, Region.afterAll_append]
        exact Comment.afterAll_ne_comment hopen hclear

/-- The stripped text of a row of tokens. -/
theorem Row.stripText_iff {source : String} {file : Option String} {ps : List Piece}
    {ts : List Token} (h : Row file .start source.toList ps ts) :
    (∃ ts', tokenize (Comment.stripText source) file = .ok ts' ∧ Alike ts ts') ↔
      ClearTokens source.toList ts := by
  have haligned : Aligned (Region.plain.afterAll []) .start .start := ⟨rfl, fun _ => rfl⟩
  have hrow := h.stripFrom_iff rfl (by decide) haligned
  rw [List.nil_append, Region.afterAll_nil] at hrow
  rw [← hrow]
  simp only [tokenize_ok_iff, Comment.stripText, String.toList_ofList]
  constructor
  · rintro ⟨ts', ⟨ps', hps⟩, halike⟩
    exact ⟨ps', ts', hps, halike⟩
  · rintro ⟨ps', ts', hps, halike⟩
    exact ⟨ts', ⟨ps', hps⟩, halike⟩

/-- Stripping the comments of a text shows in none of its tokens exactly if no comment
opens inside of a token. -/
theorem tokenize_stripText_iff {source : String} {file : Option String} {ts : List Token}
    (h : tokenize source file = .ok ts) :
    (∃ ts', tokenize (Comment.stripText source) file = .ok ts' ∧ Alike ts ts') ↔
      ClearTokens source.toList ts := by
  obtain ⟨ps, hrow⟩ := tokenize_ok_iff.mp h
  exact hrow.stripText_iff

theorem tokenize_stripText_iff_shape :
    ∃ ts, tokenize "Shape # \"ball\"" none = .ok ts ∧
      ((∃ ts', tokenize (Comment.stripText "Shape # \"ball\"") none = .ok ts' ∧ Alike ts ts') ↔
        ClearTokens "Shape # \"ball\"".toList ts) := by
  have hrow : Row none .start "Shape # \"ball\"".toList _ _ := .token rfl rfl rfl rfl (.done rfl)
  have h := tokenize_ok_iff.mpr ⟨_, hrow⟩
  exact ⟨_, h, tokenize_stripText_iff h⟩

/-- A literal that shows a double quote behind two backslashes goes on for the scanner, and
is over for stripping: the hash in it takes the rest of the line away. -/
theorem tokenize_stripText_twin :
    (∃ ts, tokenize "\"a\\\\\" # \"" none = .ok ts) ∧
      ¬ ∃ ts, tokenize (Comment.stripText "\"a\\\\\" # \"") none = .ok ts := by
  constructor
  · exact ⟨_, tokenize_ok_iff.mpr ⟨_, .token rfl rfl rfl rfl (.done rfl)⟩⟩
  · rintro ⟨ts, hts⟩
    obtain ⟨ps, hrow⟩ := tokenize_ok_iff.mp hts
    rw [Comment.stripText, String.toList_ofList] at hrow
    cases hrow with
    | done hgap => cases hgap
    | token hgap htoken =>
        cases hgap
        cases htoken

/-! ## Literals without two backslashes in a row -/

/-- Two backslashes stand side by side. -/
def HasTwin (cs : List Char) : Prop :=
  ['\\', '\\'] <:+: cs

theorem not_hasTwin_tail {c : Char} {cs : List Char} (h : ¬ HasTwin (c :: cs)) : ¬ HasTwin cs :=
  fun ht => h (ht.trans (List.suffix_cons c cs).isInfix)

/-- Without two backslashes in a row the literal ends where stripping sees it end, and
stripping sees no comment in it. -/
theorem literal_agrees {cs : List Char} {l : Literal} (h : scanString cs = some l)
    (htwin : ¬ HasTwin l.lexeme) :
    Region.literal.afterAll l.lexeme = .plain ∧ Clear .literal l.lexeme := by
  fun_induction scanString cs generalizing l with
  | case1 => cases h
  | case2 cs =>
      cases h
      exact ⟨rfl, Comment.clear_of_not_mem (by simp) _⟩
  | case3 cs ih =>
      obtain ⟨m, hm, rfl⟩ := Option.map_eq_some_iff.mp h
      obtain ⟨hend, hclear⟩ := ih hm (not_hasTwin_tail (not_hasTwin_tail htwin))
      have hquote : Clear .escaped ('"' :: m.lexeme) := Comment.clear_cons.mpr ⟨by simp, hclear⟩
      exact ⟨hend, Comment.clear_cons.mpr ⟨by simp, hquote⟩⟩
  | case4 c cs hquote hescape ih =>
      obtain ⟨m, hm, rfl⟩ := Option.map_eq_some_iff.mp h
      obtain ⟨hend, hclear⟩ := ih hm (not_hasTwin_tail htwin)
      by_cases hc : c = '\\'
      · -- what the backslash takes along is an ordinary character of the literal
        subst hc
        obtain ⟨d, lexeme, hlexeme⟩ := Literal.exists_cons hm
        have hd : Region.literal.after d = .literal := by
          have hdquote : d ≠ '"' := by
            rintro rfl
            refine hescape (lexeme ++ m.rest) rfl ?_
            rw [← scanString_append hm, hlexeme, List.cons_append]
          have hdescape : d ≠ '\\' := by
            rintro rfl
            refine htwin (List.IsPrefix.isInfix ⟨lexeme, ?_⟩)
            rw [Literal.cons, hlexeme]
            rfl
          simp [Region.after, hdquote, hdescape]
        have hescaped : Region.literal.after '\\' = .escaped := rfl
        have hliteral : Region.escaped.after d = .literal := rfl
        rw [hlexeme] at hend hclear
        simp only [Literal.cons, hlexeme, List.cons_append, List.nil_append,
          Region.afterAll_cons, Comment.clear_cons, hd, hescaped, hliteral] at hend hclear ⊢
        exact ⟨hend, by simp, by simp, hclear.2⟩
      · have hliteral : Region.literal.after c = .literal := by
          simp [Region.after, show c ≠ '"' from hquote, hc]
        simp only [Literal.cons, List.cons_append, List.nil_append, Region.afterAll_cons,
          Comment.clear_cons, hliteral]
        exact ⟨hend, by simp, hclear⟩

theorem afterAll_of_bare {cs : List Char} (h : ∀ c ∈ cs, isDelimiter c = false) :
    Region.plain.afterAll cs = .plain := by
  induction cs with
  | nil => rfl
  | cons c cs ih =>
      obtain ⟨hc, hcs⟩ := List.forall_mem_cons.mp h
      have hafter : Region.plain.after c = .plain := by
        have hquote : c ≠ '"' := by
          rintro rfl
          cases hc
        have hmark : c ≠ '#' := by
          rintro rfl
          cases hc
        simp [Region.after, hquote, hmark]
      rw [Region.afterAll_cons, hafter, ih hcs]

/-- A token without two backslashes in a row ends where stripping sees it end, and
stripping sees no comment in it. -/
theorem token_agrees {c : Char} {cs lexeme after : List Char} {kind : TokenKind}
    (h : scanToken c cs = .token kind lexeme after) (hc : Text.isBlank c = false ∧ c ≠ '#')
    (htwin : ¬ HasTwin lexeme) :
    Region.plain.afterAll lexeme = .plain ∧ Clear .plain lexeme := by
  rcases scanToken_cases h with ⟨l, rfl, hl, -, rfl, -⟩ | ⟨rfl, -, rfl, -⟩ | ⟨rfl, -, rfl, -⟩ |
    ⟨⟨hquote, hleft, hright⟩, rfl, -, -⟩
  · obtain ⟨hend, hclear⟩ := literal_agrees hl (not_hasTwin_tail htwin)
    exact ⟨hend, Comment.clear_cons.mpr ⟨by simp, hclear⟩⟩
  · exact ⟨rfl, Comment.clear_of_not_mem (by simp) _⟩
  · exact ⟨rfl, Comment.clear_of_not_mem (by simp) _⟩
  · have hbare : ∀ d ∈ c :: (takeBare cs).1, isDelimiter d = false :=
      List.forall_mem_cons.mpr
        ⟨isDelimiter_eq_false hc.1 hc.2 hquote hleft hright, (takeBare_spec cs).2.1⟩
    refine ⟨afterAll_of_bare hbare, Comment.clear_of_not_mem (fun hmem => ?_) _⟩
    cases hbare '#' hmem

/-- The region of plain text, or of a comment that is open in it. -/
def outside (b : Bool) : Region :=
  if b then .comment else .plain

theorem outside_after {b b' : Bool} {c : Char} (h : gapAfter b c = some b') :
    (outside b).after c = outside b' := by
  unfold gapAfter at h
  split at h
  · rename_i hcomment
    cases h
    simp only [Bool.and_eq_true, bne_iff_ne, ne_eq] at hcomment
    simp [outside, Region.after, hcomment]
  · rename_i hcomment
    split at h
    · rename_i hblank
      cases h
      cases b with
      | true => simpa [outside, Region.after] using hcomment
      | false =>
          have hquote : c ≠ '"' := by
            rintro rfl
            cases hblank
          have hmark : c ≠ '#' := by
            rintro rfl
            cases hblank
          simp [outside, Region.after, hquote, hmark]
    · split at h
      · rename_i hmark
        cases h
        subst hmark
        cases b with
        | true => rfl
        | false => rfl
      · cases h

/-- A gap that a token ends leaves stripping in plain text. -/
theorem gap_agrees {b : Bool} {cs gap rest : List Char} {c : Char}
    (h : takeGap b cs = (gap, c :: rest)) : (outside b).afterAll gap = .plain := by
  induction cs generalizing b gap with
  | nil => cases h
  | cons d cs ih =>
      rw [takeGap_cons] at h
      cases hd : gapAfter b d with
      | some b' =>
          rw [hd] at h
          obtain ⟨rfl, hrest⟩ := Prod.ext_iff.mp h
          rw [Region.afterAll_cons, outside_after hd]
          exact ih (Prod.ext rfl hrest)
      | none =>
          rw [hd] at h
          cases h
          rw [(gapAfter_eq_none hd).1]
          rfl

theorem Row.clearTokens {file : Option String} {place : Position} {done cs : List Char}
    {ps : List Piece} {ts : List Token} (h : Row file place cs ps ts)
    (hplace : place.offset = done.length) (hr : Region.plain.afterAll done = .plain)
    (htwin : ∀ t ∈ ts, ¬ HasTwin t.lexeme.toList) : ClearTokens (done ++ cs) ts := by
  induction h generalizing done with
  | done hgap => exact clearTokens_end _ _ rfl
  | @token place start stop cs gap rest lexeme after c kind ps ts hgap htoken hstart hstop _ ih =>
      obtain ⟨hfirst, hrest⟩ := List.forall_mem_cons.mp htwin
      rw [String.toList_ofList] at hfirst
      obtain ⟨hend, hclear⟩ := token_agrees htoken (mark_of_takeGap hgap) hfirst
      have hopen : Region.plain.afterAll (done ++ gap) = .plain := by
        rw [Region.afterAll_append, hr]
        exact gap_agrees hgap
      rw [clearTokens_cons hgap htoken hstart hstop hplace, hopen]
      refine ⟨hclear, ih ?_ ?_ hrest⟩
      · simp only [hstop, hstart, Position.offset_advanceAll, hplace, List.length_append,
          Nat.add_assoc]
      · rw [← List.append_assoc, Region.afterAll_append, hopen, hend]

/-- Stripping the comments of a text shows in none of its tokens if none of them has two
backslashes in a row. -/
theorem tokenize_stripText_of_not_hasTwin {source : String} {file : Option String}
    {ts : List Token} (h : tokenize source file = .ok ts)
    (htwin : ∀ t ∈ ts, ¬ HasTwin t.lexeme.toList) :
    ∃ ts', tokenize (Comment.stripText source) file = .ok ts' ∧ Alike ts ts' := by
  obtain ⟨ps, hrow⟩ := tokenize_ok_iff.mp h
  have hclear : ClearTokens ([] ++ source.toList) ts := hrow.clearTokens rfl rfl htwin
  exact hrow.stripText_iff.mpr hclear

end Lexer
end SceneReader

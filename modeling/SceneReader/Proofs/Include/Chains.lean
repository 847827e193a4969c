import Mathlib.Data.List.Nodup
import Mathlib.Logic.Relation
import SceneReader.Proofs.Include.UnreadFile

/-!
# Chains of files

The text of an included file is expanded by another call of the expansion, with a chain of
files that is longer by one.  What such a call does depends on the files alone, which may
include each other in cycles; that there is no endless row of calls is due to the bound on
the chain.

Here the recursion is seen as it stands in the program, without a number that counts down.
A file that an include finds is refused when it stands in the chain already, or when the
chain is full, so the chains to the files in a finished text are short and without
repetition.

**Results.**
* `enters_wf`: no row of calls is endless.
* `eq_expansion`: the recursion has one solution.
* `Within.of_opens`, `Within.of_reflTransGen`: in a text whose expansion succeeds, one
  include and a row of them lead to files with a bounded chain.
* `expansion_error_of_reaches`: an include that cannot be replaced ends the whole expansion.
* `expandFile_chains`: expansion comes to an end within its bounds.
-/

namespace SceneReader
namespace Include

open Lexer

/-- A text whose includes are to be replaced, and where it stands. -/
structure Opened where
  standing : Standing
  text : List Char

namespace Opened

/-- The text of a file that an include finds. -/
def enter (p : Opened) (l : Location) (text : List Char) : Opened :=
  ⟨p.standing.enter l, text⟩

/-- The includes in the text. -/
def requests (p : Opened) : List Request :=
  match tokenize (String.ofList p.text) p.standing.file with
  | .ok tokens => Include.requests (Text.splitLines (String.ofList p.text)) tokens
  | .error _ => []

/-- The file that an include in the text finds. -/
def find? (files : FileTree) (p : Opened) (r : Request) : Option Location :=
  p.standing.dirs.find? files (Path.ofText r.path)

theorem length_chain_enter (p : Opened) (l : Location) (text : List Char) :
    (p.enter l text).standing.chain.length = p.standing.chain.length + 1 :=
  List.length_append

end Opened

/-! ## The recursion -/

section Recursion

variable (files : FileTree) (o : Options)

/-- What stands for an include, if `inner` expands the text of its target. -/
def inclusion (inner : Opened → Reported ReadError (List Char)) (s : Standing) (r : Request) :
    Reported ReadError (List Char) := do
  let l ← Reported.ofExcept (locate files o s r)
  if o.maxIncludeDepth ≤ s.chain.length then
    Reported.fail (r.error (.includeDepth (Location.text l) o.maxIncludeDepth))
  else
    let text ← Reported.ofExcept (readStripped files o l)
    let body ← inner ⟨s.enter l, text⟩
    return framed l.dropLast body

/-- One call: the includes in a text are replaced, and `inner` expands their targets. -/
def pass (inner : Opened → Reported ReadError (List Char)) (p : Opened) :
    Reported ReadError (List Char) := do
  let tokens ← Reported.ofExcept
    ((tokenize (String.ofList p.text) p.standing.file).mapError ReadError.scene)
  splice (Text.splitLines (String.ofList p.text)) (inclusion files o inner p.standing) 0 p.text
    tokens

/-- The text of a scene file, if `inner` expands what is read from it. -/
def wholeFile (inner : Opened → Reported ReadError (List Char)) (path : String) :
    Reported ReadError String := do
  if !files.isFile (Path.ofText path) then
    Reported.fail (.scene (.unplaced (.fileNotFound path [])))
  else
    let l := files.resolve (Path.ofText path)
    let text ← Reported.ofExcept (readStripped files o l)
    let body ← if o.expandIncludes then inner ⟨.root l, text⟩ else pure text
    return String.ofList (framed l.dropLast body)

/-- The text of a scene that is at hand, if `inner` expands it. -/
def wholeText (inner : Opened → Reported ReadError (List Char)) (base : Path)
    (file : Option String) (text : String) : Reported ReadError String := do
  let l := files.resolve base
  let stripped := (Comment.stripText text).toList
  let body ← if o.expandIncludes
    then inner ⟨⟨file, .ofList [Path.ofLocation l], []⟩, stripped⟩
    else pure stripped
  return String.ofList (framed l body)

/-- The expansion of a text, by as much as its chain may still grow. -/
def expansion (p : Opened) : Reported ReadError (List Char) :=
  expand files o (o.maxIncludeDepth.toNat - p.standing.chain.length) p.standing p.text

/-- The call for a text makes a call for the text of a target. -/
inductive Enters : Opened → Opened → Prop
  | intro {p : Opened} {r : Request} {l : Location} {text : List Char} (hr : r ∈ p.requests)
      (hfile : locate files o p.standing r = .ok l)
      (hroom : p.standing.chain.length < o.maxIncludeDepth)
      (htext : readStripped files o l = .ok text) : Enters p (p.enter l text)

end Recursion

variable {files : FileTree} {o : Options}

theorem replacement_eq_inclusion (s : Standing) (r : Request) :
    replacement files o (o.maxIncludeDepth.toNat - s.chain.length) s r =
      inclusion files o (expansion files o) s r := by
  unfold inclusion
  by_cases hfull : o.maxIncludeDepth ≤ s.chain.length
  · have hroom : o.maxIncludeDepth.toNat - s.chain.length = 0 := by omega
    rw [hroom]
    simp only [if_pos hfull, replacement]
  · have hroom : o.maxIncludeDepth.toNat - s.chain.length =
        o.maxIncludeDepth.toNat - (s.chain.length + 1) + 1 := by omega
    rw [hroom]
    simp only [if_neg hfull, replacement, expansion, Standing.enter, List.length_append,
      List.length_singleton]

theorem expansion_eq (p : Opened) :
    expansion files o p = pass files o (expansion files o) p := by
  unfold expansion
  rw [expand_eq, funext (replacement_eq_inclusion p.standing)]
  rfl

/-- No row of calls is endless: each chain is longer than the one before. -/
theorem enters_wf (files : FileTree) (o : Options) :
    WellFounded fun q p => Enters files o p q := by
  refine Subrelation.wf ?_
    (measure fun p : Opened => o.maxIncludeDepth.toNat - p.standing.chain.length).wf
  rintro _ p ⟨-, -, hroom, -⟩
  change o.maxIncludeDepth.toNat - (p.enter _ _).standing.chain.length <
    o.maxIncludeDepth.toNat - p.standing.chain.length
  rw [Opened.length_chain_enter]
  omega

theorem splice_congr {lines : List String} {f g : Request → Reported ReadError (List Char)}
    {offset : Nat} {cs : List Char} {ts : List Token}
    (h : ∀ r ∈ requests lines ts, f r = g r) :
    splice lines f offset cs ts = splice lines g offset cs ts := by
  fun_induction requests lines ts generalizing offset cs with
  | case1 => simp only [splice]
  | case2 t ht => simp only [splice, if_pos ht]
  | case3 t ht target after hpath => simp only [splice, if_pos ht, hpath]
  | case4 t ht target after path hpath hlt ih =>
      simp only [splice, if_pos ht, hpath, h _ List.mem_cons_self,
        ih fun r hr => h r (List.mem_cons_of_mem _ hr)]
  | case5 t ts ht ih =>
      rw [splice_other (Bool.eq_false_iff.mpr ht), splice_other (Bool.eq_false_iff.mpr ht)]
      exact ih h

/-- What a call comes to depends on the calls that it makes. -/
theorem pass_congr {f g : Opened → Reported ReadError (List Char)} {p : Opened}
    (h : ∀ q, Enters files o p q → f q = g q) : pass files o f p = pass files o g p := by
  unfold pass
  cases htokens : tokenize (String.ofList p.text) p.standing.file with
  | error e => rfl
  | ok tokens =>
      refine splice_congr fun r hr => ?_
      have hr : r ∈ p.requests := by
        unfold Opened.requests
        rw [htokens]
        exact hr
      unfold inclusion
      cases hfile : locate files o p.standing r with
      | error e => rfl
      | ok l =>
          rw [Reported.ofExcept_ok, pure_bind, pure_bind]
          split
          · rfl
          · cases htext : readStripped files o l with
            | error e => rfl
            | ok text =>
                rw [Reported.ofExcept_ok, pure_bind, pure_bind,
                  show f ⟨p.standing.enter l, text⟩ = g ⟨p.standing.enter l, text⟩ from
                    h _ (.intro hr hfile (by omega) htext)]

/-- The recursion has one solution. -/
theorem eq_expansion {f : Opened → Reported ReadError (List Char)}
    (hf : ∀ p, f p = pass files o f p) (p : Opened) : f p = expansion files o p := by
  induction p using (enters_wf files o).induction with
  | h p ih => rw [hf, expansion_eq, pass_congr ih]

/-- How the recursion over included files ends.  A call depends on the calls that it makes,
these cannot go on without end, and the whole texts are what such calls come to. -/
structure Terminates (files : FileTree) (o : Options) : Prop where
  wf : WellFounded fun q p => Enters files o p q
  calls : ∀ {f g : Opened → Reported ReadError (List Char)} {p : Opened},
    (∀ q, Enters files o p q → f q = g q) → pass files o f p = pass files o g p
  call : ∀ p, expansion files o p = pass files o (expansion files o) p
  file : ∀ path, expandFile files o path = wholeFile files o (expansion files o) path
  text : ∀ base file text, expandText files o base file text =
    wholeText files o (expansion files o) base file text

theorem terminates (files : FileTree) (o : Options) : Terminates files o where
  wf := enters_wf files o
  calls := pass_congr
  call := expansion_eq
  file _ := rfl
  text _ _ _ := rfl

/-! ## Finished texts -/

/-- The text `p` is what the expansion of a file begins with. -/
def IsRoot (files : FileTree) (o : Options) (path : String) (p : Opened) : Prop :=
  files.isFile (Path.ofText path) = true ∧
    readStripped files o (files.resolve (Path.ofText path)) = .ok p.text ∧
    p.standing = .root (files.resolve (Path.ofText path))

/-- An include in the text finds the file of another text, whatever the chain. -/
inductive Opens (files : FileTree) (o : Options) : Opened → Opened → Prop
  | intro {p : Opened} {r : Request} {l : Location} {text : List Char}
      (hincludes : o.expandIncludes = true) (hr : r ∈ p.requests)
      (hfile : p.find? files r = some l) (htext : readStripped files o l = .ok text) :
      Opens files o p (p.enter l text)

/-- The chain is short, and a file that includes itself would not stand in it. -/
structure Within (o : Options) (chain : List Location) : Prop where
  length_le : chain.length ≤ max 1 o.maxIncludeDepth
  nodup : o.detectIncludeCycles = true → chain.Nodup

/-- The expansion of the file of the text stands in a text. -/
def IsSpliced (files : FileTree) (o : Options) (q : Opened) (out : List Char) : Prop :=
  ∃ l body, q.standing.chain.getLast? = some l ∧
    (expansion files o q).result = .ok body ∧ framed l.dropLast body <:+: out

theorem splice_ok {lines : List String} {replace : Request → Reported ReadError (List Char)}
    {offset : Nat} {cs out : List Char} {ts : List Token}
    (h : (splice lines replace offset cs ts).result = .ok out) :
    ∀ r ∈ requests lines ts, ∃ body, (replace r).result = .ok body ∧ body <:+: out := by
  fun_induction requests lines ts generalizing offset cs out with
  | case1 => exact List.forall_mem_nil _
  | case2 t ht => exact List.forall_mem_nil _
  | case3 t ht target after hpath => exact List.forall_mem_nil _
  | case4 t ht target after path hpath hlt ih =>
      rw [splice, if_pos ht] at h
      simp only [hpath] at h
      rw [result_noted] at h
      obtain ⟨body, hbody, h⟩ := Success.of_result_bind h
      obtain ⟨rest, hrest, h⟩ := Success.of_result_bind h
      cases h
      refine List.forall_mem_cons.mpr ⟨⟨body, hbody, List.infix_append _ _ _⟩, fun r hr => ?_⟩
      obtain ⟨inner, hinner, hsub⟩ := ih hrest r hr
      exact ⟨inner, hinner, hsub.trans (List.suffix_append _ _).isInfix⟩
  | case5 t ts ht ih =>
      rw [splice_other (Bool.eq_false_iff.mpr ht)] at h
      exact ih h

theorem locate_eq_ok_iff {s : Standing} {r : Request} {l : Location} :
    locate files o s r = .ok l ↔ s.dirs.find? files (Path.ofText r.path) = some l ∧
      (o.detectIncludeCycles = true → l ∉ s.chain) := by
  unfold locate
  cases hfile : s.dirs.find? files (Path.ofText r.path) with
  | none => simp
  | some l' => by_cases hd : o.detectIncludeCycles = true <;> grind

/-- What stands for an include that was replaced. -/
theorem inclusion_ok {s : Standing} {r : Request} {out : List Char}
    (h : (inclusion files o (expansion files o) s r).result = .ok out) :
    ∃ l text body, locate files o s r = .ok l ∧ s.chain.length < o.maxIncludeDepth ∧
      readStripped files o l = .ok text ∧
      (expansion files o ⟨s.enter l, text⟩).result = .ok body ∧ out = framed l.dropLast body := by
  obtain ⟨l, hl, h⟩ := Success.of_result_bind h
  split at h
  · cases h
  · rename_i hroom
    obtain ⟨text, htext, h⟩ := Success.of_result_bind h
    obtain ⟨body, hbody, h⟩ := Success.of_result_bind h
    exact ⟨l, text, body, hl, by omega, htext, hbody, (Except.ok.inj h).symm⟩

/-- In a text whose expansion succeeds every include is replaced. -/
theorem inclusion_ok_of_expansion {p : Opened} {out : List Char}
    (h : (expansion files o p).result = .ok out) {r : Request} (hr : r ∈ p.requests) :
    ∃ body, (inclusion files o (expansion files o) p.standing r).result = .ok body ∧
      body <:+: out := by
  rw [expansion_eq] at h
  obtain ⟨tokens, htokens, h⟩ := Success.of_result_bind h
  refine splice_ok h r ?_
  unfold Opened.requests at hr
  rw [Success.of_mapError htokens] at hr
  exact hr

theorem infix_framed (directory : Location) (cs : List Char) : cs <:+: framed directory cs := by
  have hterminated : cs <+: terminated cs := by
    unfold terminated
    split
    · exact List.prefix_rfl
    · split
      · exact List.prefix_rfl
      · exact List.prefix_append _ _
  exact hterminated.isInfix.trans (List.infix_append _ _ _)

variable {p q : Opened}

/-- A text that is found from one whose expansion succeeds has a bounded chain too, and its
own expansion is a part of the other. -/
theorem Within.of_opens {out : List Char} (h : (expansion files o p).result = .ok out)
    (hp : Within o p.standing.chain) (hq : Opens files o p q) :
    Within o q.standing.chain ∧ IsSpliced files o q out := by
  obtain @⟨r, l, text, -, hr, hfile, htext⟩ := hq
  obtain ⟨piece, hpiece, hsub⟩ := inclusion_ok_of_expansion h hr
  obtain ⟨l', text', body, hl, hroom, htext', hbody, hframed⟩ := inclusion_ok hpiece
  rw [hframed] at hsub
  obtain ⟨hfile', hcycle⟩ := locate_eq_ok_iff.mp hl
  obtain rfl : l = l' := Option.some.inj (hfile.symm.trans hfile')
  obtain rfl : text = text' := Except.ok.inj (htext.symm.trans htext')
  refine ⟨⟨?_, fun hdetect => ?_⟩, l, body, ?_, hbody, hsub⟩
  · rw [Opened.length_chain_enter]
    omega
  · refine List.nodup_append.mpr ⟨hp.nodup hdetect, List.nodup_singleton l, ?_⟩
    rintro a ha b hb rfl
    exact hcycle hdetect (List.mem_singleton.mp hb ▸ ha)
  · exact List.getLast?_concat

theorem Within.of_reflTransGen {out : List Char} {l : Location}
    (hlast : p.standing.chain.getLast? = some l)
    (h : (expansion files o p).result = .ok out) (hp : Within o p.standing.chain)
    (hq : Relation.ReflTransGen (Opens files o) p q) :
    Within o q.standing.chain ∧ IsSpliced files o q (framed l.dropLast out) := by
  induction hq with
  | refl => exact ⟨hp, l, out, hlast, h, List.infix_rfl⟩
  | tail _ hstep ih =>
      obtain ⟨hwithin, l', body, -, hbody, hsub⟩ := ih
      obtain ⟨hwithin', l'', body', hlast', hbody', hsub'⟩ := hwithin.of_opens hbody hstep
      exact ⟨hwithin', l'', body', hlast', hbody', hsub'.trans ((infix_framed _ body).trans hsub)⟩

/-! ## Refusals -/

/-- The expansion of the text `p` comes to the include `r` in the text `q`: in each text on
the way the includes before are replaced. -/
inductive Reaches (files : FileTree) (o : Options) : Opened → Opened → Request → Prop
  | here {p : Opened} {r : Request} {before after : List Request}
      (hsplit : p.requests = before ++ r :: after)
      (hbefore : ∀ b ∈ before,
        ∃ text, (inclusion files o (expansion files o) p.standing b).result = .ok text) :
      Reaches files o p p r
  | inside {p q : Opened} {r r' : Request} {before after : List Request} {l : Location}
      {text : List Char} (hsplit : p.requests = before ++ r' :: after)
      (hbefore : ∀ b ∈ before,
        ∃ text, (inclusion files o (expansion files o) p.standing b).result = .ok text)
      (hfile : locate files o p.standing r' = .ok l)
      (hroom : p.standing.chain.length < o.maxIncludeDepth)
      (htext : readStripped files o l = .ok text) (hin : Reaches files o (p.enter l text) q r) :
      Reaches files o p q r

/-- An expansion fails as its first include that cannot be replaced. -/
theorem expansion_error {r : Request} {before after : List Request} {e : ReadError}
    (hsplit : p.requests = before ++ r :: after)
    (hbefore : ∀ b ∈ before,
      ∃ text, (inclusion files o (expansion files o) p.standing b).result = .ok text)
    (hr : (inclusion files o (expansion files o) p.standing r).result = .error e) :
    (expansion files o p).result = .error e := by
  unfold Opened.requests at hsplit
  rw [expansion_eq]
  unfold pass
  cases htokens : tokenize (String.ofList p.text) p.standing.file with
  | error f =>
      rw [htokens] at hsplit
      exact absurd hsplit.symm (List.append_ne_nil_of_right_ne_nil before (List.cons_ne_nil _ _))
  | ok tokens =>
      rw [htokens] at hsplit
      refine splice_error_of_until ?_
      rw [show requests _ tokens = _ from hsplit]
      exact until_append_cons hbefore hr

/-- An include that cannot be replaced ends the whole expansion. -/
theorem expansion_error_of_reaches {r : Request} {e : ReadError} (h : Reaches files o p q r)
    (hr : (inclusion files o (expansion files o) q.standing r).result = .error e) :
    (expansion files o p).result = .error e := by
  induction h with
  | here hsplit hbefore => exact expansion_error hsplit hbefore hr
  | inside hsplit hbefore hfile hroom htext _ ih =>
      refine expansion_error hsplit hbefore ?_
      unfold inclusion
      rw [hfile, Reported.ofExcept_ok, pure_bind, if_neg (by omega), htext, Reported.ofExcept_ok,
        pure_bind]
      exact Success.result_bind_eq_error_iff.mpr (Or.inl (ih hr))

theorem inclusion_cycle {s : Standing} {r : Request} {l : Location}
    (hfile : s.dirs.find? files (Path.ofText r.path) = some l)
    (hdetect : o.detectIncludeCycles = true) (hl : l ∈ s.chain) :
    (inclusion files o (expansion files o) s r).result =
      .error (r.error (.includeCycle (Location.text l))) := by
  refine Success.result_bind_eq_error_iff.mpr (Or.inl ?_)
  unfold locate
  rw [hfile]
  simp [Reported.ofExcept, hdetect, hl]

theorem inclusion_depth {s : Standing} {r : Request} {l : Location}
    (hfile : locate files o s r = .ok l) (hfull : o.maxIncludeDepth ≤ s.chain.length) :
    (inclusion files o (expansion files o) s r).result =
      .error (r.error (.includeDepth (Location.text l) o.maxIncludeDepth)) := by
  unfold inclusion
  rw [hfile, Reported.ofExcept_ok, pure_bind, if_pos hfull]
  rfl

/-! ## Expanding a file -/

/-- The expansion of the file comes to the include, and there is a file that the include
finds. -/
structure Finds (files : FileTree) (o : Options) (path : String) (q : Opened) (r : Request)
    (l : Location) : Prop where
  includes : o.expandIncludes = true
  reached : ∃ p, IsRoot files o path p ∧ Reaches files o p q r
  found : q.find? files r = some l

/-- The chains to the files in an expanded file are short and without repetition, and an
include that would break this is refused. -/
structure Bounded (files : FileTree) (o : Options) (path : String) : Prop where
  within : ∀ {out : String} {p q : Opened}, (expandFile files o path).result = .ok out →
    IsRoot files o path p → Relation.ReflTransGen (Opens files o) p q →
      Within o q.standing.chain
  spliced : ∀ {out : String} {p q : Opened}, (expandFile files o path).result = .ok out →
    IsRoot files o path p → o.expandIncludes = true →
      Relation.ReflTransGen (Opens files o) p q → IsSpliced files o q out.toList
  cycle : ∀ {q : Opened} {r : Request} {l : Location}, Finds files o path q r l →
    o.detectIncludeCycles = true → l ∈ q.standing.chain →
      (expandFile files o path).result =
        .error (r.error (.includeCycle (Location.text l)))
  depth : ∀ {q : Opened} {r : Request} {l : Location}, Finds files o path q r l →
    (o.detectIncludeCycles = true → l ∉ q.standing.chain) →
      o.maxIncludeDepth < (q.standing.chain ++ [l]).length →
        (expandFile files o path).result =
          .error (r.error (.includeDepth (Location.text l) o.maxIncludeDepth))

/-- An expanded file is the frame of what its text comes to. -/
theorem result_expandFile {path : String} (hp : IsRoot files o path p) :
    (expandFile files o path).result =
      (if o.expandIncludes then expansion files o p else pure p.text).result.map
        fun body => String.ofList (framed (files.resolve (Path.ofText path)).dropLast body) := by
  obtain ⟨standing, text⟩ := p
  obtain ⟨hfile, htext, rfl⟩ := hp
  rw [(terminates files o).file]
  unfold wholeFile
  dsimp only at htext ⊢
  rw [if_neg (by simp [hfile]), htext, Reported.ofExcept_ok, pure_bind]
  by_cases hincludes : o.expandIncludes = true
  · rw [if_pos hincludes, if_pos hincludes]
    generalize expansion files o _ = body
    obtain ⟨notes, _ | body⟩ := body <;> rfl
  · rw [if_neg hincludes, if_neg hincludes]
    rfl

theorem IsRoot.within {path : String} (hp : IsRoot files o path p) :
    Within o p.standing.chain := by
  obtain ⟨-, -, hstanding⟩ := hp
  rw [hstanding]
  exact ⟨le_max_left _ _, fun _ => List.nodup_singleton _⟩

theorem not_opens (hincludes : o.expandIncludes = false)
    (hq : Relation.ReflTransGen (Opens files o) p q) : p = q := by
  induction hq with
  | refl => rfl
  | tail _ hstep _ =>
      obtain ⟨h, -⟩ := hstep
      exact absurd (hincludes.symm.trans h) Bool.false_ne_true

/-- What is found from a file that was expanded. -/
theorem of_expandFile {path out : String} (h : (expandFile files o path).result = .ok out)
    (hincludes : o.expandIncludes = true) (hp : IsRoot files o path p)
    (hq : Relation.ReflTransGen (Opens files o) p q) :
    Within o q.standing.chain ∧ IsSpliced files o q out.toList := by
  rw [result_expandFile hp, if_pos hincludes] at h
  obtain ⟨body, hbody, rfl⟩ := Success.of_map h
  rw [String.toList_ofList]
  refine hp.within.of_reflTransGen ?_ hbody hq
  rw [hp.2.2]
  rfl

/-- An include that cannot be replaced ends the expansion of the file. -/
theorem expandFile_error {path : String} {r : Request} {l : Location} {e : ReadError}
    (h : Finds files o path q r l)
    (hr : (inclusion files o (expansion files o) q.standing r).result = .error e) :
    (expandFile files o path).result = .error e := by
  obtain ⟨p, hp, hreaches⟩ := h.reached
  rw [result_expandFile hp, if_pos h.includes, expansion_error_of_reaches hreaches hr]
  rfl

/-- The expansion of files comes to an end within its bounds. -/
theorem expandFile_chains (files : FileTree) (o : Options) (path : String) :
    Terminates files o ∧ Bounded files o path := by
  refine ⟨terminates files o, ?within, ?spliced, ?cycle, ?depth⟩
  case within =>
    intro out p q h hp hq
    cases hincludes : o.expandIncludes with
    | false => exact not_opens hincludes hq ▸ hp.within
    | true => exact (of_expandFile h hincludes hp hq).1
  case spliced => exact fun h hp hincludes hq => (of_expandFile h hincludes hp hq).2
  case cycle => exact fun h hdetect hl => expandFile_error h (inclusion_cycle h.found hdetect hl)
  case depth =>
    intro q r l h hl hfull
    rw [List.length_append, List.length_singleton] at hfull
    exact expandFile_error h (inclusion_depth (locate_eq_ok_iff.mpr ⟨h.found, hl⟩) (by omega))

/-- Two files that include each other. -/
def mutualFiles : FileTree :=
  ⟨[([], .directory), (["a"], .file "Include \"b\"".toUTF8.toList),
    (["b"], .file "Include \"a\"".toUTF8.toList)], []⟩

/-- The code of what is wrong with an expanded file. -/
def expansionCode (files : FileTree) (o : Options) (path : String) : Option String :=
  match (expandFile files o path).result with
  | .error (.scene e) => some e.fault.code
  | _ => none

example : expansionCode mutualFiles .standard "a" = some "E203" := by decide +kernel

example : expansionCode mutualFiles { detectIncludeCycles := false, maxIncludeDepth := 3 } "a" =
    some "E204" := by decide +kernel

end Include
end SceneReader

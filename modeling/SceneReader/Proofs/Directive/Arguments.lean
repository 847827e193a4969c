import SceneReader.Directive.Parser
import SceneReader.Engine.Admission
import SceneReader.Proofs.Success

/-!
# The arguments of parsed directives

The parser gives a directive the arguments that its name asks for: as many numbers, or as
many texts.

**Results.**
* `fits_arguments`: what is read for a shape is of the shape.
* `Directive.Parsed.fits`: so are the arguments of parsed directives.
-/

namespace SceneReader

/-- The arguments are of the shape. -/
inductive ArgShape.Fits : ArgShape → List Argument → Prop
  | nothing : Fits .nothing []
  | numbers (xs : List Float) : Fits (.numbers xs.length) (xs.map .number)
  | matrix (xs : List Float) (h : xs.length = 16) : Fits .matrix (xs.map .number)
  | keyword (word : String) (h : word ∈ activeKeywords) : Fits .keyword [.text word]
  | name (s : String) : Fits .name [.text s]
  | oneName (s : String) : Fits .oneOrTwoNames [.text s]
  | twoNames (s s' : String) : Fits .oneOrTwoNames [.text s, .text s']
  | named (s : String) : Fits .named [.text s]
  | texture (name type kind : String) : Fits .texture [.text name, .text type, .text kind]

/-- The directive was read from some tokens. -/
def Directive.Parsed (d : Directive) : Prop :=
  ∃ ctx ts stop rest, (Parser.directive ctx ts).result = .ok ⟨d, stop, rest⟩

namespace Parser

theorem exists_takeNumbers (count : Nat) (stop : Position) (ts : List Token) :
    ∃ xs : List Float, (takeNumbers count stop ts).value = xs.map .number := by
  induction count generalizing stop ts with
  | zero => exact ⟨[], rfl⟩
  | succ count ih =>
      cases ts with
      | nil => exact ⟨[], rfl⟩
      | cons t ts =>
          unfold takeNumbers
          split
          · exact ⟨[], rfl⟩
          · rename_i x _
            obtain ⟨xs, hxs⟩ := ih (stopOf t) ts
            exact ⟨x :: xs, congrArg (Argument.number x :: ·) hxs⟩

theorem exists_takeStrings (count : Nat) (stop : Position) (ts : List Token) :
    ∃ ss : List String, ss.length ≤ count ∧ (takeStrings count stop ts).value = ss.map .text := by
  induction count generalizing stop ts with
  | zero => exact ⟨[], Nat.le_refl 0, rfl⟩
  | succ count ih =>
      cases ts with
      | nil => exact ⟨[], Nat.zero_le _, rfl⟩
      | cons t ts =>
          unfold takeStrings
          split
          · exact ⟨[], Nat.zero_le _, rfl⟩
          · rename_i s _
            obtain ⟨ss, hle, hss⟩ := ih (stopOf t) ts
            exact ⟨s :: ss, Nat.succ_le_succ hle, congrArg (Argument.text s :: ·) hss⟩

variable {ctx : Context} {t : Token} {ts : List Token} {p : Parsed (List Argument)}

theorem fits_numbers {count : Nat} (h : numbers ctx t count ts = .ok p) :
    (ArgShape.numbers count).Fits p.value := by
  obtain ⟨xs, hxs⟩ := exists_takeNumbers count (stopOf t) ts
  unfold numbers at h
  dsimp only at h
  split at h
  · rename_i hlength
    cases h
    rw [hxs, List.length_map] at hlength
    rw [hxs, ← hlength]
    exact .numbers xs
  · cases h

theorem fits_takeNumbers {count : Nat} {stop : Position}
    (h : (takeNumbers count stop ts).value.length = 16) :
    ArgShape.matrix.Fits (takeNumbers count stop ts).value := by
  obtain ⟨xs, hxs⟩ := exists_takeNumbers count stop ts
  rw [hxs, List.length_map] at h
  rw [hxs]
  exact .matrix xs h

theorem fits_matrix (h : matrix ctx t ts = .ok p) : ArgShape.matrix.Fits p.value := by
  unfold matrix at h
  dsimp only at h
  split at h
  · split at h
    · rename_i hlength
      cases hlength
    · cases h
  · split at h
    · split at h
      · split at h
        · rename_i hlength
          cases h
          exact fits_takeNumbers hlength
        · cases h
      · cases h
    · split at h
      · rename_i hlength
        cases h
        exact fits_takeNumbers hlength
      · cases h

theorem fits_keyword (h : keyword ctx t ts = .ok p) : ArgShape.keyword.Fits p.value := by
  unfold keyword at h
  dsimp only at h
  split at h
  · cases h
  · split at h
    · split at h
      · rename_i hword
        cases h
        exact .keyword _ hword
      · cases h
    · cases h

theorem exists_strings {least most : Nat} {expected : String}
    (h : strings ctx t least most expected ts = .ok p) :
    ∃ ss : List String, least ≤ ss.length ∧ ss.length ≤ most ∧ p.value = ss.map .text := by
  obtain ⟨ss, hle, hss⟩ := exists_takeStrings most (stopOf t) ts
  unfold strings at h
  dsimp only at h
  split at h
  · rename_i hleast
    cases h
    rw [hss, List.length_map] at hleast
    exact ⟨ss, hleast, hle, hss⟩
  · cases h

/-- What is read for a shape is of the shape. -/
theorem fits_arguments {shape : ArgShape} (h : arguments ctx t shape ts = .ok p) :
    shape.Fits p.value := by
  cases shape with
  | nothing =>
      cases h
      exact .nothing
  | numbers count => exact fits_numbers h
  | matrix => exact fits_matrix h
  | keyword => exact fits_keyword h
  | name =>
      obtain ⟨ss, hleast, hmost, hss⟩ := exists_strings h
      obtain ⟨s, rfl⟩ := List.length_eq_one_iff.mp (Nat.le_antisymm hmost hleast)
      rw [hss]
      exact .name s
  | oneOrTwoNames =>
      obtain ⟨ss, hleast, hmost, hss⟩ := exists_strings h
      rw [hss]
      match ss, hleast, hmost with
      | [s], _, _ => exact .oneName s
      | [s, s'], _, _ => exact .twoNames s s'
  | named =>
      obtain ⟨ss, hleast, hmost, hss⟩ := exists_strings h
      obtain ⟨s, rfl⟩ := List.length_eq_one_iff.mp (Nat.le_antisymm hmost hleast)
      rw [hss]
      exact .named s
  | texture =>
      obtain ⟨ss, hleast, hmost, hss⟩ := exists_strings h
      rw [hss]
      match ss, hleast, hmost with
      | [name, type, kind], _, _ => exact .texture name type kind

end Parser

/-- A parsed directive has the arguments that its name asks for. -/
theorem Directive.Parsed.fits {d : Directive} (h : d.Parsed) : d.name.signature.Fits d.args := by
  obtain ⟨ctx, ts, stop, rest, hd⟩ := h
  unfold Parser.directive at hd
  split at hd
  · cases hd
  · split at hd
    · cases hd
    · rename_i hargs
      obtain ⟨params, -, hparams⟩ := Success.of_result_bind hd
      cases hparams
      exact Parser.fits_arguments hargs

end SceneReader

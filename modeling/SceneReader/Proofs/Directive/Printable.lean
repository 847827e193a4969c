import SceneReader.Proofs.Directive.RoundTrip

/-!
# Directives that can be printed

A program may build directives that it never read, and print them.  Printed directives are read
again, if the arguments are those that the name asks for and nothing in them is printed as
something else: no number but a finite one, no text that ends in a backslash, no parameter whose
name or type falls apart into words, and no values of a kind that their declared type is not
written with.

**Results.**
* `mem_kindsOf_of_mem_writtenKinds`: a type may have all kinds that it is written with.
* `Param.Printable.declared`, `Directive.Printable.wellFormed`: what can be printed could have been
  declared.
* `Directive.Printable.legible`: nothing in it is printed as something else.
* `roundTrips_of_printable`: so printed directives are read again.
-/

namespace SceneReader

open Lexer (Quotable)

/-! ## What can be printed -/

/-- The kinds of values that a declared type is written with. -/
def writtenKinds (type : String) : List PropertyKind :=
  if type = "string" ∨ type = "texture" then [.strings]
  else if type = "spectrum" then [.strings, .floats]
  else if type = "bool" then [.bools]
  else if type = "integer" then [.ints]
  else if type = "" then [.floats, .strings]
  else [.floats]

/-- A finite number, or a text that does not end in a backslash. -/
def Argument.Printable : Argument → Prop
  | number x => Number.isFinite x = true
  | text s => Quotable s

/-- Finite numbers, integers that are values of numbers, or texts that do not end in a
backslash. -/
def Property.Printable : Property → Prop
  | floats xs => ∀ x ∈ xs.toList, Number.isFinite x = true
  | ints is => ∀ i ∈ is.toList, ∃ x, Number.integer? x = some i
  | strings ss => ∀ s ∈ ss.toList, Quotable s
  | bools _ => True

/-- The type, which may be empty, and the name are words, the name does not end in a backslash, and
the values are of a kind that the type is written with. -/
structure Param.Printable (p : Param) : Prop where
  type : ∀ c ∈ p.type.toList, Text.isBlank c = false
  name : Text.IsWord p.name
  ending : Quotable p.name
  kind : p.value.kind ∈ writtenKinds p.type
  value : p.value.Printable

/-- The arguments are those that the name of the directive asks for, no two parameters have the
same name, and there are none where the name does not ask for them. -/
structure Directive.Printable (d : Directive) : Prop where
  fits : d.name.signature.Fits d.args
  args : ∀ a ∈ d.args, a.Printable
  params : ∀ p ∈ d.params.entries, p.Printable
  distinct : d.params.names.Nodup
  bare : d.name.signature.hasParams = false → d.params = .empty

/-! ## What can be declared -/

/-- A type may have all kinds that it is written with, and truth values need a type. -/
theorem mem_kindsOf_of_mem_writtenKinds {type : String} {kind : PropertyKind}
    (h : kind ∈ writtenKinds type) : kind ∈ kindsOf type ∧ (type = "" → kind ≠ .bools) := by
  unfold writtenKinds at h
  unfold kindsOf
  split_ifs at h ⊢ <;> grind

theorem Number.isWord_of_isFinite {x : Float} (h : isFinite x = true) : isWord x = false := by
  have hnan : x.isNaN = false := by
    unfold isFinite Float.isFinite Float.Model.isFinite at h
    unfold Float.isNaN Float.Model.isNaN
    generalize x.toModel.unpack = unpacked at h ⊢
    cases unpacked with
    | notANumber => cases h
    | infinity | zero | finite => rfl
  rw [isWord, hnan, h]
  rfl

namespace Param

variable {p : Param}

theorem Printable.declaration (h : p.Printable) :
    Parser.declaration? p.key = some (p.type, p.name) := by
  unfold key makeKey Parser.declaration?
  by_cases htype : p.type = ""
  · rw [htype, if_pos (by rfl), Text.words_word h.name]
  · have hword : Text.IsWord p.type :=
      ⟨fun hnil => htype (String.toList_eq_nil_iff.mp hnil), h.type⟩
    rw [if_neg (mt String.isEmpty_iff.mp htype), Text.words_pair hword h.name]

/-- The key ends as the name does. -/
theorem Printable.quotable_key (h : p.Printable) : Quotable p.key := by
  obtain ⟨c, hc⟩ := Option.ne_none_iff_exists'.mp (mt List.getLast?_eq_none_iff.mp h.name.1)
  have hending := h.ending
  unfold Quotable at hending ⊢
  unfold key makeKey
  split
  · exact hending
  · rw [String.toList_append, List.getLast?_append, hc]
    rwa [hc] at hending

/-- What can be printed could have been declared. -/
theorem Printable.declared (h : p.Printable) : p.Declared where
  declaration := h.declaration
  kind := (mem_kindsOf_of_mem_writtenKinds h.kind).1
  integers := by
    intro is hvalue
    have hprintable := h.value
    rw [hvalue] at hprintable
    exact hprintable

theorem Printable.legible (h : p.Printable) : p.Legible where
  key := h.quotable_key
  value := by
    have hprintable := h.value
    cases hvalue : p.value with
    | floats xs =>
        rw [hvalue] at hprintable
        exact fun x hx => Number.isWord_of_isFinite (hprintable x hx)
    | strings ss =>
        rw [hvalue] at hprintable
        exact hprintable
    | ints | bools => trivial
  typed := (mem_kindsOf_of_mem_writtenKinds h.kind).2

end Param

/-! ## Printing and reading -/

namespace Directive

variable {d : Directive}

theorem Printable.wellFormed (h : d.Printable) : d.WellFormed where
  fits := h.fits
  declared := ⟨fun p hp => (h.params p hp).declared, h.distinct⟩
  bare := h.bare

/-- Nothing in a directive that can be printed is printed as something else. -/
theorem Printable.legible (h : d.Printable) : d.Legible where
  args := by
    intro a ha
    have hprintable := h.args a ha
    cases a with
    | number x => exact Number.isWord_of_isFinite hprintable
    | text s => exact hprintable
  params := fun p hp => (h.params p hp).legible

end Directive

/-- Printed directives are read again, in lenient and in strict reading, without a diagnostic: with
the same names, arguments and parameters, in the same order. -/
theorem roundTrips_of_printable (o : Options) (file : Option String) {ds : List Directive}
    (hds : ∀ d ∈ ds, d.Printable) (hexact : ∀ d ∈ ds, ∀ x ∈ d.writtenNumbers, Number.Exact x) :
    RoundTrips o file ds :=
  (roundTrips_iff_of_wellFormed o file (fun d hd => (hds d hd).wellFormed) hexact).mpr
    fun d hd => (hds d hd).legible

/-- A shape with values of all kinds. -/
def printedShape : Directive :=
  ⟨.shape, [.text "say \"hi\"\n"], ⟨[⟨"integer", "indices", .ints ⟨-3, [4]⟩⟩,
    ⟨"", "tag", .strings ⟨"a\\\"b", []⟩⟩, ⟨"bool", "on", .bools ⟨true, [false]⟩⟩,
    ⟨"spectrum", "Kd", .floats ⟨1.5e-7, [1e22]⟩⟩]⟩, none⟩

/-- A translation, one of its numbers being negative zero. -/
def printedTranslation : Directive :=
  ⟨.translate, [.number (-0.0), .number 0.1, .number 2], .empty, none⟩

theorem printable_printedShape : printedShape.Printable where
  fits := .named "say \"hi\"\n"
  args := List.forall_mem_singleton.mpr (by decide : Quotable "say \"hi\"\n")
  params := by
    have hthree : Number.integer? (-3.0) = some (-3) := by decide +kernel
    have hfour : Number.integer? 4.0 = some 4 := by decide +kernel
    have hints : Property.Printable (.ints ⟨-3, [4]⟩) :=
      List.forall_mem_cons.mpr ⟨⟨-3.0, hthree⟩, List.forall_mem_singleton.mpr ⟨4.0, hfour⟩⟩
    have hstrings : Property.Printable (.strings ⟨"a\\\"b", []⟩) :=
      List.forall_mem_singleton.mpr (by decide : Quotable "a\\\"b")
    have hfloats : Property.Printable (.floats ⟨1.5e-7, [1e22]⟩) :=
      List.forall_mem_cons.mpr ⟨by decide +kernel, List.forall_mem_singleton.mpr (by decide +kernel)⟩
    have hinteger : Text.IsWord "integer" := by decide
    have hbool : Text.IsWord "bool" := by decide
    have hspectrum : Text.IsWord "spectrum" := by decide
    refine List.forall_mem_cons.mpr ⟨⟨hinteger.2, by decide, by decide, by decide, hints⟩, ?_⟩
    refine List.forall_mem_cons.mpr
      ⟨⟨List.forall_mem_nil _, by decide, by decide, by decide, hstrings⟩, ?_⟩
    refine List.forall_mem_cons.mpr ⟨⟨hbool.2, by decide, by decide, by decide, trivial⟩, ?_⟩
    exact List.forall_mem_singleton.mpr
      ⟨hspectrum.2, by decide, by decide, by decide, hfloats⟩
  distinct := by decide
  bare := nofun

theorem printable_printedTranslation : printedTranslation.Printable where
  fits := .numbers [-0.0, 0.1, 2]
  args := by
    have hfinite : ∀ x ∈ [-0.0, 0.1, 2], Number.isFinite x = true := by decide +kernel
    have hargs : ∀ a ∈ [-0.0, 0.1, 2].map Argument.number, a.Printable :=
      List.forall_mem_map.mpr hfinite
    exact hargs
  params := List.forall_mem_nil _
  distinct := List.nodup_nil
  bare := fun _ => rfl

/-- The two are printed, with quotes and a line feed in a text, and read again strictly. -/
theorem roundTrips_of_printable_printedShape :
    (∀ d ∈ [printedTranslation, printedShape], d.Printable) ∧
      (∀ d ∈ [printedTranslation, printedShape], ∀ x ∈ d.writtenNumbers, Number.Exact x) ∧
      written [printedTranslation, printedShape] =
        "Translate -0 0.1 2\nShape \"say \\\"hi\\\"\n\" \"integer indices\" [ -3 4 ] " ++
          "\"tag\" [ \"a\\\\\"b\" ] \"bool on\" [ \"true\" \"false\" ] " ++
          "\"spectrum Kd\" [ 1.5e-07 1e+22 ]" ∧
      RoundTrips { strictNumbers := true } none [printedTranslation, printedShape] := by
  have hprintable : ∀ d ∈ [printedTranslation, printedShape], d.Printable :=
    List.forall_mem_cons.mpr
      ⟨printable_printedTranslation, List.forall_mem_singleton.mpr printable_printedShape⟩
  have hexact : ∀ d ∈ [printedTranslation, printedShape], ∀ x ∈ d.writtenNumbers,
      Number.Exact x := by
    unfold Number.Exact
    decide +kernel
  exact ⟨hprintable, hexact, by decide +kernel,
    roundTrips_of_printable { strictNumbers := true } none hprintable hexact⟩

end SceneReader

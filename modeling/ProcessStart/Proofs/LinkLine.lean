import ProcessStart.LinkLine
import ProcessStart.Proofs.Text.Lines
import ProcessStart.Proofs.Text.Utf8

/-!
What the linker is given in the end. A compiler driver takes its mark away from
an argument that bears it and cuts what stands behind the mark at the commas;
every other argument it leaves as it is. So what was put behind the mark arrives
as it was, and the line for a compiler driver asks for the same link as the line
for the linker, unless the name of the library itself bears the mark.
-/
namespace ProcessStart.LinkLine

namespace Flavor

/-- What becomes of an argument of a compiler driver. -/
def cut (argument : List Char) : List (List Char) :=
  if passedOn.isPrefixOf argument then Text.pieces ',' (argument.drop passedOn.length)
  else [argument]

/-- The arguments that the linker is given. -/
def reaching (f : Flavor) (arguments : List (List Char)) : List (List Char) :=
  match f with
  | .compiler => arguments.flatMap cut
  | .linker => arguments

/-- Behind the mark every comma cuts. -/
theorem cut_marked (flags : List Char) : cut (passedOn ++ flags) = Text.pieces ',' flags := by
  rw [cut, if_pos (List.isPrefixOf_iff_prefix.mpr (List.prefix_append _ _)), List.drop_left]

/-- An argument without the mark is left whole. -/
theorem cut_of_unmarked {argument : List Char} (h : ¬ passedOn <+: argument) :
    cut argument = [argument] :=
  if_neg (mt List.isPrefixOf_iff_prefix.mp h)

/-- Only the mark changes an argument. -/
theorem cut_eq_self_iff {argument : List Char} :
    cut argument = [argument] ↔ ¬ passedOn <+: argument := by
  refine ⟨?_, cut_of_unmarked⟩
  rintro hcut ⟨flags, rfl⟩
  -- Joined again, the pieces are the text behind the mark, which is shorter than the argument.
  rw [cut_marked] at hcut
  have hjoined := Text.intercalate_pieces ',' flags
  rw [hcut, List.intercalate_singleton] at hjoined
  have hlength := congrArg List.length hjoined
  rw [List.length_append] at hlength
  have hmark : passedOn.length = 4 := rfl
  omega

section

variable (f : Flavor)

theorem reaching_append (s t : List (List Char)) :
    f.reaching (s ++ t) = f.reaching s ++ f.reaching t := by
  cases f with
  | compiler => exact List.flatMap_append
  | linker => rfl

theorem reaching_cons (argument : List Char) (s : List (List Char)) :
    f.reaching (argument :: s) = f.reaching [argument] ++ f.reaching s :=
  f.reaching_append [argument] s

/-- Arguments that were handed on arrive as they were. -/
theorem reaching_pass {arguments : List (List Char)} (hne : arguments ≠ [])
    (hfree : ∀ a ∈ arguments, ',' ∉ a) : f.reaching (f.pass arguments) = arguments := by
  cases f with
  | compiler =>
    rw [reaching, pass, List.flatMap_singleton, cut_marked, Text.pieces_intercalate hne hfree]
  | linker => rfl

/-- A single argument without a comma reaches the linker with either flavor. -/
theorem reaching_pass_singleton {argument : List Char} (h : ',' ∉ argument) :
    f.reaching (f.pass [argument]) = [argument] :=
  f.reaching_pass (List.cons_ne_nil _ _) (by simpa using h)

/-- A single argument is handed on as a single one. -/
theorem pass_singleton (argument : List Char) : ∃ wrapped, f.pass [argument] = [wrapped] := by
  cases f with
  | compiler => exact ⟨_, rfl⟩
  | linker => exact ⟨_, rfl⟩

end

end Flavor

section

variable (f : Flavor)

theorem reaching_reference : f.reaching (f.pass [reference]) = [reference] :=
  f.reaching_pass_singleton (by decide)

theorem reaching_secondName : f.reaching (f.pass [secondName]) = [secondName] :=
  f.reaching_pass_singleton (by decide)

theorem reaching_before : f.reaching (before f) = [reference, secondName] := by
  rw [before, Flavor.reaching_append, reaching_reference, reaching_secondName]
  rfl

theorem reaching_behind : f.reaching (behind f) =
    ["--push-state".toList, "--no-as-needed".toList, "-ldl".toList, "--pop-state".toList] := by
  have hpush : f.reaching (f.pass ["--push-state".toList, "--no-as-needed".toList]) =
      ["--push-state".toList, "--no-as-needed".toList] :=
    f.reaching_pass (List.cons_ne_nil _ _) (by decide)
  have hpop : f.reaching (f.pass ["--pop-state".toList]) = ["--pop-state".toList] :=
    f.reaching_pass_singleton (by decide)
  have hname : f.reaching ["-ldl".toList] = ["-ldl".toList] := by cases f <;> rfl
  rw [behind, Flavor.reaching_append, Flavor.reaching_cons, hpush, hname, hpop]
  rfl

theorem arguments_none : arguments f none = before f ++ behind f := by
  rw [arguments, Option.toList_none, List.map_nil, List.append_nil]

theorem arguments_some (path : List UInt8) :
    arguments f (some path) = before f ++ Text.utf8Shown path :: behind f :=
  List.append_assoc _ _ _

end

/-- The two lines come to the same but for the name of the library. -/
theorem reaching_arguments (library : Option (List UInt8)) :
    Flavor.compiler.reaching (arguments .compiler library) = arguments .linker library ↔
      Flavor.compiler.reaching (library.toList.map Text.utf8Shown) =
        library.toList.map Text.utf8Shown := by
  have hbefore : Flavor.compiler.reaching (before .compiler) = before .linker :=
    (reaching_before .compiler).trans (reaching_before .linker).symm
  have hbehind : Flavor.compiler.reaching (behind .compiler) = behind .linker :=
    (reaching_behind .compiler).trans (reaching_behind .linker).symm
  rw [arguments, arguments, Flavor.reaching_append, Flavor.reaching_append, hbefore, hbehind,
    List.append_left_inj, List.append_right_inj]

/-- Both lines ask for the same link exactly if the library's name, as it is shown, does not bear the
mark. A named library is one more argument, as it is shown, between the two names of the routine and
what names the library of the dynamic loader. -/
theorem arguments_agree :
    (∀ library : Option (List UInt8),
      Flavor.compiler.reaching (arguments .compiler library) = arguments .linker library ↔
        ∀ path, library = some path → ¬ Flavor.passedOn <+: Text.utf8Shown path) ∧
    ∀ (f : Flavor) (path : List UInt8),
      (∃ first second, before f = [first, second] ∧
        f.reaching [first] = ["--undefined=__dynamic_libc_start_main".toList] ∧
        f.reaching [second] =
          ["--defsym=__libc_start_main=__dynamic_libc_start_main".toList]) ∧
      f.reaching (behind f) = ["--push-state".toList, "--no-as-needed".toList, "-ldl".toList,
        "--pop-state".toList] ∧
      arguments f none = before f ++ behind f ∧
      arguments f (some path) = before f ++ Text.utf8Shown path :: behind f ∧
      ∀ text, path = Text.utf8Encode text → Text.utf8Shown path = text := by
  refine ⟨?_, ?_⟩
  · intro library
    rw [reaching_arguments]
    cases library with
    | none => exact iff_of_true rfl fun path hpath => by cases hpath
    | some path =>
      have hpath : Flavor.compiler.reaching [Text.utf8Shown path] =
          Flavor.cut (Text.utf8Shown path) := List.flatMap_singleton _ _
      rw [Option.toList_some, List.map_cons, List.map_nil, hpath, Flavor.cut_eq_self_iff]
      constructor
      · rintro hfree other ⟨⟩
        exact hfree
      · exact fun hall => hall path rfl
  · intro f path
    obtain ⟨first, hfirst⟩ := f.pass_singleton reference
    obtain ⟨second, hsecond⟩ := f.pass_singleton secondName
    refine ⟨⟨first, second, ?_, ?_, ?_⟩, reaching_behind f, arguments_none f,
      arguments_some f path, ?_⟩
    · rw [before, hfirst, hsecond]
      rfl
    · rw [← hfirst, reaching_reference]
      rfl
    · rw [← hsecond, reaching_secondName]
      rfl
    · rintro text rfl
      exact Text.utf8Shown_utf8Encode text

end ProcessStart.LinkLine

import Kaleidoscope.CommandLine.Arguments

/-!
# Arguments for options

Whatever the operators, the depth limit and the file are, there are arguments that ask for a run
with them, even for values that look like options or begin with equals signs. The main statement
gives such arguments.
-/

namespace Kaleidoscope.CommandLine

/-- The long name of an option. -/
def Valued.name : Valued → String
  | .operator => "--operator"
  | .maxDepth => "--max-depth"

/-- Arguments that give an option a value. The value stands in an argument of its own, unless it
looks like an option. -/
def Valued.arguments (option : Valued) (value : String) : List String :=
  if value.toList.head? = some '-' then [option.name ++ "=" ++ value] else [option.name, value]

/-- Arguments that ask for a run with some options. -/
def Options.arguments (options : Options) : List String :=
  (if options.print then ["--print"] else []) ++
    (options.operators.flatMap Valued.operator.arguments ++
      (options.maxDepth?.toList.flatMap Valued.maxDepth.arguments ++
        options.file?.toList.flatMap fun path => ["--", path]))

namespace Taken

variable {taken : Taken}

/-- The long name of an option waits for its value. -/
theorem argument_name (h : taken.ended = false) (option : Valued) :
    taken.argument option.name = .ok (.more (taken.use option)) := by
  rw [argument, h]
  cases option <;> rfl

/-- The value that is waited for is given. -/
theorem argument_value {value : String} {option : Valued} (h : taken.ended = false)
    (hwaiting : taken.waiting? = some option) (hvalue : value.toList.head? ≠ some '-') :
    taken.argument value = .ok (.more (taken.value value option)) := by
  have hplain : taken.plain value = .ok (.more (taken.value value option)) := by
    rw [plain, hwaiting]
  rw [argument, h, if_neg Bool.false_ne_true]
  split
  · next hchars => exact absurd (congrArg List.head? hchars) hvalue
  · next hchars => exact absurd (congrArg List.head? hchars) hvalue
  · next hchars => exact absurd (congrArg List.head? hchars) hvalue
  · exact hplain

/-- A value that looks like an option is given in the argument of its option. -/
theorem argument_attached {value : String} (h : taken.ended = false) (option : Valued)
    (hvalue : value.toList.head? = some '-') :
    taken.argument (option.name ++ "=" ++ value) =
      .ok (.more ((taken.use option).value value option)) := by
  obtain ⟨rest, hrest⟩ := List.head?_eq_some_iff.1 hvalue
  have hkept : String.ofList (value.toList.dropWhile (· = '=')) = value := by
    rw [hrest, List.dropWhile_cons_of_neg (by decide), ← hrest, String.ofList_toList]
  have hchars : (option.name ++ "=" ++ value).toList =
      option.name.toList ++ ('=' :: value.toList) := by
    rw [String.toList_append, String.toList_append, List.append_assoc]
    rfl
  have hgiven : taken.argument (option.name ++ "=" ++ value) = .ok (.more
      ((taken.use option).value (String.ofList (value.toList.dropWhile (· = '='))) option)) := by
    rw [argument, h, if_neg Bool.false_ne_true, hchars]
    cases option <;> rfl
  rw [hgiven, hkept]

/-- An option is given a value. -/
theorem arguments_value (h : taken.ended = false) (option : Valued) (value : String)
    (rest : List String) :
    taken.arguments (option.arguments value ++ rest) =
      ((taken.use option).value value option).arguments rest := by
  have hended : (taken.use option).ended = false := by cases option <;> exact h
  have hwaiting : (taken.use option).waiting? = some option := by cases option <;> rfl
  rw [Valued.arguments]
  split
  · next hvalue =>
    rw [List.singleton_append, arguments, argument_attached h option hvalue]
  · next hvalue =>
    rw [List.cons_append, List.singleton_append, arguments, argument_name h option]
    dsimp only
    rw [arguments, argument_value hended hwaiting hvalue]

/-- Any number of operators are given. -/
theorem arguments_operators (h : taken.ended = false) (hwaiting : taken.waiting? = none)
    (values rest : List String) :
    taken.arguments (values.flatMap Valued.operator.arguments ++ rest) =
      arguments { taken with
        operatorUses := taken.operatorUses + values.length
        operators := values.reverse ++ taken.operators } rest := by
  induction values generalizing taken with
  | nil => rfl
  | cons value values ih =>
    have huses : taken.operatorUses + (value :: values).length =
        taken.operatorUses + 1 + values.length := by
      rw [List.length_cons]
      omega
    rw [List.flatMap_cons, List.append_assoc, arguments_value h, huses, List.reverse_cons,
      List.append_assoc, hwaiting]
    exact @ih ((taken.use .operator).value value .operator) h rfl

/-- The depth limit is given, or not. -/
theorem arguments_maxDepth (h : taken.ended = false) (hwaiting : taken.waiting? = none)
    (value? : Option String) (rest : List String) :
    taken.arguments (value?.toList.flatMap Valued.maxDepth.arguments ++ rest) =
      arguments { taken with
        depthUses := taken.depthUses + value?.toList.length
        depths := value?.toList ++ taken.depths } rest := by
  cases value? with
  | none => rfl
  | some value =>
    rw [Option.toList_some, List.flatMap_singleton, arguments_value h, hwaiting]
    rfl

/-- A file is given, or not, and nothing else. -/
theorem arguments_file (h : taken.ended = false) (hfile : taken.file? = none)
    (path? : Option String) :
    taken.arguments (path?.toList.flatMap fun path => ["--", path]) =
      request { taken with file? := path?, ended := path?.isSome } := by
  obtain ⟨prints, operatorUses, operators, depthUses, depths, file?, waiting?, ended⟩ := taken
  cases h
  cases hfile
  cases path? <;> rfl

end Taken

/-- Every run can be asked for. -/
theorem ofArguments_arguments (options : Options) :
    Request.ofArguments options.arguments = .ok (.run options) := by
  obtain ⟨print, operators, maxDepth?, file?⟩ := options
  have hprint : ∀ rest, Taken.nothing.arguments ((if print then ["--print"] else []) ++ rest) =
      Taken.arguments { Taken.nothing with prints := if print then 1 else 0 } rest := by
    intro rest
    cases print <;> rfl
  rw [Request.ofArguments, Options.arguments]
  dsimp only
  rw [hprint, Taken.arguments_operators rfl rfl, Taken.arguments_maxDepth rfl rfl,
    Taken.arguments_file rfl rfl]
  simp only [Taken.request, Taken.nothing]
  cases print <;> cases maxDepth? <;> cases operators <;> simp

end Kaleidoscope.CommandLine

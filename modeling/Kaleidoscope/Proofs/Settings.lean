import Kaleidoscope.Proofs.OperatorValues
import Kaleidoscope.Proofs.Reports

/-!
# Settings

The settings of a run are all in order or there is no run. Operator values count in the order of the
arguments: of invalid values the first one decides, and of values for one character the last one.
The depth limit counts behind them, and the file behind that. The main statement says what the
program does for all arguments that ask for a run, and that a failure leaves nothing printed and
does not depend on the input.
-/

namespace Kaleidoscope.CommandLine

/-- A value does not register two operators. -/
theorem Registers.unique {c d : Char} {precedence other : Int32} {value : String}
    (h : Registers c precedence value) (h' : Registers d other value) :
    c = d ∧ precedence = other := by
  have hread := h.names.readOperator_eq
  rw [h'.names.readOperator_eq] at hread
  cases hread
  exact ⟨rfl, rfl⟩

/-- An invalid value registers nothing. -/
theorem Invalid.not_registers {failure : Failure} {value : String} (h : Invalid failure value)
    {c : Char} {precedence : Int32} : ¬Registers c precedence value := by
  intro hregisters
  have hregister := hregisters.registerValue_eq .standard
  rw [h.registerValue_eq] at hregister
  cases hregister

/-- A value that is read as an operator, and is accepted, registers this operator. -/
theorem registers_of_registerValue {value : String} {c : Char} {precedence : Int32}
    {config later : Config} (hread : readOperator value = .ok (c, precedence))
    (h : registerValue config value = .ok later) : Registers c precedence value := by
  rcases registers_or_invalid value with ⟨d, other, hregisters⟩ | ⟨failure, hinvalid⟩
  · have hsame := hregisters.names.readOperator_eq
    rw [hread] at hsame
    cases hsame
    exact hregisters
  · rw [hinvalid.registerValue_eq] at h
    cases h

/-- What some values make of an operator table when all of them register something. -/
structure Overrides (values : List String) (earlier later : OperatorTable) : Prop where
  /-- A character has the precedence that the last value for it gives. -/
  last : ∀ front value behind c precedence, values = front ++ value :: behind →
    Registers c precedence value → (∀ other ∈ behind, ∀ p, ¬Registers c p other) →
      later.get? c = some precedence
  /-- A character for which there is no value is mapped to what it was mapped to before. -/
  others : ∀ c, (∀ value ∈ values, ∀ p, ¬Registers c p value) → later.get? c = earlier.get? c

/-- A value in front of others counts unless one of them is for the same character. -/
theorem Overrides.cons {values : List String} {earlier later : OperatorTable} {value : String}
    {c : Char} {precedence : Int32} (hvalue : Registers c precedence value)
    (h : Overrides values (earlier.insert c precedence) later) :
    Overrides (value :: values) earlier later := by
  constructor
  · intro front other behind d p hvalues hother hbehind
    cases front with
    | nil =>
      obtain ⟨rfl, rfl⟩ := List.cons.inj hvalues
      obtain ⟨rfl, rfl⟩ := hvalue.unique hother
      rw [h.others c hbehind, OperatorTable.get?_insert, if_pos rfl]
    | cons first front =>
      obtain ⟨rfl, rfl⟩ := List.cons.inj hvalues
      exact h.last front other behind d p rfl hother hbehind
  · intro d hnone
    obtain ⟨hfirst, hnone⟩ := List.forall_mem_cons.1 hnone
    have hne : d ≠ c := by
      rintro rfl
      exact hfirst precedence hvalue
    rw [h.others d hnone, OperatorTable.get?_insert, if_neg hne]

/-- Values that all register something are registered, and override the table. -/
theorem exists_registerValues {values : List String}
    (h : ∀ value ∈ values, ∃ c precedence, Registers c precedence value) (config : Config) :
    ∃ later, registerValues config values = .ok ⟨later, config.maxDepth⟩ ∧
      Overrides values config.operators later := by
  induction values generalizing config with
  | nil =>
    refine ⟨config.operators, rfl, ⟨fun front value behind c precedence h => ?_, fun _ _ => rfl⟩⟩
    cases front <;> cases h
  | cons value values ih =>
    obtain ⟨⟨c, precedence, hvalue⟩, hvalues⟩ := List.forall_mem_cons.1 h
    obtain ⟨later, hlater, hoverrides⟩ :=
      ih hvalues { config with operators := config.operators.insert c precedence }
    refine ⟨later, ?_, hoverrides.cons hvalue⟩
    rw [registerValues, hvalue.registerValue_eq]
    exact hlater

/-- The first invalid value is why the registration fails, whatever the values behind it are. -/
theorem registerValues_of_invalid {front : List String} {value : String} {failure : Failure}
    (hfront : ∀ earlier ∈ front, ∃ c precedence, Registers c precedence earlier)
    (hvalue : Invalid failure value) (behind : List String) (config : Config) :
    registerValues config (front ++ value :: behind) = .error failure := by
  induction front generalizing config with
  | nil => rw [List.nil_append, registerValues, hvalue.registerValue_eq]
  | cons first front ih =>
    obtain ⟨⟨c, precedence, hfirst⟩, hfront⟩ := List.forall_mem_cons.1 hfront
    rw [List.cons_append, registerValues, hfirst.registerValue_eq]
    exact ih hfront _

/-- Among values of which one is invalid there is a first such value. -/
theorem exists_first_invalid {values : List String}
    (h : ∃ value ∈ values, ∃ failure, Invalid failure value) :
    ∃ front value behind failure, values = front ++ value :: behind ∧
      (∀ earlier ∈ front, ∃ c precedence, Registers c precedence earlier) ∧
      Invalid failure value := by
  induction values with
  | nil =>
    obtain ⟨value, hmem, _⟩ := h
    cases hmem
  | cons first values ih =>
    rcases registers_or_invalid first with hfirst | ⟨failure, hinvalid⟩
    · have hrest : ∃ value ∈ values, ∃ failure, Invalid failure value := by
        obtain ⟨value, hmem, failure, hinvalid⟩ := h
        rcases List.mem_cons.1 hmem with rfl | hmem
        · obtain ⟨c, precedence, hregisters⟩ := hfirst
          exact absurd hregisters hinvalid.not_registers
        · exact ⟨value, hmem, failure, hinvalid⟩
      obtain ⟨front, value, behind, failure, rfl, hfront, hinvalid⟩ := ih hrest
      exact ⟨first :: front, value, behind, failure, rfl,
        List.forall_mem_cons.2 ⟨hfirst, hfront⟩, hinvalid⟩
    · exact ⟨[], first, values, failure, rfl, List.forall_mem_nil _, hinvalid⟩

/-- The depth limit that a value gives, or the standard one where there is no value. -/
inductive IsDepth : Option String → Nat → Prop where
  /-- There is no value. -/
  | standard : IsDepth none 128
  /-- The value is a natural number of the range of depth limits. -/
  | given {value : String} {depth : Nat} (hnatural : Integer.IsNatural depth value.toList)
    (hle : depth ≤ greatestDepth) : IsDepth (some value) depth

/-- The depth limit is set to what the value gives. -/
theorem IsDepth.limitDepth_eq {value? : Option String} {depth : Nat} (h : IsDepth value? depth)
    (table : OperatorTable) :
    limitDepth ⟨table, Config.standardDepth⟩ value? = .ok ⟨table, depth⟩ := by
  cases h with
  | standard => rfl
  | given hnatural hle => rw [limitDepth, hnatural.readNatural_eq hle]

/-- Where there is no depth limit there is a value, with a fault for which it is refused. -/
theorem exists_badDepth {value? : Option String} (h : ∀ depth, ¬IsDepth value? depth) :
    ∃ value fault, value? = some value ∧
      Integer.NotNatural greatestDepth value.toList fault ∧
      ∀ config, limitDepth config value? = .error (.badDepth fault) := by
  cases value? with
  | none => exact absurd .standard (h 128)
  | some value =>
    rcases Integer.isNatural_or_notNatural greatestDepth value.toList with
      ⟨depth, hnatural, hle⟩ | ⟨fault, hfault⟩
    · exact absurd (.given hnatural hle) (h depth)
    · refine ⟨value, fault, rfl, hfault, fun config => ?_⟩
      rw [limitDepth, hfault.readNatural_eq]

namespace Host

variable {host : Host} {arguments : List String}

/-- Whether arguments lead to a failure before there is any input: the plan is settled, and the
program prints nothing, whatever the standard input and the files are. -/
structure Fails (host : Host) (arguments : List String) (failure : Failure) : Prop where
  /-- Nothing remains to be done. -/
  plan_eq : host.plan arguments = .done ⟨1, "", .failure failure⟩
  /-- The program says the failure and nothing else. -/
  run_eq : ∀ openFile verbosity standardInput,
    Host.run ⟨host.request, openFile⟩ arguments verbosity standardInput =
      ⟨1, "", .failure failure⟩

/-- Options that make no configuration lead to a failure. -/
theorem fails_of_config {options : Options} {failure : Failure}
    (harguments : host.request arguments = .ok (.run options))
    (hconfig : options.config = .error failure) : host.Fails arguments failure := by
  have hplan : ∀ openFile, Host.plan ⟨host.request, openFile⟩ arguments =
      .done ⟨1, "", .failure failure⟩ := by
    intro openFile
    rw [plan, harguments, Plan.ofRequest, hconfig]
    rfl
  refine ⟨hplan host.openFile, fun openFile verbosity standardInput => ?_⟩
  rw [run, hplan]

/-- A run of which the file cannot be opened fails for that, whatever the standard input is. -/
theorem run_of_unopened {job : Job} {path : String} {fault : OpenFault}
    (hplan : host.plan arguments = .job job) (hfile : job.file? = some path)
    (hopen : host.openFile path = .error fault) (verbosity : Verbosity)
    (standardInput : List InputEvent) :
    host.run arguments verbosity standardInput = ⟨1, "", .failure (.unopened path fault)⟩ := by
  rw [run, hplan]
  dsimp only
  rw [hfile]
  dsimp only
  rw [hopen]
  rfl

end Host

/-- Whatever operator values, depth limit and file are asked for, there are arguments that ask for
them when arguments are taken from left to right. However arguments are understood and files are
found, for all arguments that ask for them: If an operator value is invalid, the program fails on
account of the first one that is. If none is, but the depth limit is no natural number of its range,
the program fails for that. Otherwise there is a table in which the last value for a character
counts, and the characters for which there is none are mapped as in the standard table. If there is
a file that cannot be opened, the program fails for that, and otherwise it runs under this table and
this depth limit. A failure comes before there is any input, and nothing is printed. -/
theorem run_of_settings (options : Options) :
    (∃ arguments, Request.ofArguments arguments = .ok (.run options)) ∧
    ∀ (host : Host) (arguments : List String), host.request arguments = .ok (.run options) →
      ((∃ value ∈ options.operators, ∃ failure, Invalid failure value) →
        ∃ front value behind failure, options.operators = front ++ value :: behind ∧
          (∀ earlier ∈ front, ∀ other, ¬Invalid other earlier) ∧ Invalid failure value ∧
          host.Fails arguments failure) ∧
      ((∀ value ∈ options.operators, ∀ failure, ¬Invalid failure value) →
        ((∀ depth, ¬IsDepth options.maxDepth? depth) →
          ∃ value fault, options.maxDepth? = some value ∧
            Integer.NotNatural greatestDepth value.toList fault ∧
            host.Fails arguments (.badDepth fault)) ∧
        ∀ depth, IsDepth options.maxDepth? depth →
          ∃ table, Overrides options.operators .standard table ∧
            host.plan arguments = .job ⟨⟨table, depth⟩, options.print, options.file?⟩ ∧
            (∀ path fault, options.file? = some path → host.openFile path = .error fault →
              ∀ verbosity standardInput, host.run arguments verbosity standardInput =
                ⟨1, "", .failure (.unopened path fault)⟩) ∧
            ∀ verbosity standardInput input, options.input host standardInput = .ok input →
              host.run arguments verbosity standardInput =
                Job.execute ⟨⟨table, depth⟩, options.print, options.file?⟩ verbosity input) := by
  refine ⟨⟨options.arguments, ofArguments_arguments options⟩, fun host arguments harguments =>
    ⟨fun hinvalid => ?_, fun hvalid => ?_⟩⟩
  · obtain ⟨front, value, behind, failure, hsplit, hfront, hvalue⟩ :=
      exists_first_invalid hinvalid
    refine ⟨front, value, behind, failure, hsplit, fun earlier hmem other hother => ?_, hvalue,
      Host.fails_of_config harguments ?_⟩
    · obtain ⟨c, precedence, hregisters⟩ := hfront earlier hmem
      exact hother.not_registers hregisters
    · rw [Options.config, hsplit, registerValues_of_invalid hfront hvalue]
  · have hregisters : ∀ value ∈ options.operators,
        ∃ c precedence, Registers c precedence value := by
      intro value hmem
      rcases registers_or_invalid value with hregisters | ⟨failure, hinvalid⟩
      · exact hregisters
      · exact absurd hinvalid (hvalid value hmem failure)
    obtain ⟨table, htable, hoverrides⟩ := exists_registerValues hregisters Config.standard
    refine ⟨fun hnone => ?_, fun depth hdepth => ⟨table, hoverrides, ?_⟩⟩
    · obtain ⟨value, fault, hvalue, hfault, hlimit⟩ := exists_badDepth hnone
      refine ⟨value, fault, hvalue, hfault, Host.fails_of_config harguments ?_⟩
      rw [Options.config, htable]
      exact hlimit _
    · have hconfig : options.config = .ok ⟨table, depth⟩ := by
        rw [Options.config, htable]
        exact hdepth.limitDepth_eq table
      have hplan := host.plan_of_config harguments hconfig
      refine ⟨hplan, fun path fault hfile hopen verbosity standardInput => ?_,
        fun verbosity standardInput input hinput => ?_⟩
      · exact host.run_of_unopened hplan hfile hopen verbosity standardInput
      · exact host.run_of_input hplan hinput verbosity

/-- Two invalid values behind a valid one, a depth limit that is no number, and a file that does not
exist: the first invalid value is what the program fails for. With two values for one character and
a depth limit with a sign, the last value counts, and the depth limit is set. -/
theorem run_of_settings_of_percent :
    let host := Host.ofFolder ⟨[]⟩
    let refused := ["-o", "%=40", "-o", "|=x", "-o", "ab=1", "--max-depth", "z", "missing"]
    let accepted := ["-o", "%=40", "-o", "%= 7", "--max-depth", "+9"]
    host.request refused =
        .ok (.run ⟨false, ["%=40", "|=x", "ab=1"], some "z", some "missing"⟩) ∧
      host.Fails refused (.badPrecedence .invalidDigit) ∧
      host.request accepted = .ok (.run ⟨false, ["%=40", "%= 7"], some "+9", none⟩) ∧
      ∃ table : OperatorTable, table.get? '%' = some 7 ∧
        table.get? '+' = OperatorTable.standard.get? '+' ∧
        host.plan accepted = .job ⟨⟨table, 9⟩, false, none⟩ := by
  intro host refused accepted
  have hrefused : host.request refused =
      .ok (.run ⟨false, ["%=40", "|=x", "ab=1"], some "z", some "missing"⟩) := by cbv
  have haccepted : host.request accepted =
      .ok (.run ⟨false, ["%=40", "%= 7"], some "+9", none⟩) := by cbv
  refine ⟨hrefused, ?_, haccepted, ?_⟩
  · obtain ⟨_, hrun⟩ := run_of_settings ⟨false, ["%=40", "|=x", "ab=1"], some "z", some "missing"⟩
    have hinvalid : Invalid (.notOneCharacter "ab") "ab=1" :=
      @Invalid.notOneCharacter ['a', 'b'] ['1'] (by decide) (by decide)
    obtain ⟨_, _, _, failure, _, _, _, hfails⟩ :=
      (hrun host refused hrefused).1 ⟨"ab=1", by decide, _, hinvalid⟩
    have hplan : host.plan refused =
        .done ⟨1, "", .failure (.badPrecedence .invalidDigit)⟩ := by cbv
    rw [hfails.plan_eq] at hplan
    cases hplan
    exact hfails
  · obtain ⟨_, hrun⟩ := run_of_settings ⟨false, ["%=40", "%= 7"], some "+9", none⟩
    have hfirst : Registers '%' 40 "%=40" :=
      @registers_of_registerValue _ _ _ .standard _ (by decide) rfl
    have hlast : Registers '%' 7 "%= 7" :=
      @registers_of_registerValue _ _ _ .standard _ (by decide) rfl
    have hvalid : ∀ value ∈ ["%=40", "%= 7"], ∀ failure, ¬Invalid failure value := by
      simp only [List.forall_mem_cons]
      exact ⟨fun _ h => h.not_registers hfirst, fun _ h => h.not_registers hlast,
        List.forall_mem_nil _⟩
    have hnatural : Integer.IsNatural 9 ['+', '9'] :=
      .plus ⟨by decide, List.forall_mem_singleton.2 rfl, rfl⟩
    have hdepth : IsDepth (some "+9") 9 := .given hnatural (by rw [greatestDepth]; omega)
    obtain ⟨table, hoverrides, hplan, _⟩ := ((hrun host accepted haccepted).2 hvalid).2 9 hdepth
    refine ⟨table, hoverrides.last ["%=40"] _ [] '%' 7 rfl hlast (List.forall_mem_nil _),
      hoverrides.others '+' ?_, hplan⟩
    simp only [List.forall_mem_cons]
    exact ⟨fun _ h => absurd (h.unique hfirst).1 (by decide),
      fun _ h => absurd (h.unique hlast).1 (by decide), List.forall_mem_nil _⟩

end Kaleidoscope.CommandLine

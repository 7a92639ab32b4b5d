import Kaleidoscope.CommandLine.Program
import Kaleidoscope.Proofs.Arguments
import Kaleidoscope.Proofs.Classes
import Kaleidoscope.Proofs.Cutting
import Kaleidoscope.Proofs.Number.Integer

/-!
# Values of operator options

The value of an operator option names a character in front of its first equals sign, and a
precedence behind it, with white space around that. It is invalid for the first of several reasons,
and registers the operator otherwise. The main statement is that every operator that may be
registered can be asked for by such a value, in any spelling of its precedence, with the exception
of the equals sign: no value names it, since there is nothing in front of the first one.
-/

namespace Kaleidoscope.CommandLine

/-- Whether a text is what another one is without the white space around it. -/
inductive IsTrimmed (trimmed : List Char) : List Char → Prop where
  /-- White space in front of it and behind it belongs to the other one only. -/
  | intro {before behind : List Char} (hbefore : ∀ c ∈ before, Unicode.isWhiteSpace c = true)
    (hbehind : ∀ c ∈ behind, Unicode.isWhiteSpace c = true)
    (hfirst : Stops Unicode.isWhiteSpace trimmed)
    (hlast : Stops Unicode.isWhiteSpace trimmed.reverse) :
    IsTrimmed trimmed (before ++ (trimmed ++ behind))

/-- Trimming leaves a text without the white space around it. -/
theorem IsTrimmed.trim_eq {trimmed text : List Char} (h : IsTrimmed trimmed text) :
    trim text = trimmed := by
  obtain ⟨hbefore, hbehind, hfirst, hlast⟩ := h
  rename_i before behind
  have hreverse : ∀ c ∈ behind.reverse, Unicode.isWhiteSpace c = true :=
    fun c hc => hbehind c (List.mem_reverse.1 hc)
  rw [trim, List.dropWhile_append_of_pos hbefore]
  cases trimmed with
  | nil =>
    rw [List.nil_append, List.dropWhile_eq_nil_iff.2 hbehind]
    rfl
  | cons c rest =>
    rw [List.cons_append, List.dropWhile_cons_of_neg (Bool.eq_false_iff.1 (hfirst c rfl)),
      ← List.cons_append, List.reverse_append, (hlast.takeWhile_and_dropWhile hreverse).2,
      List.reverse_reverse]

/-- A text that trimming leaves is without the white space around it. -/
theorem isTrimmed_trim (text : List Char) : IsTrimmed (trim text) text := by
  have hfront := List.takeWhile_append_dropWhile (p := Unicode.isWhiteSpace) (l := text)
  have hstops := stops_dropWhile Unicode.isWhiteSpace text
  have htrim : trim text =
      ((text.dropWhile Unicode.isWhiteSpace).reverse.dropWhile Unicode.isWhiteSpace).reverse := rfl
  generalize text.dropWhile Unicode.isWhiteSpace = rest at *
  have hrest : trim text ++ (rest.reverse.takeWhile Unicode.isWhiteSpace).reverse = rest := by
    rw [htrim, ← List.reverse_append, List.takeWhile_append_dropWhile, List.reverse_reverse]
  have hfirst : Stops Unicode.isWhiteSpace (trim text) := by
    intro c hc
    apply hstops c
    rw [← hrest, List.head?_append, hc]
    rfl
  have hlast : Stops Unicode.isWhiteSpace (trim text).reverse := by
    rw [htrim, List.reverse_reverse]
    exact stops_dropWhile _ _
  have hbehind : ∀ c ∈ (rest.reverse.takeWhile Unicode.isWhiteSpace).reverse,
      Unicode.isWhiteSpace c = true := fun c hc => List.mem_takeWhile_imp (List.mem_reverse.1 hc)
  have hbefore : ∀ c ∈ text.takeWhile Unicode.isWhiteSpace, Unicode.isWhiteSpace c = true :=
    fun c hc => List.mem_takeWhile_imp hc
  have hwhole := IsTrimmed.intro hbefore hbehind hfirst hlast
  rwa [hrest, hfront] at hwhole

/-- There is no white space in an integer. -/
theorem isWhiteSpace_of_isInteger {number : Int} {text : List Char}
    (h : Integer.IsInteger number text) : ∀ c ∈ text, Unicode.isWhiteSpace c = false := by
  have hdigits : ∀ {digits : List Char} {number : Nat}, Integer.Spells digits number →
      ∀ c ∈ digits, Unicode.isWhiteSpace c = false := by
    intro digits number h c hc
    have hpart : Numeral.isPart c = true := by
      rw [Numeral.isPart, h.isDigit c hc, Bool.true_or]
    exact (Numeral.classes_of_isPart hpart).1
  cases h with
  | natural hnatural =>
    cases hnatural with
    | bare h => exact hdigits h
    | plus h => exact List.forall_mem_cons.2 ⟨by decide, hdigits h⟩
  | minus h => exact List.forall_mem_cons.2 ⟨by decide, hdigits h⟩

/-- An integer is what is left without the white space around it. -/
theorem isTrimmed_of_isInteger {number : Int} {before text behind : List Char}
    (h : Integer.IsInteger number text) (hbefore : ∀ c ∈ before, Unicode.isWhiteSpace c = true)
    (hbehind : ∀ c ∈ behind, Unicode.isWhiteSpace c = true) :
    IsTrimmed text (before ++ (text ++ behind)) := by
  have htext := isWhiteSpace_of_isInteger h
  refine .intro hbefore hbehind (fun c hc => htext c (List.mem_of_mem_head? hc)) fun c hc => ?_
  exact htext c (List.mem_reverse.1 (List.mem_of_mem_head? hc))

/-- A value with an operator in front of its first equals sign, and a text behind it. -/
def valueOf (c : Char) (right : List Char) : String := String.ofList (c :: '=' :: right)

/-- Whether a value names an operator and its precedence. -/
inductive Names (c : Char) (precedence : Int32) : String → Prop where
  /-- The two stand on the two sides of the first equals sign. -/
  | intro {right text : List Char} (hc : c ≠ '=') (htrimmed : IsTrimmed text right)
    (hinteger : Integer.IsInteger precedence.toInt text) : Names c precedence (valueOf c right)

/-- Whether a value registers an operator with a precedence. -/
structure Registers (c : Char) (precedence : Int32) (value : String) : Prop where
  /-- The value names the operator and the precedence. -/
  names : Names c precedence value
  /-- The character may be an operator. -/
  isOperatorCharacter : Config.isOperatorCharacter c = true
  /-- The precedence is positive. -/
  pos : 0 < precedence

/-- Why a value is invalid. -/
inductive Invalid : Failure → String → Prop where
  /-- There is no equals sign in it. -/
  | noPrecedence {value : String} (hvalue : '=' ∉ value.toList) :
    Invalid (.noPrecedence value) value
  /-- What stands in front of the first equals sign is not one character. -/
  | notOneCharacter {left right : List Char} (hleft : '=' ∉ left) (hlength : left.length ≠ 1) :
    Invalid (.notOneCharacter (String.ofList left)) (String.ofList (left ++ '=' :: right))
  /-- What stands behind the first equals sign is no integer of the range of precedences. -/
  | badPrecedence {c : Char} {right text : List Char} {fault : Integer.Fault} (hc : c ≠ '=')
    (htrimmed : IsTrimmed text right)
    (hfault : Integer.NotInteger greatestPrecedence text fault) :
    Invalid (.badPrecedence fault) (valueOf c right)
  /-- The character may not be an operator. -/
  | reserved {c : Char} {precedence : Int32} {value : String} (hnames : Names c precedence value)
    (hc : Config.isOperatorCharacter c = false) :
    Invalid (.refusedOperator (.reservedCharacter c)) value
  /-- The character may be an operator, but the precedence is not positive. -/
  | nonPositive {c : Char} {precedence : Int32} {value : String}
    (hnames : Names c precedence value) (hc : Config.isOperatorCharacter c = true)
    (hle : precedence ≤ 0) :
    Invalid (.refusedOperator (.nonPositivePrecedence c precedence)) value

section Reading

variable {c : Char} {precedence : Int32} {value : String} {failure : Failure}

/-- A value is split at its first equals sign. -/
theorem split_ofList {left : List Char} (hleft : '=' ∉ left) (right : List Char) :
    (String.ofList (left ++ '=' :: right)).toList.takeWhile (fun c => decide (c ≠ '=')) = left ∧
      (String.ofList (left ++ '=' :: right)).toList.dropWhile (fun c => decide (c ≠ '=')) =
        '=' :: right := by
  have hfront : ∀ c ∈ left, decide (c ≠ '=') = true :=
    fun c hc => decide_eq_true fun heq => hleft (heq ▸ hc)
  have hback : Stops (fun c => decide (c ≠ '=')) ('=' :: right) := stops_cons rfl right
  rw [String.toList_ofList]
  exact hback.takeWhile_and_dropWhile hfront

/-- Behind an operator the precedence is read. -/
theorem readOperator_valueOf (hc : c ≠ '=') (right : List Char) :
    readOperator (valueOf c right) =
      (readPrecedence right).map fun precedence => (c, precedence) := by
  have hleft : '=' ∉ [c] := List.not_mem_cons_of_ne_of_not_mem hc.symm List.not_mem_nil
  obtain ⟨htake, hdrop⟩ := split_ofList hleft right
  change readOperator (String.ofList ([c] ++ '=' :: right)) = _
  rw [readOperator, htake, hdrop]

/-- What is not one character is refused. -/
theorem readOperator_of_length {left : List Char} (hleft : '=' ∉ left) (hlength : left.length ≠ 1)
    (right : List Char) :
    readOperator (String.ofList (left ++ '=' :: right)) =
      .error (.notOneCharacter (String.ofList left)) := by
  obtain ⟨htake, hdrop⟩ := split_ofList hleft right
  rw [readOperator, htake, hdrop]
  dsimp only
  split
  · exact absurd rfl hlength
  · rfl

/-- What a value names is read. -/
theorem Names.readOperator_eq (h : Names c precedence value) :
    readOperator value = .ok (c, precedence) := by
  obtain ⟨hc, htrimmed, hinteger⟩ := h
  have hlow := precedence.le_toInt
  have hhigh := precedence.toInt_lt
  have hread := @Integer.IsInteger.readSigned_eq greatestPrecedence _ _ hinteger
    (by rw [greatestPrecedence]; omega) (by rw [greatestPrecedence]; omega)
  rw [readOperator_valueOf hc, readPrecedence, htrimmed.trim_eq, hread]
  dsimp only
  rw [Int32.ofInt_toInt]
  rfl

/-- A value that registers an operator adds it to the table, and changes nothing else. -/
theorem Registers.registerValue_eq (h : Registers c precedence value) (config : Config) :
    registerValue config value =
      .ok { config with operators := config.operators.insert c precedence } := by
  rw [registerValue, h.names.readOperator_eq]
  dsimp only
  rw [Config.register, h.isOperatorCharacter, if_neg (Int32.not_le.2 h.pos)]
  rfl

/-- An invalid value is refused, whatever has been registered before. -/
theorem Invalid.registerValue_eq (h : Invalid failure value) (config : Config) :
    registerValue config value = .error failure := by
  cases h with
  | noPrecedence hvalue =>
    have hdrop : value.toList.dropWhile (fun c => decide (c ≠ '=')) = [] := by
      refine List.dropWhile_eq_nil_iff.2 fun c hc => decide_eq_true ?_
      rintro rfl
      exact hvalue hc
    rw [registerValue, readOperator, hdrop]
  | notOneCharacter hleft hlength =>
    rw [registerValue, readOperator_of_length hleft hlength]
  | badPrecedence hc htrimmed hfault =>
    rw [registerValue, readOperator_valueOf hc, readPrecedence, htrimmed.trim_eq,
      hfault.readSigned_eq]
    rfl
  | reserved hnames hc =>
    rw [registerValue, hnames.readOperator_eq]
    dsimp only
    rw [Config.register, hc]
    rfl
  | nonPositive hnames hc hle =>
    rw [registerValue, hnames.readOperator_eq]
    dsimp only
    rw [Config.register, hc, if_pos hle]
    rfl

/-- Every value registers an operator or is invalid. -/
theorem registers_or_invalid (value : String) :
    (∃ c precedence, Registers c precedence value) ∨ ∃ failure, Invalid failure value := by
  by_cases hvalue : '=' ∈ value.toList
  · obtain ⟨left, right, hchars, hleft⟩ := List.eq_append_cons_of_mem hvalue
    have hstring : value = String.ofList (left ++ '=' :: right) := by
      rw [← hchars, String.ofList_toList]
    by_cases hlength : left.length = 1
    · obtain ⟨c, rfl⟩ := List.length_eq_one_iff.1 hlength
      have hc : c ≠ '=' := fun heq => hleft (heq ▸ List.mem_singleton_self c)
      have hvalueOf : value = valueOf c right := hstring
      have htrimmed := isTrimmed_trim right
      rcases Integer.isInteger_or_notInteger greatestPrecedence (trim right) with
        ⟨number, hinteger, hlow, hhigh⟩ | ⟨fault, hfault⟩
      · rw [greatestPrecedence] at hlow hhigh
        have hnumber : (Int32.ofInt number).toInt = number :=
          Int32.toInt_ofInt_of_le (by omega) (by omega)
        have hnames : Names c (Int32.ofInt number) value := by
          rw [hvalueOf]
          exact .intro hc htrimmed (hnumber.symm ▸ hinteger)
        cases hoperator : Config.isOperatorCharacter c with
        | false => exact .inr ⟨_, .reserved hnames hoperator⟩
        | true =>
          by_cases hpos : Int32.ofInt number ≤ 0
          · exact .inr ⟨_, .nonPositive hnames hoperator hpos⟩
          · exact .inl ⟨c, _, hnames, hoperator, Int32.not_le.1 hpos⟩
      · rw [hvalueOf]
        exact .inr ⟨_, .badPrecedence hc htrimmed hfault⟩
    · rw [hstring]
      exact .inr ⟨_, .notOneCharacter hleft hlength⟩
  · exact .inr ⟨_, .noPrecedence hvalue⟩

/-- No value names the equals sign. -/
theorem Names.ne (h : Names c precedence value) : c ≠ '=' := by
  obtain ⟨hc, _, _⟩ := h
  exact hc

/-- The equals sign keeps what it was mapped to, whatever value is registered. -/
theorem get?_registerValue {config later : Config} (h : registerValue config value = .ok later) :
    later.operators.get? '=' = config.operators.get? '=' := by
  rcases registers_or_invalid value with ⟨c, precedence, hregisters⟩ | ⟨failure, hinvalid⟩
  · rw [hregisters.registerValue_eq] at h
    cases h
    rw [OperatorTable.get?_insert, if_neg hregisters.names.ne.symm]
  · rw [hinvalid.registerValue_eq] at h
    cases h

/-- The equals sign keeps what it was mapped to, whatever values are registered. -/
theorem get?_registerValues {config later : Config} {values : List String}
    (h : registerValues config values = .ok later) :
    later.operators.get? '=' = config.operators.get? '=' := by
  induction values generalizing config with
  | nil =>
    cases h
    rfl
  | cons value values ih =>
    rw [registerValues] at h
    cases hfirst : registerValue config value with
    | error failure =>
      rw [hfirst] at h
      cases h
    | ok middle =>
      rw [hfirst] at h
      exact (ih h).trans (get?_registerValue hfirst)

/-- The depth limit leaves the operators as they are. -/
theorem operators_limitDepth {config later : Config} {value? : Option String}
    (h : limitDepth config value? = .ok later) : later.operators = config.operators := by
  unfold limitDepth at h
  split at h
  · cases h
    rfl
  · split at h
    · cases h
      rfl
    · cases h

/-- Nothing that arguments can ask for makes the equals sign an operator. -/
theorem get?_of_job {request : Except UsageError Request} {job : Job}
    (h : Plan.ofRequest request = .job job) : job.config.operators.get? '=' = none := by
  unfold Plan.ofRequest at h
  split at h
  · cases h
  · cases h
  · cases h
  · split at h
    · cases h
    · next options _ config hconfig =>
      cases h
      unfold Options.config at hconfig
      split at hconfig
      · next middle hmiddle =>
        rw [operators_limitDepth hconfig, get?_registerValues hmiddle]
        rfl
      · cases hconfig

end Reading

/-- Whatever character may be registered as an operator, and however a positive precedence is
spelled, with or without a plus sign, with zeros in front and with white space around it: The value
that has the two on both sides of an equals sign is read as these two if and only if the character
is not the equals sign itself. In that case it maps the character to the precedence, whatever that
was mapped to before, and changes nothing else, and some arguments ask for a run with this operator.
The equals sign is refused because there is nothing in front of the first one, and no arguments at
all ask for a run in which it is an operator. -/
theorem readOperator_spelled {c : Char} (hc : Config.isOperatorCharacter c = true)
    {precedence : Int32} (hpos : 0 < precedence) {before text behind : List Char}
    (htext : Integer.IsInteger precedence.toInt text)
    (hbefore : ∀ d ∈ before, Unicode.isWhiteSpace d = true)
    (hbehind : ∀ d ∈ behind, Unicode.isWhiteSpace d = true) :
    let value := valueOf c (before ++ (text ++ behind))
    (readOperator value = .ok (c, precedence) ↔ c ≠ '=') ∧
    (c ≠ '=' →
      (∀ config : Config, ∃ later, registerValue config value = .ok ⟨later, config.maxDepth⟩ ∧
        ∀ d, later.get? d = if d = c then some precedence else config.operators.get? d) ∧
      ∃ arguments later,
        Plan.ofArguments arguments = .job ⟨⟨later, Config.standardDepth⟩, false, none⟩ ∧
        ∀ d, later.get? d = if d = c then some precedence else OperatorTable.standard.get? d) ∧
    (c = '=' → readOperator value = .error (.notOneCharacter "")) ∧
    ∀ arguments job, Plan.ofArguments arguments = .job job →
      job.config.operators.get? '=' = none := by
  intro value
  have hregisters : c ≠ '=' → Registers c precedence value := fun hne =>
    ⟨.intro hne (isTrimmed_of_isInteger htext hbefore hbehind) htext, hc, hpos⟩
  have hequals : c = '=' → readOperator value = .error (.notOneCharacter "") := by
    rintro rfl
    exact @readOperator_of_length [] List.not_mem_nil (by decide) _
  refine ⟨⟨fun hread heq => ?_, fun hne => (hregisters hne).names.readOperator_eq⟩,
    fun hne => ⟨fun config => ⟨_, (hregisters hne).registerValue_eq config,
      fun d => OperatorTable.get?_insert config.operators c d precedence⟩, ?_⟩,
    hequals, fun arguments job h => get?_of_job h⟩
  · rw [hequals heq] at hread
    cases hread
  · refine ⟨Options.arguments ⟨false, [value], none, none⟩,
      OperatorTable.standard.insert c precedence, ?_,
      fun d => OperatorTable.get?_insert _ c d precedence⟩
    rw [Plan.ofArguments, ofArguments_arguments, Plan.ofRequest, Options.config, registerValues,
      (hregisters hne).registerValue_eq]
    rfl

/-- The percent sign is named by a precedence with a plus sign, a zero in front, and white space of
two kinds. -/
theorem readOperator_spelled_of_percent :
    Config.isOperatorCharacter '%' = true ∧ (0 : Int32) < 40 ∧
      Integer.IsInteger (Int32.toInt 40) ['+', '0', '4', '0'] ∧
      (∀ d ∈ [' '], Unicode.isWhiteSpace d = true) ∧
      (∀ d ∈ ['\u3000', '\t'], Unicode.isWhiteSpace d = true) ∧
      valueOf '%' ([' '] ++ (['+', '0', '4', '0'] ++ ['\u3000', '\t'])) = "%= +040\u3000\t" ∧
      readOperator "%= +040\u3000\t" = .ok ('%', 40) := by
  have hc : Config.isOperatorCharacter '%' = true := by decide
  have hpos : (0 : Int32) < 40 := by decide
  have htext : Integer.IsInteger (Int32.toInt 40) ['+', '0', '4', '0'] :=
    @Integer.IsInteger.natural 40 _ (.plus ⟨by decide, List.all_eq_true.1 rfl, by decide⟩)
  have hbefore : ∀ d ∈ [' '], Unicode.isWhiteSpace d = true := List.all_eq_true.1 rfl
  have hbehind : ∀ d ∈ ['\u3000', '\t'], Unicode.isWhiteSpace d = true := List.all_eq_true.1 rfl
  have hvalue : valueOf '%' ([' '] ++ (['+', '0', '4', '0'] ++ ['\u3000', '\t'])) =
      "%= +040\u3000\t" := by decide
  obtain ⟨hread, _⟩ := readOperator_spelled hc hpos htext hbefore hbehind
  rw [hvalue] at hread
  exact ⟨hc, hpos, htext, hbefore, hbehind, hvalue, hread.2 (by decide)⟩

/-- The equals sign may be registered, but no value names it: the one that has it in front of an
equals sign is refused, and the program fails. -/
theorem readOperator_of_equals_sign :
    Config.isOperatorCharacter '=' = true ∧ (0 : Int32) < 5 ∧
      Integer.IsInteger (Int32.toInt 5) ['5'] ∧ valueOf '=' ['5'] = "==5" ∧
      readOperator "==5" = .error (.notOneCharacter "") ∧
      readOperator "==5" ≠ .ok ('=', 5) ∧
      (run ["-o", "==5"] .standard [] ⟨[]⟩).exitCode = 1 := by
  have hrefused : readOperator "==5" = .error (.notOneCharacter "") := by decide
  have htext : Integer.IsInteger (Int32.toInt 5) ['5'] :=
    @Integer.IsInteger.natural 5 _ (.bare ⟨by decide, List.all_eq_true.1 rfl, by decide⟩)
  refine ⟨by decide, by decide, htext, by decide, hrefused, ?_, by decide +kernel⟩
  rw [hrefused]
  exact nofun

end Kaleidoscope.CommandLine

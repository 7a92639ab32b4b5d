import Kaleidoscope.Proofs.Grammar.Parsed

/-!
# Reading printed forms again

Printed forms with semicolons between them are a program of the grammar whose forms are separated.
So they are read again, as the same forms, as long as no text has more parentheses inside one
another than the limit admits. The forms that a text has can always be written. The main statements
are the exact condition under which printing is undone by reading, for forms that can be written and
for the forms of a text.
-/

namespace Kaleidoscope

variable {config : Config}

namespace Form

/-- Forms as they are printed, with a semicolon between each two. -/
def printedProgram : List Form → Grammar.Program
  | [] => []
  | [form] => [.item form.printed]
  | form :: others => .item form.printed :: .separator :: printedProgram others

/-- The texts of forms, with a semicolon and a line feed between each two. -/
def printAll : List Form → List Char
  | [] => []
  | [form] => form.print
  | form :: others => form.print ++ ';' :: '\n' :: printAll others

/-- Printed forms lex to the tokens of the program. -/
theorem lexes_printAll (hregistrable : config.Registrable) {forms : List Form}
    (h : ∀ form ∈ forms, form.WellFormed config.operators) :
    Lexes (printAll forms) (printedProgram forms).tokens := by
  fun_induction printedProgram forms with
  | case1 => exact .nil
  | case2 form =>
    have hall := lexes_print hregistrable (h form List.mem_cons_self) breaks_nil .nil
    rw [List.append_nil] at hall
    rw [Grammar.Program.tokens_item]
    exact hall
  | case3 form others hne ih =>
    have hothers := ih fun other hmem => h other (List.mem_cons_of_mem _ hmem)
    have hlines := Lexes.blank (by decide : Unicode.isWhiteSpace '\n' = true) hothers
    obtain ⟨hend, hseparator⟩ := Lexes.mark (by decide : isMark ';' = true) hlines
    have hall := lexes_print hregistrable (h form List.mem_cons_self) hend hseparator
    rw [printAll, Grammar.Program.tokens_item, Grammar.Program.tokens_separator]
    · exact hall
    · exact hne

/-- The forms of the program of printed forms are the forms. -/
theorem forms_printedProgram {table : OperatorTable} {forms : List Form}
    (h : ∀ form ∈ forms, form.WellFormed table) : (printedProgram forms).forms table = forms := by
  fun_induction printedProgram forms with
  | case1 => rfl
  | case2 form =>
    have hform := form_printed (h form List.mem_cons_self)
    exact congrArg (fun form => [form]) hform
  | case3 form others hne ih =>
    have hform := form_printed (h form List.mem_cons_self)
    have hothers := ih fun other hmem => h other (List.mem_cons_of_mem _ hmem)
    exact congrArg₂ List.cons hform hothers

/-- The forms of the program of printed forms stand apart. -/
theorem separated_printedProgram (forms : List Form) : (printedProgram forms).Separated := by
  fun_induction printedProgram forms with
  | case1 => trivial
  | case2 form => exact ⟨fun _ => Token.noConfusion, trivial⟩
  | case3 form others hne ih =>
    refine ⟨fun _ => ?_, ih⟩
    rw [Grammar.Program.tokens_separator]
    exact fun h => by cases h

/-- The forms that stand in the program of printed forms are those that are printed. -/
theorem mem_printedProgram {item : Grammar.Item} {forms : List Form} :
    Grammar.Entry.item item ∈ printedProgram forms ↔ ∃ form ∈ forms, form.printed = item := by
  fun_induction printedProgram forms with
  | case1 => simp only [List.not_mem_nil, false_and, exists_false]
  | case2 form =>
    simp only [List.mem_singleton, Grammar.Entry.item.injEq, exists_eq_left]
    exact eq_comm
  | case3 form others hne ih =>
    simp only [List.mem_cons, Grammar.Entry.item.injEq, reduceCtorEq, false_or, ih,
      exists_eq_or_imp]
    rw [eq_comm]

/-- The program of printed forms is admitted if and only if the texts of all of them fit. -/
theorem admitted_printedProgram {forms : List Form}
    (h : ∀ form ∈ forms, form.WellFormed config.operators) :
    (printedProgram forms).Admitted config ↔ ∀ form ∈ forms, form.Fits config.maxDepth := by
  constructor
  · intro hadmitted form hmem
    have hitem := hadmitted _ (mem_printedProgram.2 ⟨form, hmem, rfl⟩)
    exact (nesting_printed_le (h form hmem) _).1 hitem.nesting
  · intro hfits item hmem
    obtain ⟨form, hform, rfl⟩ := mem_printedProgram.1 hmem
    exact ⟨valid_printed (h form hform), (nesting_printed_le (h form hform) _).2 (hfits form hform)⟩

/-- The texts of forms with a semicolon and a line feed between each two. -/
theorem toList_intercalate (forms : List Form) :
    (";\n".intercalate (forms.map text)).toList = printAll forms := by
  fun_induction printAll forms with
  | case1 => rfl
  | case2 form =>
    rw [List.map_singleton, String.intercalate_singleton]
    exact String.toList_ofList
  | case3 form others hne ih =>
    have hne' : others.map text ≠ [] := fun h => hne (List.map_eq_nil_iff.1 h)
    rw [List.map_cons, String.intercalate_cons_of_ne_nil hne', String.toList_append,
      String.toList_append, ih, text, String.toList_ofList, List.append_assoc]
    rfl

/-- Printed forms are read again, as the same forms, if and only if the texts of all fit; otherwise
the error is that expressions nest too deep. -/
theorem readForms_printed (hregistrable : config.Registrable) {forms : List Form}
    (h : ∀ form ∈ forms, form.WellFormed config.operators) :
    (ofStringUnder config (";\n".intercalate (forms.map text)) = .ok forms ↔
        ∀ form ∈ forms, form.Fits config.maxDepth) ∧
      ((¬∀ form ∈ forms, form.Fits config.maxDepth) → ∃ position,
        ofStringUnder config (";\n".intercalate (forms.map text)) =
          .error (.nestingTooDeep config.maxDepth position)) := by
  have hlexes := lexes_printAll hregistrable h
  rw [← toList_intercalate] at hlexes
  have hdelivers := Feed.delivers_ofString (";\n".intercalate (forms.map text))
  rw [hlexes.ofString] at hdelivers
  have hvalid : ∀ item, Grammar.Entry.item item ∈ printedProgram forms →
      item.Valid config.operators := by
    intro item hmem
    obtain ⟨form, hform, rfl⟩ := mem_printedProgram.1 hmem
    exact valid_printed (h form hform)
  have hread := Grammar.Program.readForms_of_separated hregistrable.keepsPunctuation
    (separated_printedProgram forms) hvalid hdelivers []
  rw [admitted_printedProgram h, forms_printedProgram h] at hread
  obtain ⟨hok, herror⟩ := hread
  refine ⟨⟨fun hforms => ?_, hok⟩, herror⟩
  by_contra hfits
  obtain ⟨position, hresult⟩ := herror hfits
  change ofStringUnder _ _ = _ at hresult
  rw [hforms] at hresult
  cases hresult

/-- The text of a form that can be written is read as this form and nothing else if and only if it
is the declaration of an external function, or its parentheses and the expression around them are no
more than the limit admits; otherwise the error names the limit. So it is with the texts of several
forms that have a semicolon between each two. -/
theorem ofStringUnder_text (hregistrable : config.Registrable) :
    (∀ form : Form, form.WellFormed config.operators →
      (ofStringUnder config form.text = .ok [form] ↔ form.Fits config.maxDepth) ∧
        (¬form.Fits config.maxDepth → ∃ position,
          ofStringUnder config form.text = .error (.nestingTooDeep config.maxDepth position))) ∧
    ∀ forms : List Form, (∀ form ∈ forms, form.WellFormed config.operators) →
      (ofStringUnder config (";\n".intercalate (forms.map text)) = .ok forms ↔
          ∀ form ∈ forms, form.Fits config.maxDepth) ∧
        ((¬∀ form ∈ forms, form.Fits config.maxDepth) → ∃ position,
          ofStringUnder config (";\n".intercalate (forms.map text)) =
            .error (.nestingTooDeep config.maxDepth position)) := by
  refine ⟨fun form hform => ?_, fun forms hforms => readForms_printed hregistrable hforms⟩
  have hforms : ∀ other ∈ [form], other.WellFormed config.operators := by
    intro other hmem
    rw [List.mem_singleton.1 hmem]
    exact hform
  have hone := readForms_printed hregistrable hforms
  rw [List.map_singleton, String.intercalate_singleton, List.forall_mem_singleton] at hone
  exact hone

/-- The text `f(x, (y + g()))` needs a limit of three. -/
theorem ofStringUnder_text_of_call :
    let form : Form :=
      .function (.anonymous
        (.call "f" [.reference "x", .binary '+' (.reference "y") (.call "g" [])]))
    ofStringUnder ⟨.standard, 3⟩ form.text = .ok [form] ∧ ∃ position,
      ofStringUnder ⟨.standard, 2⟩ form.text = .error (.nestingTooDeep 2 position) := by
  intro form
  have hform : form.WellFormed .standard := by
    refine ⟨.inl rfl, @isName_singleton 'f' (by decide), @isName_singleton 'x' (by decide),
      ⟨⟨20, rfl⟩, ?_⟩, trivial⟩
    exact ⟨@isName_singleton 'y' (by decide), @isName_singleton 'g' (by decide), trivial⟩
  have hregistrable : ∀ limit, Config.Registrable ⟨.standard, limit⟩ :=
    fun limit c precedence h => Config.registrable_standard c precedence h
  have hextra : 1 + (Function.body (.anonymous (.call "f" [.reference "x",
      .binary '+' (.reference "y") (.call "g" [])]))).extra = 3 := rfl
  refine ⟨(((ofStringUnder_text (hregistrable 3)).1 form hform).1).2 (Nat.le_of_eq hextra), ?_⟩
  refine ((ofStringUnder_text (hregistrable 2)).1 form hform).2 fun hfits => ?_
  change 1 + _ ≤ 2 at hfits
  omega

end Form

namespace Expr

/-- The expression that is the number one. -/
def one : Expr := .number (Numeral.value ['1'])

/-- One and a number of further ones, added up from the left. -/
def sumOfOnes : Nat → Expr
  | 0 => one
  | count + 1 => .binary '+' (sumOfOnes count) one

/-- Every further one puts a pair of parentheses around the text. -/
theorem extra_sumOfOnes (count : Nat) : (sumOfOnes count).extra = count := by
  induction count with
  | zero => rfl
  | succ count ih =>
    have hone : one.extra = 0 := rfl
    rw [sumOfOnes, extra, ih, hone, Nat.max_zero, Nat.add_comm]

/-- The text of the sum fits if the parentheses and the expression around them do. -/
theorem fits_sumOfOnes (count limit : Nat) :
    Form.Fits limit (.function (.anonymous (sumOfOnes count))) ↔ 1 + count ≤ limit := by
  change 1 + (sumOfOnes count).extra ≤ limit ↔ _
  rw [extra_sumOfOnes]

/-- How a sum of ones may be written without any parentheses. -/
def textOfOnes (count : Nat) : String :=
  String.ofList ('1' :: (List.replicate count ['+', '1']).flatten)

/-- The ones behind the first as they are written. -/
def tailOfOnes : Nat → Grammar.Tail
  | 0 => .done
  | count + 1 => .more '+' (.number (Numeral.value ['1'])) (tailOfOnes count)

/-- The ones behind the first lex to their tokens. -/
theorem lexes_tailOfOnes (count : Nat) :
    Breaks (List.replicate count ['+', '1']).flatten ∧
      Lexes (List.replicate count ['+', '1']).flatten (tailOfOnes count).tokens := by
  induction count with
  | zero => exact ⟨breaks_nil, .nil⟩
  | succ count ih =>
    have hnumeral := Lexes.numeral (List.cons_ne_nil '1' []) (List.all_eq_true.1 rfl) ih.1 ih.2
    exact Lexes.mark (by decide : isMark '+' = true) hnumeral

/-- The ones behind the first have operators of the standard table and do not nest. -/
theorem valid_tailOfOnes (count : Nat) :
    (tailOfOnes count).Valid .standard ∧ (tailOfOnes count).nesting = 0 := by
  induction count with
  | zero => exact ⟨trivial, rfl⟩
  | succ count ih =>
    refine ⟨⟨⟨20, rfl⟩, trivial, ih.1⟩, ?_⟩
    rw [tailOfOnes, Grammar.Tail.nesting, ih.2]
    rfl

/-- The ones behind the first are added up from the left. -/
theorem grouping_tailOfOnes (count : Nat) :
    Link.grouping one ((tailOfOnes count).links .standard) = sumOfOnes count := by
  have hlinks : (tailOfOnes count).links .standard = List.replicate count ⟨'+', 20, one⟩ := by
    induction count with
    | zero => rfl
    | succ count ih =>
      rw [tailOfOnes, Grammar.Tail.links, ih]
      rfl
  have hequal : ∀ link ∈ List.replicate count (⟨'+', 20, one⟩ : Link), link.precedence = 20 := by
    intro link hmem
    rw [List.eq_of_mem_replicate hmem]
  rw [hlinks, Link.grouping_of_equal hequal]
  clear hlinks hequal
  induction count with
  | zero => rfl
  | succ count ih =>
    rw [List.replicate_succ', List.foldl_append, ih]
    rfl

/-- A sum of any number of ones is read. -/
theorem ofString_textOfOnes (count : Nat) :
    Form.ofString (textOfOnes count) = .ok [.function (.anonymous (sumOfOnes count))] := by
  obtain ⟨hbreaks, htail⟩ := lexes_tailOfOnes count
  obtain ⟨hvalid, hnesting⟩ := valid_tailOfOnes count
  let item : Grammar.Item := .expression (.chain (.number (Numeral.value ['1'])) (tailOfOnes count))
  have hitem : item.Admitted .standard := by
    refine ⟨⟨trivial, hvalid⟩, ?_⟩
    change 1 + max 0 (tailOfOnes count).nesting ≤ 128
    omega
  have hform : item.form .standard = .function (.anonymous (sumOfOnes count)) := by
    rw [← grouping_tailOfOnes]
    rfl
  have htokens : Token.ofString (textOfOnes count) = item.tokens := by
    have hlexes := Lexes.numeral (List.cons_ne_nil '1' []) (List.all_eq_true.1 rfl) hbreaks htail
    have htext : (textOfOnes count).toList = ['1'] ++ (List.replicate count ['+', '1']).flatten :=
      String.toList_ofList
    rw [← htext] at hlexes
    exact hlexes.ofString
  rw [← hform]
  exact Grammar.Program.ofStringUnder_of_item Config.registrable_standard.keepsPunctuation hitem
    htokens

end Expr

namespace Form

/-- The texts of the forms of a text, with a semicolon between each two, are read as the same forms
if and only if none of them has more parentheses than the standard limit admits; otherwise the error
names the limit. -/
theorem ofString_intercalate {source : String} {forms : List Form}
    (h : ofString source = .ok forms) :
    (ofString (";\n".intercalate (forms.map text)) = .ok forms ↔
        ∀ form ∈ forms, form.Fits Config.standardDepth) ∧
      ((¬∀ form ∈ forms, form.Fits Config.standardDepth) → ∃ position,
        ofString (";\n".intercalate (forms.map text)) =
          .error (.nestingTooDeep Config.standardDepth position)) := by
  have hforms := wellFormed_of_ofStringUnder Config.registrable_standard h
  exact readForms_printed Config.registrable_standard hforms

/-- The texts of sums of 128 ones are read again. -/
theorem ofString_intercalate_of_128_ones :
    let forms : List Form := [.function (.anonymous (.sumOfOnes 127))]
    ofString (Expr.textOfOnes 127) = .ok forms ∧
      ofString (";\n".intercalate (forms.map text)) = .ok forms := by
  have hread := Expr.ofString_textOfOnes 127
  refine ⟨hread, (ofString_intercalate hread).1.2 fun form hmem => ?_⟩
  rw [List.mem_singleton.1 hmem]
  exact (Expr.fits_sumOfOnes 127 _).2 (Nat.le_refl 128)

/-- A sum of 129 ones is read, and its text is not. -/
theorem ofString_intercalate_of_129_ones :
    let forms : List Form := [.function (.anonymous (.sumOfOnes 128))]
    ofString (Expr.textOfOnes 128) = .ok forms ∧ ∃ position,
      ofString (";\n".intercalate (forms.map text)) = .error (.nestingTooDeep 128 position) := by
  have hread := Expr.ofString_textOfOnes 128
  have hforms := wellFormed_of_ofStringUnder Config.registrable_standard hread
  refine ⟨hread, (readForms_printed Config.registrable_standard hforms).2 fun hfits => ?_⟩
  have hle := (Expr.fits_sumOfOnes 128 128).1 (hfits _ List.mem_cons_self)
  omega

end Form

end Kaleidoscope

import Kaleidoscope.Form.Reading
import Kaleidoscope.Proofs.Machine

/-!
# One machine for forms

A form is read by one machine after another: that of prototypes, that of expressions, or both. Here
is a single machine that does the same, so that what holds of every machine holds of the reading of
forms. The main statement says that it reads what the two machines read together.
-/

namespace Kaleidoscope

namespace FormReader

/-- What a form waits for. -/
inductive State where
  /-- It has not begun. -/
  | start
  /-- A part of its prototype, which a body follows or not. -/
  | prototype (hasBody : Bool) (state : PrototypeReader.State)
  /-- A part of its body; a form without a prototype is nothing else. -/
  | body (prototype? : Option Prototype) (state : ExprReader.State)

/-- What is read in the end. -/
abbrev Result := Except SyntaxError Form

/-- The form with a given body. -/
def finish (prototype? : Option Prototype) (body : Expr) : Form :=
  match prototype? with
  | none => .function (.anonymous body)
  | some prototype => .function ⟨prototype, body⟩

/-- The move inside a body. -/
def atBody (config : Config) (prototype? : Option Prototype) (state : ExprReader.State)
    (lexeme : Lexeme) : Move State Result :=
  match ExprReader.move config state lexeme with
  | .shift next => .shift (.body prototype? next)
  | .stop result => .stop (result.map (finish prototype?))

/-- The move inside a prototype. Where it ends the body begins with the same token. -/
def atPrototype (config : Config) (hasBody : Bool) (state : PrototypeReader.State)
    (lexeme : Lexeme) : Move State Result :=
  match PrototypeReader.move state lexeme with
  | .shift next => .shift (.prototype hasBody next)
  | .stop (.error error) => .stop (.error error)
  | .stop (.ok prototype) =>
    if hasBody then atBody config (some prototype) .initial lexeme
    else .stop (.ok (.external prototype))

/-- The move of the machine. -/
def move (config : Config) (state : State) (lexeme : Lexeme) : Move State Result :=
  match state with
  | .start =>
    match lexeme.token with
    | .definitionWord => .shift (.prototype true .name)
    | .externWord => .shift (.prototype false .name)
    | _ => atBody config none .initial lexeme
  | .prototype hasBody state => atPrototype config hasBody state lexeme
  | .body prototype? state => atBody config prototype? state lexeme

/-- No body goes on with the end of input. -/
theorem atBody_end {config : Config} {prototype? : Option Prototype} {state : ExprReader.State}
    {lexeme : Lexeme} {next : State} (h : atBody config prototype? state lexeme = .shift next) :
    lexeme.token ≠ .endOfInput := by
  unfold atBody at h
  split at h
  · next hmove => exact ExprReader.move_end hmove
  · cases h

/-- The end of input is never used up by the reading of a form. -/
theorem move_end {config : Config} {state next : State} {lexeme : Lexeme}
    (h : move config state lexeme = .shift next) : lexeme.token ≠ .endOfInput := by
  cases state with
  | start =>
    simp only [move] at h
    split at h
    · next htoken => rw [htoken]; exact Token.noConfusion
    · next htoken => rw [htoken]; exact Token.noConfusion
    · exact atBody_end h
  | prototype hasBody state =>
    simp only [move, atPrototype] at h
    split at h
    · next hmove => exact PrototypeReader.move_end hmove
    · cases h
    · split at h
      · exact atBody_end h
      · cases h
  | body prototype? state => exact atBody_end h

/-- The machine that reads a form. -/
def machine (config : Config) : Machine State Result := ⟨move config, move_end⟩

/-- The move of the machine inside a body. -/
theorem move_body (config : Config) (prototype? : Option Prototype) (state : ExprReader.State)
    (lexeme : Lexeme) : (machine config).move (.body prototype? state) lexeme =
      atBody config prototype? state lexeme := rfl

/-- The move of the machine inside a prototype. -/
theorem move_prototype (config : Config) (hasBody : Bool) (state : PrototypeReader.State)
    (lexeme : Lexeme) : (machine config).move (.prototype hasBody state) lexeme =
      atPrototype config hasBody state lexeme := rfl

/-- Where a prototype with a body ends the machine moves as in front of the body. -/
theorem move_of_prototype {config : Config} {state : PrototypeReader.State} {lexeme : Lexeme}
    {prototype : Prototype} (h : PrototypeReader.move state lexeme = .stop (.ok prototype)) :
    (machine config).move (.prototype true state) lexeme =
      (machine config).move (.body (some prototype) .initial) lexeme := by
  rw [move_prototype, atPrototype, h, move_body]
  exact if_pos rfl

/-- A form that begins with neither of the two words is a body. -/
theorem move_of_ne {config : Config} {lexeme : Lexeme}
    (hdefinition : lexeme.token ≠ .definitionWord)
    (hexternal : lexeme.token ≠ .externWord) :
    (machine config).move .start lexeme = (machine config).move (.body none .initial) lexeme := by
  rw [move_body]
  change move config .start lexeme = _
  cases htoken : lexeme.token with
  | definitionWord => exact absurd htoken hdefinition
  | externWord => exact absurd htoken hexternal
  | _ => rw [move, htoken]

end FormReader

namespace Feed

variable {σ : Type}

namespace Outcome

variable {α β γ : Type}

/-- What is made of a reading in two steps is made of it in one. -/
theorem map_map (outcome : Read σ α) (f : α → β) (g : β → γ) :
    (outcome.map f).map g = outcome.map (g ∘ f) := by
  obtain ⟨result, feed⟩ := outcome
  cases result <;> rfl

/-- What is made of the second of two readings is made of both. -/
theorem map_andThen (outcome : Read σ α) (next : α → Feed σ → Read σ β) (f : β → γ) :
    (outcome.andThen next).map f = outcome.andThen fun result feed => (next result feed).map f := by
  obtain ⟨result, feed⟩ := outcome
  cases result <;> rfl

/-- What is made of a reading is a second reading that uses nothing up. -/
theorem map_eq_andThen (outcome : Read σ α) (f : α → β) :
    outcome.map f = outcome.andThen fun result feed => ⟨.ok (f result), feed⟩ := by
  obtain ⟨result, feed⟩ := outcome
  cases result <;> rfl

end Outcome

variable [CharStream σ] {config : Config}

/-- Inside a body the machine of forms reads an expression. -/
theorem drive_body (prototype? : Option Prototype) (state : ExprReader.State) (feed : Feed σ) :
    feed.drive (FormReader.machine config) (.body prototype? state) =
      (feed.drive (ExprReader.machine config) state).map (FormReader.finish prototype?) := by
  fun_induction drive (ExprReader.machine config) state feed with
  | case1 state feed next h ih =>
    change ExprReader.move config state feed.lookahead = _ at h
    have hmove : (FormReader.machine config).move (.body prototype? state) feed.lookahead =
        .shift (.body prototype? next) := by
      rw [FormReader.move_body, FormReader.atBody, h]
    rw [drive_of_shift hmove, ih]
  | case2 state feed result h =>
    change ExprReader.move config state feed.lookahead = _ at h
    have hmove : (FormReader.machine config).move (.body prototype? state) feed.lookahead =
        .stop (result.map (FormReader.finish prototype?)) := by
      rw [FormReader.move_body, FormReader.atBody, h]
    rw [drive_of_stop hmove]
    rfl

/-- What the machine of forms reads inside a prototype: the rest of it, and a body behind it if
there is to be one. -/
theorem drive_prototype (hasBody : Bool) (state : PrototypeReader.State) (feed : Feed σ) :
    feed.drive (FormReader.machine config) (.prototype hasBody state) =
      (feed.drive PrototypeReader.machine state).andThen fun prototype feed =>
        if hasBody then (feed.readExpr config).map (FormReader.finish (some prototype))
        else ⟨.ok (.external prototype), feed⟩ := by
  fun_induction drive PrototypeReader.machine state feed with
  | case1 state feed next h ih =>
    change PrototypeReader.move state feed.lookahead = _ at h
    have hmove : (FormReader.machine config).move (.prototype hasBody state) feed.lookahead =
        .shift (.prototype hasBody next) := by
      rw [FormReader.move_prototype, FormReader.atPrototype, h]
    rw [drive_of_shift hmove, ih]
  | case2 state feed result h =>
    change PrototypeReader.move state feed.lookahead = _ at h
    cases result with
    | error error =>
      have hmove : (FormReader.machine config).move (.prototype hasBody state) feed.lookahead =
          .stop (.error error) := by
        rw [FormReader.move_prototype, FormReader.atPrototype, h]
      rw [drive_of_stop hmove]
      rfl
    | ok prototype =>
      cases hasBody with
      | false =>
        have hmove : (FormReader.machine config).move (.prototype false state) feed.lookahead =
            .stop (.ok (.external prototype)) := by
          rw [FormReader.move_prototype, FormReader.atPrototype, h]
          rfl
        rw [drive_of_stop hmove]
        rfl
      | true =>
        rw [drive_congr (FormReader.move_of_prototype h), drive_body]
        rfl

/-- A form that begins with the lookahead is what the machine of forms reads. -/
theorem readFormHere_eq_drive {feed : Feed σ} (h : feed.lookahead.token ≠ .endOfInput) :
    feed.readFormHere config =
      ⟨some (feed.drive (FormReader.machine config) .start).result,
        (feed.drive (FormReader.machine config) .start).feed⟩ := by
  unfold readFormHere
  split
  · next htoken => exact absurd htoken h
  · next htoken =>
    have hmove : (FormReader.machine config).move .start feed.lookahead =
        .shift (.prototype true .name) := by
      change FormReader.move config .start feed.lookahead = _
      rw [FormReader.move, htoken]
    have hread : (feed.readDefinition config).map Form.function =
        feed.drive (FormReader.machine config) .start := by
      rw [drive_of_shift hmove, drive_prototype, readDefinition, Outcome.map_andThen]
      refine congrArg (feed.advance.readPrototype.andThen ·) ?_
      funext prototype feed
      rw [Outcome.map_map, if_pos rfl]
      rfl
    rw [hread]
  · next htoken =>
    have hmove : (FormReader.machine config).move .start feed.lookahead =
        .shift (.prototype false .name) := by
      change FormReader.move config .start feed.lookahead = _
      rw [FormReader.move, htoken]
    have hread : feed.readExtern.map Form.external =
        feed.drive (FormReader.machine config) .start := by
      rw [drive_of_shift hmove, drive_prototype, readExtern, Outcome.map_eq_andThen]
      rfl
    rw [hread]
  · next hdefinition hexternal =>
    have hmove := @FormReader.move_of_ne config _ hdefinition hexternal
    have hread : (feed.readTopLevelExpr config).map Form.function =
        feed.drive (FormReader.machine config) .start := by
      rw [drive_congr hmove, drive_body, readTopLevelExpr, Outcome.map_map]
      rfl
    rw [hread]

/-- A semicolon in front of a form is passed over. -/
theorem readForm_of_separator {feed : Feed σ} (h : feed.lookahead.token = .character ';') :
    feed.readForm config = feed.advance.readForm config := by
  have hmove : Separators.machine.move () feed.lookahead = .shift () := by
    change Separators.move () feed.lookahead = _
    rw [Separators.move, h]
    rfl
  have hleads : Leads feed [feed.lookahead] feed.advance :=
    .ahead (Separators.machine.token_of_shift hmove) (.here _)
  have hskip : feed.skipSeparators = feed.advance.skipSeparators := by
    rw [skipSeparators, drive_of_leads hleads (Machine.moves_cons_of_shift hmove [])]
    rfl
  rw [readForm, hskip]
  rfl

/-- A token that is no semicolon is the first one of a form, or the end. -/
theorem readForm_of_ne {feed : Feed σ} (h : feed.lookahead.token ≠ .character ';') :
    feed.readForm config = feed.readFormHere config := by
  have hmove : Separators.machine.move () feed.lookahead = .stop () := by
    change Separators.move () feed.lookahead = _
    unfold Separators.move
    split
    · next htoken => exact absurd htoken h
    · rfl
  rw [readForm, skipSeparators, drive_of_stop hmove]

/-- At the end of input there is no form. -/
theorem readForm_of_end {feed : Feed σ} (h : feed.lookahead.token = .endOfInput) :
    feed.readForm config = ⟨none, feed⟩ := by
  have hne : feed.lookahead.token ≠ .character ';' := by
    rw [h]
    exact Token.noConfusion
  rw [readForm_of_ne hne, readFormHere_of_end h]

end Feed

end Kaleidoscope

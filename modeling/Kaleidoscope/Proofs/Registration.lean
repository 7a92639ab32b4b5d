import Kaleidoscope.Proofs.Layout
import Kaleidoscope.Proofs.Operations

/-!
# Registered operators

Only punctuation without another part in the grammar is registered, and only with a positive
precedence. Such a character belongs to no word, to no numeral and to no gap, so that it cuts a text
wherever it stands outside of a comment. The main statement says so of the operators of every
session that begins with the standard ones, whatever has been asked of it, and what a registration
changes.
-/

namespace Kaleidoscope

/-- Whether a character is ASCII punctuation. -/
def IsPunctuation (c : Char) : Prop :=
  (0x21 ≤ c.toNat ∧ c.toNat ≤ 0x2F) ∨ (0x3A ≤ c.toNat ∧ c.toNat ≤ 0x40) ∨
    (0x5B ≤ c.toNat ∧ c.toNat ≤ 0x60) ∨ (0x7B ≤ c.toNat ∧ c.toNat ≤ 0x7E)

instance : DecidablePred IsPunctuation := fun c => by
  unfold IsPunctuation
  infer_instance

/-- A character that may be an operator is punctuation, but none that has another part in the
grammar. -/
theorem isPunctuation_of_isOperatorCharacter {c : Char}
    (h : Config.isOperatorCharacter c = true) :
    IsPunctuation c ∧ c ∉ ['(', ')', ',', ';', '#', '.'] := by
  have hall : ∀ code < 127, Config.isOperatorCharacter (Char.ofNat code) = true →
      IsPunctuation (Char.ofNat code) ∧
        Char.ofNat code ∉ ['(', ')', ',', ';', '#', '.'] := by decide +kernel
  have hc := hall c.toNat (Config.toNat_lt_of_isOperatorCharacter h)
  rw [Char.ofNat_toNat] at hc
  exact hc h

/-- Whether a text ends inside a comment: from the sign of one on, no line ends. -/
def EndsInComment (chars : List Char) : Prop :=
  ∃ front body, chars = front ++ '#' :: body ∧ ∀ c ∈ body, Cursor.isComment c = true

/-- What is put in front of a comment does not end it. -/
theorem EndsInComment.append_left {chars : List Char} (h : EndsInComment chars)
    (before : List Char) : EndsInComment (before ++ chars) := by
  obtain ⟨front, body, rfl, hbody⟩ := h
  exact ⟨before ++ front, body, (List.append_assoc _ _ _).symm, hbody⟩

/-- Two gaps are one, unless the first one ends inside a comment. -/
theorem IsGap.append_of_ended {gap gap' behind : List Char} (h : IsGap gap [])
    (hended : ¬EndsInComment gap) (h' : IsGap gap' behind) : IsGap (gap ++ gap') behind := by
  generalize hnil : ([] : List Char) = front at h
  induction h with
  | nil => exact h'
  | @blank c gap _ hc _ ih =>
    exact blank hc (ih (fun hrest => hended (hrest.append_left [c])) hnil)
  | @comment body gap _ hbody hstops _ ih =>
    subst hnil
    rw [List.cons_append, List.append_assoc]
    refine comment hbody ?_ (ih (fun hrest => hended (hrest.append_left ('#' :: body))) rfl)
    -- Something in the gap ends the comment, since the gap does not end inside it.
    cases gap with
    | nil => exact absurd ⟨[], body, by rw [List.append_nil, List.nil_append], hbody⟩ hended
    | cons c rest => exact stops_cons (hstops c rfl) _

/-- Two divided texts are divided together as they are, when the first one does not end inside a
comment and the second one does not go on with a word or a numeral. -/
theorem Division.Valid.append_of_ended {division other : Division} (h : division.Valid)
    (hended : ¬EndsInComment division.chars) (h' : other.Valid)
    (hword : Stops Cursor.isWordPart other.chars) (hpart : Stops Numeral.isPart other.chars) :
    (division.append other).Valid := by
  induction division with
  | ending gap =>
    cases other with
    | ending gap' => exact IsGap.append_of_ended h hended h'
    | next gap' spelling rest => exact ⟨IsGap.append_of_ended h hended h'.1, h'.2⟩
  | next gap spelling rest ih =>
    obtain ⟨hgap, hfits, hrest⟩ := h
    refine ⟨?_, ?_, ih hrest fun hinside => ?_⟩
    · rw [chars_append, ← List.append_assoc]
      exact hgap.extend_of_ne_nil (List.append_ne_nil_of_left_ne_nil spelling.chars_ne_nil _) _
    · rw [chars_append]
      exact hfits.extend hword hpart
    · rw [chars, ← List.append_assoc] at hended
      exact hended (hinside.append_left (gap ++ spelling.chars))

/-- A mark outside of a comment is a token, and cuts the text there. -/
theorem Token.ofString_append_mark {c : Char} (hc : isMark c = true) {front : String}
    (hended : ¬EndsInComment front.toList) (back : String) :
    ofString (front ++ String.singleton c ++ back) =
      ofString front ++ .character c :: ofString back := by
  simp only [isMark, Bool.and_eq_true, Bool.not_eq_true'] at hc
  obtain ⟨hsymbol, hword⟩ := hc
  obtain ⟨_, _, _, hpart⟩ := classes_of_isSymbol hsymbol
  obtain ⟨before, hbefore, hbeforeChars⟩ := Division.exists_valid front.toList
  obtain ⟨behind, hbehind, hbehindChars⟩ := Division.exists_valid back.toList
  have hmarked : (Division.next [] (.symbol c) behind).Valid := ⟨.nil _, hsymbol, hbehind⟩
  have hchars : (before.append (.next [] (.symbol c) behind)).chars =
      (front ++ String.singleton c ++ back).toList := by
    rw [Division.chars_append, hbeforeChars, String.toList_append, String.toList_append,
      String.toList_singleton, List.append_assoc, ← hbehindChars]
    rfl
  have hvalid : (before.append (.next [] (.symbol c) behind)).Valid := by
    refine hbefore.append_of_ended ?_ hmarked (stops_cons hword _) (stops_cons hpart _)
    rw [hbeforeChars]
    exact hended
  rw [ofString_eq hvalid hchars, ofString_eq hbefore hbeforeChars,
    ofString_eq hbehind hbehindChars, Division.tokens_append]
  rfl

namespace OperatorTable

/-- Whether all entries of a table are such as can be registered. -/
structure Registered (table : OperatorTable) : Prop where
  /-- The characters may be operators. -/
  isOperatorCharacter : ∀ c precedence, table.get? c = some precedence →
    Config.isOperatorCharacter c = true
  /-- The precedences are positive. -/
  pos : ∀ c precedence, table.get? c = some precedence → 0 < precedence

/-- All entries of the standard table can be registered. -/
theorem registered_standard : standard.Registered := by
  have hall : ∀ entry ∈ standard.entries,
      Config.isOperatorCharacter entry.1 = true ∧ 0 < entry.2 := by decide
  have hentry : ∀ c precedence, standard.get? c = some precedence →
      (c, precedence) ∈ standard.entries := by
    intro c precedence h
    obtain ⟨front, back, hentries, _⟩ := List.lookup_eq_some_iff.1 h
    rw [hentries]
    exact List.mem_append_right _ List.mem_cons_self
  exact ⟨fun c precedence h => (hall _ (hentry c precedence h)).1,
    fun c precedence h => (hall _ (hentry c precedence h)).2⟩

variable {table : OperatorTable}

/-- All entries of a table can be registered when one that can be is added or replaced. -/
theorem Registered.insert (h : table.Registered) {c : Char} {precedence : Int32}
    (hc : Config.isOperatorCharacter c = true) (hpos : 0 < precedence) :
    (table.insert c precedence).Registered := by
  constructor
  all_goals
    intro d later hd
    rw [get?_insert] at hd
    split at hd
  · next heq => rwa [heq]
  · exact h.isOperatorCharacter d later hd
  · rwa [← Option.some.inj hd]
  · exact h.pos d later hd

/-- All entries of a table can be registered when one is taken out. -/
theorem Registered.erase (h : table.Registered) (c : Char) : (table.erase c).Registered := by
  constructor
  all_goals
    intro d later hd
    rw [get?_erase] at hd
    split at hd
  · cases hd
  · exact h.isOperatorCharacter d later hd
  · cases hd
  · exact h.pos d later hd

end OperatorTable

namespace Session

variable {σ : Type}

/-- What a registration comes to: the character may not be registered or the precedence is not
positive, and then nothing is changed, or the character gets the precedence. -/
theorem register_cases (session : Session σ) (c : Char) (precedence : Int32) :
    (∃ error, session.register c precedence = ⟨.error error, session⟩ ∧
        ¬(Config.isOperatorCharacter c = true ∧ 0 < precedence)) ∨
      (session.register c precedence =
          ⟨.ok (session.config.operators.get? c), session.feed,
            session.config.operators.insert c precedence, session.config.maxDepth⟩ ∧
        Config.isOperatorCharacter c = true ∧ 0 < precedence) := by
  rw [register, Config.register]
  cases hc : Config.isOperatorCharacter c with
  | false => exact .inl ⟨_, rfl, fun h => Bool.false_ne_true h.1⟩
  | true =>
    by_cases hpos : precedence ≤ 0
    · rw [if_pos hpos]
      exact .inl ⟨_, rfl, fun h => Int32.not_lt.2 hpos h.2⟩
    · rw [if_neg hpos]
      exact .inr ⟨rfl, rfl, Int32.not_le.1 hpos⟩

variable [CharStream σ]

/-- All entries of a table can be registered behind any operation on a session. -/
theorem registered_perform {session : Session σ} (h : session.config.operators.Registered)
    (operation : Operation) : (session.perform operation).config.operators.Registered := by
  cases operation with
  | register c precedence =>
    rcases register_cases session c precedence with ⟨error, hstep, _⟩ | ⟨hstep, hc, hpos⟩
    · rw [perform, hstep]
      exact h
    · rw [perform, hstep]
      exact h.insert hc hpos
  | remove c => exact h.erase c
  | _ => exact h

/-- All entries of a table can be registered behind any number of operations on a session. -/
theorem registered_performAll {session : Session σ} (h : session.config.operators.Registered)
    (operations : List Operation) :
    (session.performAll operations).config.operators.Registered := by
  induction operations generalizing session with
  | nil => exact h
  | cons operation operations ih => exact ih (registered_perform h operation)

/-- Whatever has been asked of a session that began with the standard operators: Every character
in its table is ASCII punctuation without another part in the grammar and has a positive precedence.
A registration that fails changes nothing, and one that does not gives what the character was mapped
to before, maps it to the precedence, and changes nothing else; so does a removal. Wherever a
character of the table is put into a text, not inside a comment, it is a token there, and the texts
on both sides have the tokens that they have by themselves. -/
theorem operators_cut_texts (source : σ) (operations : List Operation) :
    let session := (start source .standard).performAll operations
    let table := session.config.operators
    (∀ c precedence, table.get? c = some precedence →
      IsPunctuation c ∧ c ∉ ['(', ')', ',', ';', '#', '.'] ∧ 0 < precedence) ∧
    (∀ c precedence error, (session.register c precedence).result = .error error →
      (session.register c precedence).session = session) ∧
    (∀ c precedence previous, (session.register c precedence).result = .ok previous →
      previous = table.get? c ∧
      ∃ later, (session.register c precedence).session =
          ⟨session.feed, later, session.config.maxDepth⟩ ∧
        ∀ d, later.get? d = if d = c then some precedence else table.get? d) ∧
    (∀ c, (session.remove c).result = table.get? c ∧
      ∃ later, (session.remove c).session = ⟨session.feed, later, session.config.maxDepth⟩ ∧
        ∀ d, later.get? d = if d = c then none else table.get? d) ∧
    ∀ c precedence, table.get? c = some precedence →
      ∀ front back : String, ¬EndsInComment front.toList →
        Token.ofString (front ++ String.singleton c ++ back) =
          Token.ofString front ++ .character c :: Token.ofString back := by
  intro session table
  have hregistered : table.Registered :=
    registered_performAll OperatorTable.registered_standard operations
  refine ⟨fun c precedence hc => ?_, fun c precedence error herror => ?_,
    fun c precedence previous hprevious => ?_,
    fun c => ⟨rfl, _, rfl, fun d => OperatorTable.get?_erase table c d⟩,
    fun c precedence hc front back hended => ?_⟩
  · obtain ⟨hpunctuation, hother⟩ :=
      isPunctuation_of_isOperatorCharacter (hregistered.isOperatorCharacter c precedence hc)
    exact ⟨hpunctuation, hother, hregistered.pos c precedence hc⟩
  · rcases register_cases session c precedence with ⟨_, hstep, _⟩ | ⟨hstep, _⟩
    · rw [hstep]
    · rw [hstep] at herror
      cases herror
  · rcases register_cases session c precedence with ⟨_, hstep, _⟩ | ⟨hstep, _⟩
    · rw [hstep] at hprevious
      cases hprevious
    · rw [hstep] at hprevious ⊢
      cases hprevious
      exact ⟨rfl, _, rfl, fun d => OperatorTable.get?_insert table c d precedence⟩
  · have hmark := isMark_of_isOperatorCharacter (hregistered.isOperatorCharacter c precedence hc)
    exact Token.ofString_append_mark hmark hended back

end Session

end Kaleidoscope

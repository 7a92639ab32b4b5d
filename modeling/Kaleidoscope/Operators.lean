/-!
# Binary operators

Which characters are binary operators, and how tightly they bind. A table may map any character to
any integer; only a positive one makes an operator. Registration admits the ASCII punctuation that
has no other part in the grammar.
-/

namespace Kaleidoscope

/-- A map from characters to precedences, in the order of the characters. -/
structure OperatorTable where
  /-- The entries, each character once. -/
  entries : List (Char × Int32)

namespace OperatorTable

/-- The table without entries. -/
def empty : OperatorTable := ⟨[]⟩

/-- The operators that are there from the start. -/
def standard : OperatorTable := ⟨[('*', 40), ('+', 20), ('-', 20), ('<', 10)]⟩

/-- The integer that a character is mapped to. -/
def get? (table : OperatorTable) (c : Char) : Option Int32 := table.entries.lookup c

/-- Maps a character in a sorted list of entries, in the place of its earlier entry if any. -/
def insertEntry (c : Char) (precedence : Int32) : List (Char × Int32) → List (Char × Int32)
  | [] => [(c, precedence)]
  | (d, earlier) :: rest =>
    if c = d then (c, precedence) :: rest
    else if c < d then (c, precedence) :: (d, earlier) :: rest
    else (d, earlier) :: insertEntry c precedence rest

/-- Maps a character to an integer. -/
def insert (table : OperatorTable) (c : Char) (precedence : Int32) : OperatorTable :=
  ⟨insertEntry c precedence table.entries⟩

/-- Leaves out the entries of a character. -/
def eraseEntry (c : Char) : List (Char × Int32) → List (Char × Int32)
  | [] => []
  | (d, precedence) :: rest =>
    if c = d then eraseEntry c rest else (d, precedence) :: eraseEntry c rest

/-- Takes a character out of the table. -/
def erase (table : OperatorTable) (c : Char) : OperatorTable :=
  ⟨eraseEntry c table.entries⟩

/-- The precedence of a binary operator. -/
def precedence? (table : OperatorTable) (c : Char) : Option Int32 :=
  (table.get? c).filter fun precedence => decide (0 < precedence)

/-- In a list of entries a character has the integer that it was mapped to last, and every other
character what it had before. -/
theorem lookup_insertEntry (c d : Char) (precedence : Int32) (entries : List (Char × Int32)) :
    (insertEntry c precedence entries).lookup d =
      if d = c then some precedence else entries.lookup d := by
  induction entries with
  | nil =>
    by_cases h : d = c
    · rw [if_pos h, insertEntry, h, List.lookup_cons_self]
    · rw [if_neg h, insertEntry, List.lookup_cons, beq_false_of_ne h]
  | cons entry rest ih =>
    obtain ⟨e, earlier⟩ := entry
    simp only [insertEntry]
    by_cases hce : c = e
    · subst hce
      rw [if_pos rfl]
      by_cases h : d = c
      · rw [if_pos h, h, List.lookup_cons_self]
      · rw [if_neg h, List.lookup_cons, List.lookup_cons, beq_false_of_ne h]
    · rw [if_neg hce]
      by_cases h : d = c
      · subst h
        rw [if_pos rfl] at ih ⊢
        split
        · rw [List.lookup_cons_self]
        · rw [List.lookup_cons, beq_false_of_ne hce]
          exact ih
      · rw [if_neg h]
        rw [if_neg h] at ih
        split
        · rw [List.lookup_cons, beq_false_of_ne h]
        · rw [List.lookup_cons, List.lookup_cons, ih]

/-- A character has the integer that it was mapped to last, and every other character what it had
before. -/
theorem get?_insert (table : OperatorTable) (c d : Char) (precedence : Int32) :
    (table.insert c precedence).get? d = if d = c then some precedence else table.get? d :=
  lookup_insertEntry c d precedence table.entries

/-- In a list of entries a character that has been left out has no integer, and every other
character what it had before. -/
theorem lookup_eraseEntry (c d : Char) (entries : List (Char × Int32)) :
    (eraseEntry c entries).lookup d = if d = c then none else entries.lookup d := by
  induction entries with
  | nil => simp only [eraseEntry, List.lookup_nil, ite_self]
  | cons entry rest ih =>
    obtain ⟨e, precedence⟩ := entry
    simp only [eraseEntry]
    by_cases hce : c = e
    · subst hce
      rw [if_pos rfl, ih, List.lookup_cons]
      by_cases h : d = c
      · rw [if_pos h, if_pos h]
      · rw [if_neg h, if_neg h, beq_false_of_ne h]
    · rw [if_neg hce, List.lookup_cons, List.lookup_cons, ih]
      by_cases h : d = c
      · subst h
        rw [if_pos rfl, beq_false_of_ne hce, if_pos rfl]
      · rw [if_neg h, if_neg h]

/-- A character that has been taken out is mapped to nothing, and every other character to what it
was mapped to before. -/
theorem get?_erase (table : OperatorTable) (c d : Char) :
    (table.erase c).get? d = if d = c then none else table.get? d :=
  lookup_eraseEntry c d table.entries

end OperatorTable

/-- Why a binary operator was not registered. -/
inductive OperatorError where
  /-- The character is no ASCII punctuation, or has another part in the grammar. -/
  | reservedCharacter (c : Char)
  /-- The precedence would make it no operator. -/
  | nonPositivePrecedence (c : Char) (precedence : Int32)
  deriving DecidableEq

/-- The wording of an error. -/
def OperatorError.message : OperatorError → String
  | .reservedCharacter c => s!"'{c}' cannot be used as a binary operator"
  | .nonPositivePrecedence c precedence =>
    s!"precedence of '{c}' must be positive, got {precedence.toInt}"

/-- What the reading of forms depends on besides the text. -/
structure Config where
  /-- The binary operators. -/
  operators : OperatorTable
  /-- The number of expressions that may be open at once, one inside the other. -/
  maxDepth : Nat

namespace Config

/-- The depth limit where none is given. -/
def standardDepth : Nat := 128

/-- The standard operators and the standard depth. -/
def standard : Config := ⟨.standard, standardDepth⟩

instance : Inhabited Config := ⟨standard⟩

/-- Punctuation with a fixed part in the grammar or inside numerals and comments. -/
def reserved : List Char := ['(', ')', ',', ';', '#', '.']

/-- Whether a character may be registered as a binary operator. -/
def isOperatorCharacter (c : Char) : Bool :=
  decide ('!' ≤ c) && decide (c ≤ '~') && !c.isAlphanum && !reserved.contains c

/-- Registers a binary operator. The answer is the integer that the character was mapped to before,
and the configuration after it. -/
def register (config : Config) (c : Char) (precedence : Int32) :
    Except OperatorError (Option Int32 × Config) :=
  if !isOperatorCharacter c then .error (.reservedCharacter c)
  else if precedence ≤ 0 then .error (.nonPositivePrecedence c precedence)
  else .ok (config.operators.get? c,
    { config with operators := config.operators.insert c precedence })

/-- Takes a character out of the operator table. The answer is the integer that it was mapped to
before, and the configuration after it. -/
def remove (config : Config) (c : Char) : Option Int32 × Config :=
  (config.operators.get? c, { config with operators := config.operators.erase c })

end Config

end Kaleidoscope

import Kaleidoscope.Proofs.Utf8.Encoding
import Mathlib.Data.List.Infix

/-!
# What forgiving decoding gives

Which characters some bytes stand for, without a decoder: the encoding of a character stands for it,
and where no encoding begins, the longest run of bytes with which one could have begun, or a single
byte, stands for the replacement character. The main statements say that the decoder gives these
characters, that no others are possible, and that decoding commutes with cutting after a line feed.
-/

namespace Kaleidoscope.Utf8

/-- Whether a character's encoding may begin with some bytes. -/
def Begins (part : List UInt8) : Prop := ∃ c : Char, part <+: String.utf8EncodeChar c

/-- Whether some bytes in front of others are the longest possible that encode nothing. -/
structure IsBroken (part behind : List UInt8) : Prop where
  /-- There are some bytes. -/
  ne_nil : part ≠ []
  /-- No encoding begins where they do. -/
  not_encoding : ∀ c : Char, ¬ String.utf8EncodeChar c <+: part ++ behind
  /-- An encoding may begin with them, or there is one byte. -/
  begins_or_single : Begins part ∨ part.length = 1
  /-- With more bytes than these none may begin. -/
  longest : ∀ more, more ≠ [] → more <+: behind → ¬ Begins (part ++ more)

/-- Whether some bytes stand for some characters. -/
inductive Decodes : List UInt8 → List Char → Prop where
  /-- No byte stands for nothing. -/
  | nil : Decodes [] []
  /-- The encoding of a character stands for it. -/
  | char (c : Char) {bytes : List UInt8} {chars : List Char} (h : Decodes bytes chars) :
    Decodes (String.utf8EncodeChar c ++ bytes) (c :: chars)
  /-- Bytes that encode nothing stand for the replacement character. -/
  | broken {part bytes : List UInt8} {chars : List Char} (hpart : IsBroken part bytes)
    (h : Decodes bytes chars) : Decodes (part ++ bytes) (replacement :: chars)

/-- The states that a decoder reaches on the bytes since the last character. -/
inductive Reaches : List UInt8 → State → Prop where
  /-- It begins between characters. -/
  | ready : Reaches [] .ready
  /-- It goes on inside a character. -/
  | byte {part : List UInt8} {state : State} {byte : UInt8} {bits owed low high : Nat}
    (h : Reaches part state) (htakes : state.Takes byte.toNat)
    (hstep : state.step byte.toNat = ⟨[], .inside bits owed low high⟩) :
    Reaches (part ++ [byte]) (.inside bits owed low high)

namespace Reaches

variable {part : List UInt8} {state : State}

/-- What completes a character behind some bytes is what its encoding goes on with. -/
theorem append_eq_iff (h : Reaches part state) {c : Char} {bytes : List UInt8} :
    part ++ bytes = String.utf8EncodeChar c ↔ state.Completes c bytes := by
  induction h generalizing bytes with
  | ready =>
    refine ⟨fun hbytes => ?_, State.eq_utf8EncodeChar_of_completes⟩
    rw [List.nil_append] at hbytes
    rw [hbytes]
    exact State.completes_utf8EncodeChar c
  | @byte part state byte bits owed low high h htakes hstep ih =>
    rw [List.append_assoc, List.singleton_append, ih]
    simp only [State.Completes, htakes, hstep, true_and, reduceCtorEq, false_and, false_or]

/-- Inside a character some encoding goes on, and none has ended. -/
theorem exists_append_eq (h : Reaches part state) (hne : part ≠ []) :
    ∃ c more, part ++ more = String.utf8EncodeChar c ∧ more ≠ [] := by
  cases h with
  | ready => exact absurd rfl hne
  | @byte part state byte bits owed low high h htakes hstep =>
    have hproper := State.proper_step state byte.toNat
    rw [hstep] at hproper
    obtain ⟨c, more, hmore⟩ := State.exists_completes hproper
    refine ⟨c, more, (Reaches.byte h htakes hstep).append_eq_iff.2 hmore, ?_⟩
    rintro rfl
    cases hmore

/-- No encoding goes on with a byte that is not taken. -/
theorem not_begins (h : Reaches part state) {byte : UInt8} (hbyte : ¬ state.Takes byte.toNat)
    (more : List UInt8) : ¬ Begins (part ++ byte :: more) := by
  rintro ⟨c, rest, hrest⟩
  rw [List.append_assoc, List.cons_append, h.append_eq_iff] at hrest
  exact hbyte hrest.1

/-- Where bytes of a character have been taken and the next one is not, or there is none, those that
have been taken are as many as possible. -/
theorem isBroken (h : Reaches part state) (hne : part ≠ []) {behind : List UInt8}
    (hbehind : ∀ byte more, behind = byte :: more → ¬ state.Takes byte.toNat) :
    IsBroken part behind := by
  obtain ⟨c, more, hmore, hmoreNe⟩ := h.exists_append_eq hne
  have hpart : ∀ d : Char, ¬ String.utf8EncodeChar d <+: part := by
    rintro d ⟨rest, hrest⟩
    rw [← hrest, List.append_assoc] at hmore
    exact hmoreNe (List.append_eq_nil_iff.1 (utf8EncodeChar_append_inj hmore).1).2
  refine ⟨hne, ?_, .inl ⟨c, more, hmore⟩, ?_⟩
  · intro d hinitial
    -- An encoding would end among the bytes that have been taken, or go on with the next one.
    rcases List.prefix_or_prefix_of_prefix hinitial (List.prefix_append part behind) with
      hshort | ⟨front, hfront⟩
    · exact hpart d hshort
    · rw [← hfront, List.prefix_append_right_inj] at hinitial
      cases front with
      | nil =>
        rw [List.append_nil] at hfront
        exact hpart d ⟨[], by rw [List.append_nil, hfront]⟩
      | cons byte front =>
        obtain ⟨rest, hrest⟩ := hinitial
        have hbegins : Begins (part ++ byte :: front) := by
          rw [hfront]
          exact ⟨d, List.prefix_rfl⟩
        exact h.not_begins (hbehind byte _ hrest.symm) front hbegins
  · rintro longer hlonger ⟨rest, hrest⟩
    cases longer with
    | nil => exact absurd rfl hlonger
    | cons byte longer => exact h.not_begins (hbehind byte _ hrest.symm) longer

end Reaches

/-- A byte with which no encoding begins is broken by itself. -/
theorem isBroken_single {byte : UInt8} (h : ¬ State.ready.Takes byte.toNat)
    (behind : List UInt8) : IsBroken [byte] behind := by
  refine ⟨List.cons_ne_nil _ _, ?_, .inr rfl, fun more _ _ => Reaches.ready.not_begins h more⟩
  intro c hinitial
  have hencoding := State.completes_utf8EncodeChar c
  generalize String.utf8EncodeChar c = encoding at hinitial hencoding
  cases encoding with
  | nil => cases hencoding
  | cons first rest =>
    rw [List.singleton_append, List.cons_prefix_cons] at hinitial
    rw [← hinitial.1] at h
    exact h hencoding.1

/-- A byte that is taken ends an encoding, or is one more byte of it. -/
theorem Reaches.decodes_of_takes {part : List UInt8} {state : State} (h : Reaches part state)
    {byte : UInt8} (htakes : state.Takes byte.toNat) {bytes : List UInt8}
    (hbytes : ∀ {part : List UInt8} {state : State}, Reaches part state →
      Decodes (part ++ bytes) (state.decode bytes)) :
    Decodes (part ++ byte :: bytes) (state.decode (byte :: bytes)) := by
  rw [State.decode]
  rcases State.step_of_takes htakes with ⟨c, hstep⟩ | ⟨bits, owed, low, high, hstep⟩
  · have hencoding : part ++ [byte] = String.utf8EncodeChar c := by
      rw [h.append_eq_iff]
      exact ⟨htakes, .inl ⟨by rw [hstep], rfl⟩⟩
    rw [hstep, List.append_cons, hencoding]
    exact .char c (hbytes .ready)
  · rw [hstep, List.append_cons]
    exact hbytes (.byte h htakes hstep)

/-- From every state that is reached the decoder gives what the bytes since the last character and
those to come stand for. -/
theorem Reaches.decodes {part : List UInt8} {state : State} (h : Reaches part state)
    (bytes : List UInt8) : Decodes (part ++ bytes) (state.decode bytes) := by
  induction bytes generalizing part state with
  | nil =>
    cases h with
    | ready => exact .nil
    | byte h htakes hstep =>
      refine .broken ((Reaches.byte h htakes hstep).isBroken ?_ ?_) .nil
      · exact List.append_ne_nil_of_right_ne_nil _ (List.cons_ne_nil _ _)
      · intro first rest hcons
        cases hcons
  | cons byte bytes ih =>
    -- A byte that breaks a character off is a first byte itself, so this case comes first.
    have hready : Decodes (byte :: bytes) (State.ready.decode (byte :: bytes)) := by
      by_cases htakes : State.ready.Takes byte.toNat
      · exact Reaches.ready.decodes_of_takes htakes ih
      · rw [State.decode, State.step_ready_of_not_takes htakes]
        exact .broken (isBroken_single htakes bytes) (ih .ready)
    by_cases htakes : state.Takes byte.toNat
    · exact h.decodes_of_takes htakes ih
    · cases h with
      | ready => exact hready
      | byte h htakes' hstep =>
        rw [State.decode, State.step_inside_of_not_takes htakes]
        refine .broken ((Reaches.byte h htakes' hstep).isBroken ?_ ?_) hready
        · exact List.append_ne_nil_of_right_ne_nil _ (List.cons_ne_nil _ _)
        · intro first rest hcons
          cases hcons
          exact htakes

/-- The decoder gives what the bytes stand for. -/
theorem decodes_decode (bytes : List UInt8) : Decodes bytes (decode bytes) :=
  Reaches.ready.decodes bytes

/-- Bytes that encode nothing, and are as many as possible, are where they are whatever they are
found in. -/
theorem IsBroken.append_inj {part behind part' behind' : List UInt8} (h : IsBroken part behind)
    (h' : IsBroken part' behind') (heq : part ++ behind = part' ++ behind') :
    part = part' ∧ behind = behind' := by
  have hinitial : ∀ {part behind part' behind' : List UInt8}, IsBroken part behind →
      IsBroken part' behind' → part ++ behind = part' ++ behind' → part' <+: part := by
    intro part behind part' behind' h h' heq
    rcases List.append_eq_append_iff.1 heq with ⟨more, rfl, hmore⟩ | ⟨more, rfl, _⟩
    · cases more with
      | nil => exact ⟨[], by rw [List.append_nil, List.append_nil]⟩
      | cons byte more =>
        have hlonger := h.longest (byte :: more) (List.cons_ne_nil _ _) ⟨behind', hmore.symm⟩
        have hlength := h'.begins_or_single.resolve_left hlonger
        have hpos := List.length_pos_iff.2 h.ne_nil
        rw [List.length_append, List.length_cons] at hlength
        omega
    · exact List.prefix_append _ _
  have hpart : part = part' :=
    (hinitial h' h heq.symm).eq_of_length_le (hinitial h h' heq).length_le
  subst hpart
  exact ⟨rfl, List.append_cancel_left heq⟩

/-- Bytes stand for no other characters. -/
theorem Decodes.unique {bytes : List UInt8} {chars chars' : List Char} (h : Decodes bytes chars)
    (h' : Decodes bytes chars') : chars = chars' := by
  generalize hbytes : bytes = bytes' at h'
  induction h generalizing bytes' chars' with
  | nil =>
    cases h' with
    | nil => rfl
    | char c => exact absurd (List.append_eq_nil_iff.1 hbytes.symm).1 (utf8EncodeChar_ne_nil c)
    | broken hpart => exact absurd (List.append_eq_nil_iff.1 hbytes.symm).1 hpart.ne_nil
  | char c _ ih =>
    cases h' with
    | nil => exact absurd (List.append_eq_nil_iff.1 hbytes).1 (utf8EncodeChar_ne_nil c)
    | char d h' =>
      obtain ⟨rfl, rfl⟩ := utf8EncodeChar_append_cancel hbytes
      rw [ih _ rfl h']
    | broken hpart =>
      exact absurd (by rw [← hbytes]; exact List.prefix_append _ _) (hpart.not_encoding c)
  | broken hpart _ ih =>
    cases h' with
    | nil => exact absurd (List.append_eq_nil_iff.1 hbytes).1 hpart.ne_nil
    | char d =>
      exact absurd (by rw [hbytes]; exact List.prefix_append _ _) (hpart.not_encoding d)
    | broken hpart' h' =>
      obtain ⟨rfl, rfl⟩ := hpart.append_inj hpart' hbytes
      rw [ih _ rfl h']

/-- Bytes stand for the characters that the decoder gives, and for no others. -/
theorem decodes_iff {bytes : List UInt8} {chars : List Char} :
    Decodes bytes chars ↔ chars = decode bytes := by
  refine ⟨fun h => h.unique (decodes_decode bytes), ?_⟩
  rintro rfl
  exact decodes_decode bytes

/-- Some bytes stand for some characters. -/
theorem decode_ne_nil {bytes : List UInt8} (h : bytes ≠ []) : decode bytes ≠ [] := by
  intro hnil
  have hdecodes := decodes_decode bytes
  rw [hnil] at hdecodes
  cases hdecodes
  exact h rfl

/-- A line feed ends a character, and is one by itself. -/
theorem State.step_lineFeed {state : State} (h : state.Proper) :
    state.step 10 = ⟨state.flush ++ ['\n'], .ready⟩ := by
  have hready : State.ready.step 10 = ⟨['\n'], .ready⟩ := step_ready_of_one (by decide)
  cases state with
  | ready => exact hready
  | inside bits owed low high =>
    have htakes : ¬ (State.inside bits owed low high).Takes 10 := by
      obtain ⟨hlow, _⟩ := h
      simp only [Takes]
      omega
    rw [step_inside_of_not_takes htakes, hready]
    rfl

/-- Decoding commutes with cutting after a line feed. -/
theorem decode_append_of_lineFeed (front back : List UInt8) :
    decode (front ++ [10] ++ back) = decode (front ++ [10]) ++ decode back := by
  have hstate : ∀ {state : State}, state.Proper →
      state.decode (front ++ [10] ++ back) = state.decode (front ++ [10]) ++ decode back := by
    induction front with
    | nil =>
      intro state h
      have hstep : state.step (10 : UInt8).toNat = ⟨state.flush ++ ['\n'], .ready⟩ :=
        State.step_lineFeed h
      simp only [List.nil_append, List.singleton_append, State.decode, hstep, State.flush,
        List.append_nil, decode]
    | cons byte front ih =>
      intro state _
      simp only [List.cons_append, State.decode]
      rw [ih (State.proper_step state byte.toNat), List.append_assoc]
  exact @hstate .ready trivial

/-- A line feed behind some bytes is decoded to itself. -/
theorem decode_lineFeed (front : List UInt8) : decode (front ++ [10]) = decode front ++ ['\n'] := by
  have hstate : ∀ {state : State}, state.Proper →
      state.decode (front ++ [10]) = state.decode front ++ ['\n'] := by
    induction front with
    | nil =>
      intro state h
      have hstep : state.step (10 : UInt8).toNat = ⟨state.flush ++ ['\n'], .ready⟩ :=
        State.step_lineFeed h
      simp only [List.nil_append, State.decode, hstep, State.flush, List.append_nil]
    | cons byte front ih =>
      intro state _
      simp only [List.cons_append, State.decode]
      rw [ih (State.proper_step state byte.toNat), List.append_assoc]
  exact @hstate .ready trivial

/-- Bytes without a line feed are decoded to characters without one. -/
theorem not_mem_decode {bytes : List UInt8} (h : (10 : UInt8) ∉ bytes) :
    '\n' ∉ decode bytes := by
  have hdecodes := decodes_decode bytes
  generalize decode bytes = chars at hdecodes
  induction hdecodes with
  | nil => exact List.not_mem_nil
  | @char c bytes chars _ ih =>
    rw [List.mem_append, not_or] at h
    rw [List.mem_cons, not_or]
    refine ⟨?_, ih h.2⟩
    rintro rfl
    exact h.1 (by decide)
  | @broken part bytes chars _ _ ih =>
    rw [List.mem_append, not_or] at h
    rw [List.mem_cons, not_or]
    exact ⟨by decide, ih h.2⟩

end Kaleidoscope.Utf8

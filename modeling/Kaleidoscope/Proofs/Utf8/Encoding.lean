import Kaleidoscope.Text.Utf8

/-!
# The encodings of characters

From which bytes the decoder makes a character. A byte goes on from a state or it does not, and the
bytes that go on up to the end of a character are one for each byte that the character owes. The
main statements say that those which go on from between characters are the encoding of the character
that they complete, and that no encoding begins with another one.
-/

namespace Kaleidoscope.Utf8

/-- The values of the bytes that encode a code point. -/
def byteValues (code : Nat) : List Nat :=
  if code ≤ 0x7F then [code]
  else if code ≤ 0x7FF then [code / 64 + 0xC0, code % 64 + 0x80]
  else if code ≤ 0xFFFF then [code / 4096 + 0xE0, code / 64 % 64 + 0x80, code % 64 + 0x80]
  else [code / 262144 + 0xF0, code / 4096 % 64 + 0x80, code / 64 % 64 + 0x80, code % 64 + 0x80]

/-- A code point is no surrogate and not above the last one. -/
theorem toNat_cases (c : Char) : c.toNat < 0xD800 ∨ 0xDFFF < c.toNat ∧ c.toNat < 0x110000 :=
  c.valid

/-- The values of the bytes that encode a character are those of its code point. -/
theorem map_toNat_utf8EncodeChar (c : Char) :
    (String.utf8EncodeChar c).map UInt8.toNat = byteValues c.toNat := by
  have hcode := toNat_cases c
  change (String.utf8EncodeChar c).map UInt8.toNat = byteValues c.val.toNat
  change c.val.toNat < _ ∨ _ < c.val.toNat ∧ c.val.toNat < _ at hcode
  simp only [String.utf8EncodeChar, byteValues]
  generalize c.val.toNat = code at hcode
  -- One case for each number of bytes.
  repeat' split
  all_goals
    simp only [List.map_cons, List.map_nil, UInt8.toNat_ofNat', List.cons.injEq, and_true]
    omega

/-- Bytes with the values of an encoding are that encoding. -/
theorem eq_utf8EncodeChar {bytes : List UInt8} {c : Char}
    (h : bytes.map UInt8.toNat = byteValues c.toNat) : bytes = String.utf8EncodeChar c := by
  rw [← map_toNat_utf8EncodeChar] at h
  exact (List.map_inj_right fun _ _ => UInt8.toNat_inj.1).1 h

namespace State

/-- Whether a byte can go on from a state. -/
def Takes : State → Nat → Prop
  | .ready, byte => byte ≤ 0x7F ∨ 0xC2 ≤ byte ∧ byte ≤ 0xF4
  | .inside _ _ low high, byte => low ≤ byte ∧ byte ≤ high

/-- Whether some bytes go on from a state up to the end of a character. -/
def Completes (c : Char) (state : State) : List UInt8 → Prop
  | [] => False
  | byte :: bytes =>
    state.Takes byte.toNat ∧
      ((state.step byte.toNat).chars = [c] ∧ bytes = [] ∨
        (state.step byte.toNat).chars = [] ∧ (state.step byte.toNat).state.Completes c bytes)

/-- The only byte of a character completes it. -/
theorem step_ready_of_one {byte : Nat} (h : byte ≤ 0x7F) :
    State.ready.step byte = ⟨[Char.ofNat byte], .ready⟩ := if_pos h

/-- The first of two bytes leaves one to come. -/
theorem step_ready_of_two {byte : Nat} (h : 0xC2 ≤ byte ∧ byte ≤ 0xDF) :
    State.ready.step byte = ⟨[], .inside (byte - 0xC0) 0 0x80 0xBF⟩ := by
  simp only [step, first]
  rw [if_neg (by omega), if_neg (by omega), if_pos h.2]

/-- The first of three bytes leaves two to come. After 0xE0 and 0xED fewer bytes may be the second
one. -/
theorem step_ready_of_three {byte : Nat} (h : 0xE0 ≤ byte ∧ byte ≤ 0xEF) :
    State.ready.step byte = ⟨[], .inside (byte - 0xE0) 1 (if byte = 0xE0 then 0xA0 else 0x80)
      (if byte = 0xED then 0x9F else 0xBF)⟩ := by
  simp only [step, first]
  rw [if_neg (by omega), if_neg (by omega), if_neg (by omega)]
  by_cases hleast : byte = 0xE0
  · subst hleast
    rfl
  · rw [if_neg hleast, if_neg hleast]
    by_cases hsurrogate : byte = 0xED
    · subst hsurrogate
      rfl
    · rw [if_neg hsurrogate, if_neg hsurrogate, if_pos h.2]

/-- The first of four bytes leaves three to come. After 0xF0 and 0xF4 fewer bytes may be the second
one. -/
theorem step_ready_of_four {byte : Nat} (h : 0xF0 ≤ byte ∧ byte ≤ 0xF4) :
    State.ready.step byte = ⟨[], .inside (byte - 0xF0) 2 (if byte = 0xF0 then 0x90 else 0x80)
      (if byte = 0xF4 then 0x8F else 0xBF)⟩ := by
  simp only [step, first]
  rw [if_neg (by omega), if_neg (by omega), if_neg (by omega), if_neg (by omega),
    if_neg (by omega), if_neg (by omega)]
  by_cases hleast : byte = 0xF0
  · subst hleast
    rfl
  · rw [if_neg hleast, if_neg hleast]
    by_cases hgreatest : byte = 0xF4
    · subst hgreatest
      rfl
    · rw [if_neg hgreatest, if_neg hgreatest, if_pos (by omega)]

/-- A byte that is taken between characters is the first one of one, two, three or four bytes. -/
theorem takes_ready_cases {byte : Nat} (h : State.ready.Takes byte) :
    byte ≤ 0x7F ∨ (0xC2 ≤ byte ∧ byte ≤ 0xDF) ∨ (0xE0 ≤ byte ∧ byte ≤ 0xEF) ∨
      0xF0 ≤ byte ∧ byte ≤ 0xF4 := by
  simp only [Takes] at h
  omega

/-- A byte that is taken completes a character, or leads further into one. -/
theorem step_of_takes {state : State} {byte : Nat} (h : state.Takes byte) :
    (∃ c, state.step byte = ⟨[c], .ready⟩) ∨
      ∃ bits owed low high, state.step byte = ⟨[], .inside bits owed low high⟩ := by
  cases state with
  | ready =>
    rcases takes_ready_cases h with h | h | h | h
    · exact .inl ⟨_, step_ready_of_one h⟩
    · exact .inr ⟨_, _, _, _, step_ready_of_two h⟩
    · exact .inr ⟨_, _, _, _, step_ready_of_three h⟩
    · exact .inr ⟨_, _, _, _, step_ready_of_four h⟩
  | inside bits owed low high =>
    simp only [Takes] at h
    simp only [step]
    rw [if_pos h]
    cases owed with
    | zero => exact .inl ⟨_, rfl⟩
    | succ owed => exact .inr ⟨_, _, _, _, rfl⟩

/-- Between characters a byte that is not taken is replaced. -/
theorem step_ready_of_not_takes {byte : Nat} (h : ¬ State.ready.Takes byte) :
    State.ready.step byte = ⟨[replacement], .ready⟩ := by
  simp only [Takes, not_or] at h
  simp only [step, first]
  rw [if_neg h.1]
  split
  · rfl
  · repeat' rw [if_neg (by omega)]

/-- Inside a character what came before a byte that is not taken is replaced, and the byte is a
first byte. -/
theorem step_inside_of_not_takes {bits owed low high byte : Nat}
    (h : ¬ (State.inside bits owed low high).Takes byte) :
    (State.inside bits owed low high).step byte =
      ⟨replacement :: (State.ready.step byte).chars, (State.ready.step byte).state⟩ :=
  if_neg h

/-- Whether the range of a state is one of bytes that follow a first one. -/
def Proper : State → Prop
  | .ready => True
  | .inside _ _ low high => 0x80 ≤ low ∧ low ≤ high ∧ high ≤ 0xBF

/-- Every byte leads to a state whose range is one of bytes that follow a first one. -/
theorem proper_step (state : State) (byte : Nat) : (state.step byte).state.Proper := by
  have hfirst : (State.ready.step byte).state.Proper := by
    by_cases h : State.ready.Takes byte
    · rcases takes_ready_cases h with h | h | h | h
      · rw [step_ready_of_one h]
        exact trivial
      · rw [step_ready_of_two h]
        exact ⟨Nat.le_refl _, by decide, Nat.le_refl _⟩
      · rw [step_ready_of_three h]
        simp only [Proper]
        split <;> split <;> omega
      · rw [step_ready_of_four h]
        simp only [Proper]
        split <;> split <;> omega
    · rw [step_ready_of_not_takes h]
      exact trivial
  cases state with
  | ready => exact hfirst
  | inside bits owed low high =>
    by_cases h : (State.inside bits owed low high).Takes byte
    · simp only [Takes] at h
      simp only [step]
      rw [if_pos h]
      cases owed with
      | zero => exact trivial
      | succ owed => exact ⟨Nat.le_refl _, by decide, Nat.le_refl _⟩
    · rw [step_inside_of_not_takes h]
      exact hfirst

/-- What completes a character that lacks one byte is a byte in the range. -/
theorem completes_inside_zero {c : Char} {bits low high : Nat} {bytes : List UInt8} :
    (State.inside bits 0 low high).Completes c bytes ↔
      ∃ byte, bytes = [byte] ∧ (low ≤ byte.toNat ∧ byte.toNat ≤ high) ∧
        Char.ofNat (bits * 64 + (byte.toNat - 0x80)) = c := by
  constructor
  · intro h
    cases bytes with
    | nil => cases h
    | cons byte rest =>
      obtain ⟨hrange, hstep⟩ := h
      simp only [Takes] at hrange
      simp only [step, if_pos hrange, List.cons.injEq, and_true, reduceCtorEq, false_and,
        or_false] at hstep
      obtain ⟨hchar, rfl⟩ := hstep
      exact ⟨byte, rfl, hrange, hchar⟩
  · rintro ⟨byte, rfl, hrange, hchar⟩
    refine ⟨hrange, .inl ⟨?_, rfl⟩⟩
    simp only [step, if_pos hrange, hchar]

/-- What completes a character that lacks more than one byte begins with a byte in the range. -/
theorem completes_inside_succ {c : Char} {bits owed low high : Nat} {bytes : List UInt8} :
    (State.inside bits (owed + 1) low high).Completes c bytes ↔
      ∃ byte rest, bytes = byte :: rest ∧ (low ≤ byte.toNat ∧ byte.toNat ≤ high) ∧
        (State.inside (bits * 64 + (byte.toNat - 0x80)) owed 0x80 0xBF).Completes c rest := by
  constructor
  · intro h
    cases bytes with
    | nil => cases h
    | cons byte rest =>
      obtain ⟨hrange, hstep⟩ := h
      simp only [Takes] at hrange
      simp only [step, if_pos hrange, reduceCtorEq, false_and, true_and, false_or] at hstep
      exact ⟨byte, rest, rfl, hrange, hstep⟩
  · rintro ⟨byte, rest, rfl, hrange, hrest⟩
    refine ⟨hrange, .inr ?_⟩
    simp only [step, if_pos hrange, true_and]
    exact hrest

/-- A character inside which a decoder is can be completed. -/
theorem exists_completes {bits owed low high : Nat}
    (h : (State.inside bits owed low high).Proper) :
    ∃ c bytes, (State.inside bits owed low high).Completes c bytes := by
  obtain ⟨hlow, hrange, hhigh⟩ := h
  have hbyte : (UInt8.ofNat low).toNat = low := by
    rw [UInt8.toNat_ofNat']
    omega
  induction owed generalizing bits low high with
  | zero =>
    refine ⟨_, _, completes_inside_zero.2 ⟨UInt8.ofNat low, rfl, ?_, rfl⟩⟩
    rw [hbyte]
    exact ⟨Nat.le_refl _, hrange⟩
  | succ owed ih =>
    obtain ⟨c, bytes, hbytes⟩ := @ih (bits * 64 + (low - 0x80)) 0x80 0xBF (Nat.le_refl _)
      (by decide) (Nat.le_refl _) rfl
    refine ⟨c, _, completes_inside_succ.2 ⟨UInt8.ofNat low, bytes, rfl, ?_, ?_⟩⟩
    · rw [hbyte]
      exact ⟨Nat.le_refl _, hrange⟩
    · rw [hbyte]
      exact hbytes

/-- What completes a character completes no longer one. -/
theorem Completes.eq_nil {c d : Char} {state : State} {bytes more : List UInt8}
    (h : state.Completes c bytes) (h' : state.Completes d (bytes ++ more)) :
    more = [] ∧ c = d := by
  induction bytes generalizing state with
  | nil => cases h
  | cons byte bytes ih =>
    obtain ⟨_, ⟨hchars, rfl⟩ | ⟨hchars, hrest⟩⟩ := h
    · obtain ⟨_, ⟨hchars', hmore⟩ | ⟨hchars', _⟩⟩ := h'
      · rw [hchars] at hchars'
        cases hchars'
        exact ⟨hmore, rfl⟩
      · rw [hchars] at hchars'
        cases hchars'
    · obtain ⟨_, ⟨hchars', _⟩ | ⟨_, hrest'⟩⟩ := h'
      · rw [hchars] at hchars'
        cases hchars'
      · exact ih hrest hrest'

/-- Between characters a byte that leads into one is completed as the state behind it is. -/
theorem completes_ready_of_step {c : Char} {byte : UInt8} {rest : List UInt8} {state : State}
    (htakes : State.ready.Takes byte.toNat) (hstep : State.ready.step byte.toNat = ⟨[], state⟩) :
    State.ready.Completes c (byte :: rest) ↔ state.Completes c rest := by
  simp only [Completes, htakes, hstep, reduceCtorEq, false_and, true_and, false_or]

/-- An encoding is completed to the character that it encodes. -/
theorem completes_utf8EncodeChar (c : Char) :
    State.ready.Completes c (String.utf8EncodeChar c) := by
  have hcode := toNat_cases c
  have hvalues := map_toNat_utf8EncodeChar c
  have hchar : ∀ {code : Nat}, code = c.toNat → Char.ofNat code = c := by
    rintro code rfl
    exact Char.ofNat_toNat c
  generalize String.utf8EncodeChar c = bytes at hvalues
  simp only [byteValues] at hvalues
  split at hvalues
  · simp only [List.map_eq_cons_iff, List.map_eq_nil_iff] at hvalues
    obtain ⟨first, _, rfl, hfirst, rfl⟩ := hvalues
    have hrange : first.toNat ≤ 0x7F := by omega
    refine ⟨.inl hrange, .inl ⟨?_, rfl⟩⟩
    rw [step_ready_of_one hrange, hchar hfirst]
  · split at hvalues
    · simp only [List.map_eq_cons_iff, List.map_eq_nil_iff] at hvalues
      obtain ⟨first, _, rfl, hfirst, second, _, rfl, hsecond, rfl⟩ := hvalues
      have hrange : 0xC2 ≤ first.toNat ∧ first.toNat ≤ 0xDF := by omega
      rw [completes_ready_of_step (by simp only [Takes]; omega) (step_ready_of_two hrange)]
      refine completes_inside_zero.2 ⟨second, rfl, by omega, hchar ?_⟩
      omega
    · split at hvalues
      · simp only [List.map_eq_cons_iff, List.map_eq_nil_iff] at hvalues
        obtain ⟨first, _, rfl, hfirst, second, _, rfl, hsecond, third, _, rfl, hthird, rfl⟩ :=
          hvalues
        have hrange : 0xE0 ≤ first.toNat ∧ first.toNat ≤ 0xEF := by omega
        rw [completes_ready_of_step (by simp only [Takes]; omega) (step_ready_of_three hrange)]
        refine completes_inside_succ.2 ⟨second, _, rfl, ?_, completes_inside_zero.2
          ⟨third, rfl, by omega, hchar ?_⟩⟩
        · split <;> split <;> omega
        · omega
      · simp only [List.map_eq_cons_iff, List.map_eq_nil_iff] at hvalues
        obtain ⟨first, _, rfl, hfirst, second, _, rfl, hsecond, third, _, rfl, hthird, fourth, _,
          rfl, hfourth, rfl⟩ := hvalues
        have hrange : 0xF0 ≤ first.toNat ∧ first.toNat ≤ 0xF4 := by omega
        rw [completes_ready_of_step (by simp only [Takes]; omega) (step_ready_of_four hrange)]
        refine completes_inside_succ.2 ⟨second, _, rfl, ?_, completes_inside_succ.2
          ⟨third, _, rfl, by omega, completes_inside_zero.2 ⟨fourth, rfl, by omega, hchar ?_⟩⟩⟩
        · split <;> split <;> omega
        · omega

/-- The bytes that complete a character are the encoding of it. -/
theorem eq_utf8EncodeChar_of_completes {c : Char} {bytes : List UInt8}
    (h : State.ready.Completes c bytes) : bytes = String.utf8EncodeChar c := by
  have hcode : ∀ {code : Nat}, Char.ofNat code = c →
      code < 0xD800 ∨ 0xDFFF < code ∧ code < 0x110000 → c.toNat = code := by
    rintro code rfl hvalid
    rw [Char.ofNat, dif_pos hvalid]
    rfl
  apply eq_utf8EncodeChar
  cases bytes with
  | nil => cases h
  | cons first rest =>
    have htakes := h.1
    rcases takes_ready_cases htakes with hrange | hrange | hrange | hrange
    · obtain ⟨_, ⟨hchars, rfl⟩ | ⟨hchars, _⟩⟩ := h
      · rw [step_ready_of_one hrange] at hchars
        rw [hcode (List.cons.inj hchars).1 (by omega), byteValues, if_pos hrange]
        rfl
      · rw [step_ready_of_one hrange] at hchars
        cases hchars
    · rw [completes_ready_of_step htakes (step_ready_of_two hrange)] at h
      obtain ⟨second, rfl, hsecond, hchar⟩ := completes_inside_zero.1 h
      rw [hcode hchar (by omega), byteValues, if_neg (by omega), if_pos (by omega)]
      simp only [List.map_cons, List.map_nil, List.cons.injEq, and_true]
      omega
    · rw [completes_ready_of_step htakes (step_ready_of_three hrange)] at h
      obtain ⟨second, _, rfl, hsecond, h⟩ := completes_inside_succ.1 h
      obtain ⟨third, rfl, hthird, hchar⟩ := completes_inside_zero.1 h
      have hsecond' : (first.toNat = 0xE0 → 0xA0 ≤ second.toNat) ∧
          (first.toNat = 0xED → second.toNat ≤ 0x9F) ∧ 0x80 ≤ second.toNat ∧
            second.toNat ≤ 0xBF := by
        split at hsecond <;> split at hsecond <;> omega
      rw [hcode hchar (by omega), byteValues, if_neg (by omega), if_neg (by omega),
        if_pos (by omega)]
      simp only [List.map_cons, List.map_nil, List.cons.injEq, and_true]
      omega
    · rw [completes_ready_of_step htakes (step_ready_of_four hrange)] at h
      obtain ⟨second, _, rfl, hsecond, h⟩ := completes_inside_succ.1 h
      obtain ⟨third, _, rfl, hthird, h⟩ := completes_inside_succ.1 h
      obtain ⟨fourth, rfl, hfourth, hchar⟩ := completes_inside_zero.1 h
      have hsecond' : (first.toNat = 0xF0 → 0x90 ≤ second.toNat) ∧
          (first.toNat = 0xF4 → second.toNat ≤ 0x8F) ∧ 0x80 ≤ second.toNat ∧
            second.toNat ≤ 0xBF := by
        split at hsecond <;> split at hsecond <;> omega
      rw [hcode hchar (by omega), byteValues, if_neg (by omega), if_neg (by omega),
        if_neg (by omega)]
      simp only [List.map_cons, List.map_nil, List.cons.injEq, and_true]
      omega

end State

/-- No encoding begins with another one. -/
theorem utf8EncodeChar_append_inj {c d : Char} {bytes : List UInt8}
    (h : String.utf8EncodeChar c ++ bytes = String.utf8EncodeChar d) : bytes = [] ∧ c = d := by
  have hcompletes := State.completes_utf8EncodeChar d
  rw [← h] at hcompletes
  exact (State.completes_utf8EncodeChar c).eq_nil hcompletes

/-- Encodings in front of other bytes are where they are whatever they are found in. -/
theorem utf8EncodeChar_append_cancel {c d : Char} {bytes bytes' : List UInt8}
    (h : String.utf8EncodeChar c ++ bytes = String.utf8EncodeChar d ++ bytes') :
    c = d ∧ bytes = bytes' := by
  rcases List.append_eq_append_iff.1 h with ⟨more, hmore, hbytes⟩ | ⟨more, hmore, hbytes⟩
  · obtain ⟨rfl, rfl⟩ := utf8EncodeChar_append_inj hmore.symm
    exact ⟨rfl, hbytes⟩
  · obtain ⟨rfl, rfl⟩ := utf8EncodeChar_append_inj hmore.symm
    exact ⟨rfl, hbytes.symm⟩

/-- No encoding is empty. -/
theorem utf8EncodeChar_ne_nil (c : Char) : String.utf8EncodeChar c ≠ [] := by
  intro hnil
  have hencoding := State.completes_utf8EncodeChar c
  rw [hnil] at hencoding
  cases hencoding

end Kaleidoscope.Utf8

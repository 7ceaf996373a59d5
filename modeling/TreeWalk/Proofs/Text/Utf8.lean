import TreeWalk.Text.Lines
import TreeWalk.Text.Utf8

/-!
The bytes of a text. Decoding them gives the text back, and a text without carriage returns is
left as it is when its line ends are unified.
-/

set_option autoImplicit false

namespace TreeWalk.Text

def charBytes (c : Char) : List Nat := (String.utf8EncodeChar c).map UInt8.toNat

def encodeUtf8 (cs : List Char) : List Nat := cs.flatMap charBytes

/-- Code points leave out the surrogates. -/
theorem toNat_valid (c : Char) : c.toNat < 0xD800 ∨ 0xDFFF < c.toNat ∧ c.toNat < 0x110000 := c.valid

theorem charBytes_eq (c : Char) : charBytes c =
    if c.toNat < 0x80 then [c.toNat]
    else if c.toNat < 0x800 then [c.toNat / 0x40 + 0xC0, c.toNat % 0x40 + 0x80]
    else if c.toNat < 0x10000 then
      [c.toNat / 0x1000 + 0xE0, c.toNat / 0x40 % 0x40 + 0x80, c.toNat % 0x40 + 0x80]
    else [c.toNat / 0x40000 + 0xF0, c.toNat / 0x1000 % 0x40 + 0x80, c.toNat / 0x40 % 0x40 + 0x80,
      c.toNat % 0x40 + 0x80] := by
  have valid := toNat_valid c
  have same : c.val.toNat = c.toNat := rfl
  simp only [charBytes, String.utf8EncodeChar, same]
  by_cases one : c.toNat < 0x80
  · rw [if_pos (by omega), if_pos one]
    simp only [List.map_cons, List.map_nil, UInt8.toNat_ofNat']
    rw [Nat.mod_eq_of_lt (by omega)]
  by_cases two : c.toNat < 0x800
  · rw [if_neg (by omega), if_pos (by omega), if_neg one, if_pos two]
    simp only [List.map_cons, List.map_nil, UInt8.toNat_ofNat']
    congr 1
    · omega
    · congr 1
      omega
  by_cases three : c.toNat < 0x10000
  · rw [if_neg (by omega), if_neg (by omega), if_pos (by omega), if_neg one, if_neg two,
      if_pos three]
    simp only [List.map_cons, List.map_nil, UInt8.toNat_ofNat', List.cons.injEq, and_true]
    omega
  · rw [if_neg (by omega), if_neg (by omega), if_neg (by omega), if_neg one, if_neg two,
      if_neg three]
    simp only [List.map_cons, List.map_nil, UInt8.toNat_ofNat', List.cons.injEq, and_true]
    omega

theorem isContinuation_add {n : Nat} (small : n < 0x40) : isContinuation (n + 0x80) = true := by
  simp only [isContinuation, Bool.and_eq_true, decide_eq_true_eq]
  omega

theorem utf8Head_charBytes (c : Char) (rest : List Nat) :
    ∃ b tail, charBytes c = b :: tail ∧
      utf8Head b (tail ++ rest) = .char c.toNat (tail.length + 1) := by
  have valid := toNat_valid c
  rw [charBytes_eq]
  generalize c.toNat = v at valid
  have low := isContinuation_add (show v % 0x40 < 0x40 by omega)
  have middle := isContinuation_add (show v / 0x40 % 0x40 < 0x40 by omega)
  have high := isContinuation_add (show v / 0x1000 % 0x40 < 0x40 by omega)
  split
  · next one => exact ⟨v, [], rfl, if_pos one⟩
  split
  · refine ⟨_, _, rfl, ?_⟩
    unfold utf8Head
    rw [if_neg (by omega), if_neg (by omega), if_pos (by omega)]
    simp only [List.cons_append, low, if_true, List.length_singleton, Utf8Head.char.injEq, and_true]
    omega
  split
  · refine ⟨_, _, rfl, ?_⟩
    have second : validSecond (v / 0x1000 + 0xE0) (v / 0x40 % 0x40 + 0x80) = true := by
      simp only [validSecond, middle, Bool.true_and]
      split
      · simp only [decide_eq_true_eq]
        omega
      split
      · simp only [decide_eq_true_eq]
        omega
      rw [if_neg (by omega), if_neg (by omega)]
    unfold utf8Head
    rw [if_neg (by omega), if_neg (by omega), if_neg (by omega), if_pos (by omega)]
    simp only [List.cons_append, second, Bool.not_true, Bool.false_eq_true, if_false, low, if_true,
      List.length_cons, List.length_nil, Utf8Head.char.injEq, and_true]
    omega
  · refine ⟨_, _, rfl, ?_⟩
    have second : validSecond (v / 0x40000 + 0xF0) (v / 0x1000 % 0x40 + 0x80) = true := by
      simp only [validSecond, high, Bool.true_and]
      rw [if_neg (by omega), if_neg (by omega)]
      split
      · simp only [decide_eq_true_eq]
        omega
      split
      · simp only [decide_eq_true_eq]
        omega
      rfl
    unfold utf8Head
    rw [if_neg (by omega), if_neg (by omega), if_neg (by omega), if_neg (by omega),
      if_pos (by omega)]
    simp only [List.cons_append, second, middle, Bool.not_true, Bool.false_eq_true, if_false, low,
      if_true, List.length_cons, List.length_nil, Utf8Head.char.injEq, and_true]
    omega

theorem decodeUtf8From_skip (position : Nat) (tail rest : List Nat) :
    decodeUtf8From position tail.length (tail ++ rest) =
      decodeUtf8From (position + tail.length) 0 rest := by
  induction tail generalizing position with
  | nil => rfl
  | cons b tail ih =>
    rw [List.cons_append, List.length_cons, decodeUtf8From, ih, Nat.add_assoc, Nat.add_comm 1]

theorem decodeUtf8From_encodeUtf8 (position : Nat) (cs : List Char) :
    decodeUtf8From position 0 (encodeUtf8 cs) = .ok cs := by
  induction cs generalizing position with
  | nil => rfl
  | cons c cs ih =>
    obtain ⟨b, tail, bytes, head⟩ := utf8Head_charBytes c (encodeUtf8 cs)
    rw [encodeUtf8, List.flatMap_cons, bytes, List.cons_append, ← encodeUtf8, decodeUtf8From, head]
    simp only [Nat.add_sub_cancel, decodeUtf8From_skip, ih, Char.ofNat_toNat]
    rfl

theorem decodeUtf8_encodeUtf8 (cs : List Char) : decodeUtf8 (encodeUtf8 cs) = .ok cs :=
  decodeUtf8From_encodeUtf8 0 cs

theorem unifyNewlines_eq {cs : List Char} (none_inside : '\r' ∉ cs) : unifyNewlines cs = cs := by
  induction cs with
  | nil => rfl
  | cons c cs ih =>
    rw [List.mem_cons, not_or] at none_inside
    rw [unifyNewlines, ih none_inside.2]
    · intro _ same
      exact absurd same.symm none_inside.1
    · intro same
      exact absurd same.symm none_inside.1

end TreeWalk.Text

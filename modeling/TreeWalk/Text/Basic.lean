import TreeWalk.Text.Printable

/-!
Texts of documents and of running programs. A text is a list of code points: characters, and halves
of surrogate pairs that stand alone. No source holds such a half, but the escapes of a document can
write one. It stays in the text until the text is encoded, and UTF-8 has no bytes for it.
-/

set_option autoImplicit false

namespace TreeWalk

inductive CodePoint where
  | char (c : Char)
  /-- Half of a pair, counted from the first one. -/
  | half (n : Fin 0x800)
  deriving DecidableEq, Repr

abbrev Text := List CodePoint

namespace Text

def hexDigit (n : Nat) : Char := Nat.digitChar (n % 16)

def hex : (width : Nat) → Nat → List Char
  | 0, _ => []
  | width + 1, n => hex width (n / 16) ++ [hexDigit n]

end Text

namespace CodePoint

def firstHalf : Nat := 0xD800

def toNat : CodePoint → Nat
  | .char c => c.toNat
  | .half n => firstHalf + n

def isChar : CodePoint → Bool
  | .char _ => true
  | .half _ => false

/-- The code point of a code unit. -/
def ofUnit (n : Nat) : CodePoint :=
  if h : n - firstHalf < 0x800 ∧ firstHalf ≤ n then .half ⟨n - firstHalf, h.1⟩
  else .char (Char.ofNat n)

/-- A half as an escape of four digits. -/
def escape (n : Fin 0x800) : List Char := '\\' :: 'u' :: Text.hex 4 (firstHalf + n)

end CodePoint

namespace Text

def ofChars (cs : List Char) : Text := cs.map .char

@[coe] def ofString (s : String) : Text := ofChars s.toList

instance : Coe String Text := ⟨ofString⟩

/-- Texts that UTF-8 can encode. -/
def encodable (t : Text) : Bool := t.all CodePoint.isChar

/-- A text with its halves as escapes. They are no part of a numeral, nor is a backslash. -/
def escaped (t : Text) : String :=
  String.ofList (t.flatMap fun
    | .char c => [c]
    | .half n => CodePoint.escape n)

/-- The order of texts: that of their code points. -/
def before (a b : Text) : Bool :=
  !List.lex (b.map CodePoint.toNat) (a.map CodePoint.toNat) Nat.blt

@[simp] theorem ofString_inj {s t : String} : (s : Text) = t ↔ s = t := by
  constructor
  · intro same
    have chars : s.toList = t.toList :=
      (List.map_inj_right fun _ _ same => CodePoint.char.inj same).1 same
    exact String.toList_inj.1 chars
  · exact congrArg ofString

@[simp] theorem encodable_append {a b : Text} :
    (a ++ b).encodable = (a.encodable && b.encodable) := List.all_append

@[simp] theorem encodable_ofString (s : String) : (s : Text).encodable = true := by
  simp [encodable, ofString, ofChars, CodePoint.isChar]

@[simp] theorem escaped_ofString (s : String) : (s : Text).escaped = s := by
  simp [escaped, ofString, ofChars, List.flatMap_map]

end Text

end TreeWalk

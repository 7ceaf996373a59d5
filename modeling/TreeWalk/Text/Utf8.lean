/-!
UTF-8. Bytes are decoded from the left; the first sequence that is no character is reported with
its place, its length and the reason.
-/

set_option autoImplicit false

namespace TreeWalk.Text

inductive Utf8Reason where
  | invalidStart
  | invalidContinuation
  | truncated
  deriving DecidableEq, Repr

def Utf8Reason.message : Utf8Reason → String
  | .invalidStart => "invalid start byte"
  | .invalidContinuation => "invalid continuation byte"
  | .truncated => "unexpected end of data"

/-- The first fault of a byte string: its bytes are `first` and `length - 1` more. -/
structure Utf8Fault where
  position : Nat
  length : Nat
  first : Nat
  reason : Utf8Reason
  deriving DecidableEq, Repr

def isContinuation (b : Nat) : Bool := 0x80 ≤ b && b < 0xC0

/-- What the first bytes of a text are: one character and how many bytes it takes, or a fault. -/
inductive Utf8Head where
  | char (code size : Nat)
  | fault (size : Nat) (reason : Utf8Reason)

/-- The second byte of a longer sequence excludes overlong forms, surrogates and what lies beyond
the last code point. -/
def validSecond (b second : Nat) : Bool :=
  isContinuation second &&
    (if b = 0xE0 then 0xA0 ≤ second
      else if b = 0xED then second < 0xA0
      else if b = 0xF0 then 0x90 ≤ second
      else if b = 0xF4 then second < 0x90
      else true)

/-- Reads one sequence that starts with the byte `b`. -/
def utf8Head (b : Nat) (rest : List Nat) : Utf8Head :=
  if b < 0x80 then .char b 1
  else if b < 0xC2 then .fault 1 .invalidStart
  else if b < 0xE0 then
    match rest with
    | [] => .fault 1 .truncated
    | c :: _ =>
      if isContinuation c then .char ((b - 0xC0) * 0x40 + (c - 0x80)) 2
      else .fault 1 .invalidContinuation
  else if b < 0xF0 then
    match rest with
    | [] => .fault 1 .truncated
    | c :: rest =>
      if !validSecond b c then .fault 1 .invalidContinuation
      else
        match rest with
        | [] => .fault 2 .truncated
        | d :: _ =>
          if isContinuation d then
            .char (((b - 0xE0) * 0x40 + (c - 0x80)) * 0x40 + (d - 0x80)) 3
          else .fault 2 .invalidContinuation
  else if b < 0xF5 then
    match rest with
    | [] => .fault 1 .truncated
    | c :: rest =>
      if !validSecond b c then .fault 1 .invalidContinuation
      else
        match rest with
        | [] => .fault 2 .truncated
        | d :: rest =>
          if !isContinuation d then .fault 2 .invalidContinuation
          else
            match rest with
            | [] => .fault 3 .truncated
            | e :: _ =>
              if isContinuation e then
                .char ((((b - 0xF0) * 0x40 + (c - 0x80)) * 0x40 + (d - 0x80)) * 0x40
                  + (e - 0x80)) 4
              else .fault 3 .invalidContinuation
  else .fault 1 .invalidStart

/-- Decodes the bytes from `position` on; `skip` bytes belong to a character already read. -/
def decodeUtf8From (position skip : Nat) : List Nat → Except Utf8Fault (List Char)
  | [] => .ok []
  | b :: rest =>
    match skip with
    | skip + 1 => decodeUtf8From (position + 1) skip rest
    | 0 =>
      match utf8Head b rest with
      | .char code size => do
        let cs ← decodeUtf8From (position + 1) (size - 1) rest
        return Char.ofNat code :: cs
      | .fault size reason => .error ⟨position, size, b, reason⟩

def decodeUtf8 (bytes : List Nat) : Except Utf8Fault (List Char) :=
  decodeUtf8From 0 0 bytes

end TreeWalk.Text

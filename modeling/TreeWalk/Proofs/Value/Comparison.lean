import Mathlib
import TreeWalk.Proofs.Number.Double
import TreeWalk.Value.Operators

/-!
Equality and order. All numbers, doubles and integers alike, have a place in one linear order, but
for what is no number; they are compared by their places. So equality of values is an equivalence
but for what is no number, and the operators of comparison agree with it and with each other.
-/

set_option autoImplicit false

namespace TreeWalk

namespace Number

/-- Only a double can be no number. -/
def isNaN : Number → Bool
  | .double x => x.isNaN
  | .whole _ => false

/-- The places of values: an integer between two ends. -/
abbrev Rank := WithBot (WithTop ℤ)

def Rank.ofUnits (units : ℤ) : Rank := ((units : WithTop ℤ) : WithBot (WithTop ℤ))

theorem Rank.strictMono_ofUnits : StrictMono Rank.ofUnits :=
  WithBot.coe_strictMono.comp WithTop.coe_strictMono

theorem Rank.bot_lt_ofUnits (units : ℤ) : ⊥ < Rank.ofUnits units := WithBot.bot_lt_coe _

theorem Rank.ofUnits_lt_top (units : ℤ) : Rank.ofUnits units < ⊤ :=
  WithBot.coe_lt_coe.2 (WithTop.coe_lt_top units)

/-- The place of a value in the order of all; what is no number has none. -/
def Exact.rank? : Exact → Option Rank
  | .nan => none
  | .negativeInfinity => some ⊥
  | .finite units => some (.ofUnits units)
  | .positiveInfinity => some ⊤

/-- Values are compared by their places. -/
theorem Exact.compare_eq (a b : Exact) :
    a.compare b = a.rank?.bind fun x => b.rank?.map fun y => cmp x y := by
  have ends : (⊥ : Rank) < ⊤ := bot_lt_top
  cases a with
  | nan => rfl
  | negativeInfinity =>
    cases b with
    | nan => rfl
    | negativeInfinity => exact congrArg some (cmp_self_eq_eq _).symm
    | finite v => exact congrArg some ((cmp_eq_lt_iff _ _).2 (Rank.bot_lt_ofUnits v)).symm
    | positiveInfinity => exact congrArg some ((cmp_eq_lt_iff _ _).2 ends).symm
  | finite u =>
    cases b with
    | nan => rfl
    | negativeInfinity => exact congrArg some ((cmp_eq_gt_iff _ _).2 (Rank.bot_lt_ofUnits u)).symm
    | finite v =>
      have same : cmp (Rank.ofUnits u) (Rank.ofUnits v) = Ord.compare u v := by
        rw [Rank.strictMono_ofUnits.cmp_map_eq, cmp_eq_compare]
      exact congrArg some same.symm
    | positiveInfinity => exact congrArg some ((cmp_eq_lt_iff _ _).2 (Rank.ofUnits_lt_top u)).symm
  | positiveInfinity =>
    cases b with
    | nan => rfl
    | negativeInfinity => exact congrArg some ((cmp_eq_gt_iff _ _).2 ends).symm
    | finite v => exact congrArg some ((cmp_eq_gt_iff _ _).2 (Rank.ofUnits_lt_top v)).symm
    | positiveInfinity => exact congrArg some (cmp_self_eq_eq _).symm

def rank? (a : Number) : Option Rank := a.exact.rank?

theorem parts_eq_nan_iff (x : Float) : parts x = .nan ↔ x.isNaN = true := by
  have same : x.isNaN = x.toModel.unpack.isNaN := rfl
  rw [Rounding.parts_eq, same]
  cases x.toModel.unpack <;> simp [Rounding.partsOf, Float.Model.UnpackedFloat.isNaN]

theorem rank?_eq_none_iff (a : Number) : a.rank? = none ↔ a.isNaN = true := by
  cases a with
  | double x =>
    rw [isNaN, ← parts_eq_nan_iff, rank?, exact]
    cases parts x with
    | nan => simp [Parts.exact, Exact.rank?]
    | infinite negative => cases negative <;> simp [Parts.exact, Exact.rank?]
    | finite negative mantissa shift => cases negative <;> simp [Parts.exact, Exact.rank?]
  | whole n => simp [rank?, exact, Exact.rank?, isNaN]

theorem exists_rank {a : Number} (number : a.isNaN = false) : ∃ x, a.rank? = some x := by
  rw [← Option.isSome_iff_exists, Option.isSome_iff_ne_none, ne_eq, rank?_eq_none_iff, number]
  exact Bool.false_ne_true

section

variable {a b c : Number}

theorem compare_eq_some_iff {o : Ordering} :
    compare a b = some o ↔ ∃ x ∈ a.rank?, ∃ y ∈ b.rank?, cmp x y = o := by
  simp only [compare, Exact.compare_eq, Option.bind_eq_some_iff, Option.map_eq_some_iff, rank?,
    Option.mem_def]

theorem less_iff : a.less b = true ↔ ∃ x ∈ a.rank?, ∃ y ∈ b.rank?, x < y := by
  simp only [less, beq_iff_eq, compare_eq_some_iff, cmp_eq_lt_iff]

theorem equal_iff : a.equal b = true ↔ ∃ x ∈ a.rank?, ∃ y ∈ b.rank?, x = y := by
  simp only [equal, beq_iff_eq, compare_eq_some_iff, cmp_eq_eq_iff]

theorem lessEqual_eq (a b : Number) : a.lessEqual b = (a.less b || a.equal b) := by
  unfold lessEqual less equal
  cases compare a b with
  | none => rfl
  | some o => cases o <;> rfl

theorem lessEqual_iff : a.lessEqual b = true ↔ ∃ x ∈ a.rank?, ∃ y ∈ b.rank?, x ≤ y := by
  rw [lessEqual_eq, Bool.or_eq_true, less_iff, equal_iff]
  constructor
  · rintro (⟨x, hx, y, hy, lt⟩ | ⟨x, hx, y, hy, eq⟩)
    · exact ⟨x, hx, y, hy, lt.le⟩
    · exact ⟨x, hx, y, hy, eq.le⟩
  · rintro ⟨x, hx, y, hy, le⟩
    rcases le.lt_or_eq with lt | eq
    · exact .inl ⟨x, hx, y, hy, lt⟩
    · exact .inr ⟨x, hx, y, hy, eq⟩

section

variable {x y : Rank} (first : a.rank? = some x) (second : b.rank? = some y)

include first second

theorem compare_of_rank : compare a b = some (cmp x y) :=
  compare_eq_some_iff.2 ⟨x, first, y, second, rfl⟩

theorem less_of_rank : a.less b = decide (x < y) := by
  rw [Bool.eq_iff_iff, less_iff, first, second]
  simp

theorem equal_of_rank : a.equal b = decide (x = y) := by
  rw [Bool.eq_iff_iff, equal_iff, first, second]
  simp [eq_comm]

theorem lessEqual_of_rank : a.lessEqual b = decide (x ≤ y) := by
  rw [Bool.eq_iff_iff, lessEqual_iff, first, second]
  simp

end

theorem equal_iff_rank : a.equal b = true ↔ a.rank? = b.rank? ∧ a.rank? ≠ none := by
  rw [equal_iff]
  cases a.rank? <;> cases b.rank? <;> simp [eq_comm]

/-- The order does not tell numbers apart that are equal. -/
theorem less_congr (same : a.equal b = true) (c : Number) :
    a.less c = b.less c ∧ c.less a = c.less b := by
  have rank := (equal_iff_rank.1 same).1
  constructor
  · rw [Bool.eq_iff_iff, less_iff, less_iff, rank]
  · rw [Bool.eq_iff_iff, less_iff, less_iff, rank]

theorem less_trans (first : a.less b = true) (second : b.less c = true) : a.less c = true := by
  rw [less_iff] at first second ⊢
  obtain ⟨x, hx, y, hy, lt⟩ := first
  obtain ⟨y', hy', z, hz, lt'⟩ := second
  cases Option.mem_unique hy hy'
  exact ⟨x, hx, z, hz, lt.trans lt'⟩

/-- Of two numbers one is less, or they are equal, and only one of this is so. -/
theorem trichotomy (first : a.isNaN = false) (second : b.isNaN = false) :
    [a.less b, a.equal b, b.less a].count true = 1 := by
  obtain ⟨x, hx⟩ := exists_rank first
  obtain ⟨y, hy⟩ := exists_rank second
  rw [less_of_rank hx hy, equal_of_rank hx hy, less_of_rank hy hx]
  rcases lt_trichotomy x y with lt | eq | gt
  · simp [lt, lt.ne, lt.asymm]
  · simp [eq]
  · simp [gt, gt.ne', gt.asymm]

theorem compare_eq_none (nan : (a.isNaN || b.isNaN) = true) : compare a b = none := by
  rw [Option.eq_none_iff_forall_ne_some]
  intro o same
  obtain ⟨x, hx, y, hy, -⟩ := compare_eq_some_iff.1 same
  rw [Bool.or_eq_true, ← rank?_eq_none_iff, ← rank?_eq_none_iff] at nan
  rcases nan with left | right
  · cases hx.symm.trans left
  · cases hy.symm.trans right

end

end Number

namespace Value

/-- What equality sees of a value: its type and what it holds, of a number its place. -/
inductive Content where
  | null
  | bool (b : Bool)
  | number (rank : Option Number.Rank)
  | text (s : Text)
  deriving DecidableEq

def content : Value → Content
  | .null => .null
  | .bool b => .bool b
  | .number a => .number a.rank?
  | .text s => .text s

def isNaN : Value → Bool
  | .number a => a.isNaN
  | _ => false

theorem content_eq_iff (v : Value) : v.content = .number none ↔ v.isNaN = true := by
  cases v <;> simp [content, isNaN, Number.rank?_eq_none_iff]

theorem equal_iff {u v : Value} :
    u.equal v = true ↔ u.content = v.content ∧ u.content ≠ .number none := by
  cases u <;> cases v <;> simp [equal, content, Number.equal_iff_rank]

theorem equal_comm (u v : Value) : u.equal v = v.equal u := by
  have one {u v : Value} (same : u.equal v = true) : v.equal u = true := by
    obtain ⟨eq, number⟩ := equal_iff.1 same
    exact equal_iff.2 ⟨eq.symm, eq ▸ number⟩
  exact Bool.eq_iff_iff.2 ⟨one, one⟩

theorem equal_trans {u v w : Value} (first : u.equal v = true) (second : v.equal w = true) :
    u.equal w = true := by
  obtain ⟨eq, number⟩ := equal_iff.1 first
  exact equal_iff.2 ⟨eq.trans (equal_iff.1 second).1, number⟩

theorem equal_self_iff (v : Value) : v.equal v = true ↔ v.isNaN = false := by
  rw [equal_iff, ne_eq, content_eq_iff, Bool.not_eq_true]
  exact and_iff_right rfl

def comparisons : List Kind := [.less, .lessEqual, .greater, .greaterEqual, .equal, .notEqual]

/-- The answer of an operator on two numbers; false if it gives none. -/
def verdict (k : Kind) (a b : Number) : Bool :=
  match applyBinary ⟨k, .text k.symbol, 0⟩ (.number a) (.number b) with
  | .ok (.bool answer) => answer
  | _ => false

/-- An operator that compares has an answer for every two numbers, whatever its text and line. -/
theorem applyBinary_of_mem {operator : Token} (compares : operator.kind ∈ comparisons)
    (a b : Number) :
    applyBinary operator (.number a) (.number b) = .ok (.bool (verdict operator.kind a b)) := by
  obtain ⟨kind, text, line⟩ := operator
  have each : ∀ k ∈ comparisons,
      applyBinary ⟨k, text, line⟩ (.number a) (.number b) = .ok (.bool (verdict k a b)) := by
    simp only [comparisons, List.forall_mem_cons, List.not_mem_nil, false_imp_iff, implies_true,
      and_true]
    exact ⟨rfl, rfl, rfl, rfl, rfl, rfl⟩
  exact each kind compares

section

variable (a b : Number)

theorem verdict_less : verdict .less a b = a.less b := rfl
theorem verdict_lessEqual : verdict .lessEqual a b = a.lessEqual b := rfl
theorem verdict_greater : verdict .greater a b = b.less a := rfl
theorem verdict_greaterEqual : verdict .greaterEqual a b = b.lessEqual a := rfl
theorem verdict_equal : verdict .equal a b = a.equal b := rfl
theorem verdict_notEqual : verdict .notEqual a b = !a.equal b := rfl

end

/-- Of what is no number all is denied but that it differs. -/
theorem verdict_of_nan {a b : Number} (nan : (a.isNaN || b.isNaN) = true) :
    ∀ k ∈ comparisons, verdict k a b = decide (k = .notEqual) := by
  have left : a.compare b = none := Number.compare_eq_none nan
  have right : b.compare a = none := Number.compare_eq_none ((Bool.or_comm _ _).trans nan)
  simp only [comparisons, List.forall_mem_cons, List.not_mem_nil, false_imp_iff, implies_true,
    and_true, verdict_less, verdict_lessEqual, verdict_greater, verdict_greaterEqual, verdict_equal,
    verdict_notEqual, Number.less, Number.lessEqual, Number.equal, left, right]
  decide

/-- Equality of values is symmetric and transitive, and a value is equal to itself unless it is no
number. The operators of comparison have an answer for every two numbers, doubles or integers.
If neither is none, exactly one of less, equal and greater is true; otherwise all answers are no,
but that the two differ. The weak orders and inequality are what the strict ones and equality make
them, less is transitive, and it does not tell equal numbers apart. -/
theorem comparison_is_coherent :
    (∀ u v : Value, u.equal v = v.equal u) ∧
    (∀ u v w : Value, u.equal v = true → v.equal w = true → u.equal w = true) ∧
    (∀ v : Value, v.equal v = true ↔ v.isNaN = false) ∧
    (∀ operator : Token, operator.kind ∈ comparisons → ∀ a b : Number,
      applyBinary operator (.number a) (.number b) = .ok (.bool (verdict operator.kind a b))) ∧
    (∀ a b : Number, a.isNaN = false → b.isNaN = false →
      ([Kind.less, .equal, .greater].map (verdict · a b)).count true = 1) ∧
    (∀ a b : Number, (a.isNaN || b.isNaN) = true →
      ∀ k ∈ comparisons, verdict k a b = decide (k = .notEqual)) ∧
    (∀ a b : Number, verdict .equal a b = (Value.number a).equal (.number b) ∧
      verdict .notEqual a b = !verdict .equal a b ∧
      verdict .lessEqual a b = (verdict .less a b || verdict .equal a b) ∧
      verdict .greaterEqual a b = (verdict .greater a b || verdict .equal a b) ∧
      verdict .greater a b = verdict .less b a) ∧
    (∀ a b c : Number, verdict .less a b = true → verdict .less b c = true →
      verdict .less a c = true) ∧
    (∀ a b c : Number, verdict .equal a b = true →
      verdict .less a c = verdict .less b c ∧ verdict .less c a = verdict .less c b) := by
  refine ⟨equal_comm, fun _ _ _ => equal_trans, equal_self_iff, fun _ => applyBinary_of_mem,
    fun _ _ => Number.trichotomy, fun _ _ => verdict_of_nan, ?_, fun _ _ _ => Number.less_trans,
    fun _ _ c same => Number.less_congr same c⟩
  intro a b
  refine ⟨rfl, rfl, Number.lessEqual_eq a b, ?_, rfl⟩
  have swapped : a.equal b = b.equal a := equal_comm (.number a) (.number b)
  rw [verdict_greaterEqual, verdict_greater, verdict_equal, Number.lessEqual_eq, swapped]

end Value

end TreeWalk

import Mathlib.Data.List.Lex
import ToonScript.Value.Comparison

/-!
# The order of values

The six comparison operators answer for any two integers, any two texts and any two characters,
and their answers fit together: on each of the three types they describe one linear order
(`Value.comparisons_linear`).

Values of one of these types are compared by numbers: an integer by itself, a character by its
code point, a text by its code points, where the first difference decides and a text comes
before its extensions (`Value.order`). The laws of an order then hold because they hold of lists
of numbers.
-/

set_option autoImplicit false

namespace ToonScript

/-- The types whose values are ordered. -/
def Ty.isOrdered : Ty → Bool
  | int | string | char => true
  | _ => false

/-! ## What values are compared by -/

/-- The numbers of the code points of a text. -/
def codePoints (points : List Point) : List Int := points.map fun point => (point.code : Int)

namespace Value

/-- The numbers by which a value of an ordered type is compared. -/
def codes : Value → List Int
  | int n => [n.toInt]
  | string s => codePoints s.points
  | char c => [(c.code : Int)]
  | _ => []

/-- How two values of one ordered type stand to each other. -/
def order (left right : Value) : Ordering := List.compareLex compare left.codes right.codes

end Value

theorem compare_natCast (a b : Nat) : compare (a : Int) b = compare a b := by
  rcases Nat.lt_trichotomy a b with less | rfl | greater
  · rw [Nat.compare_eq_lt.mpr less, Int.compare_eq_lt.mpr (Int.ofNat_lt.mpr less)]
  · rw [Nat.compare_eq_eq.mpr rfl, Int.compare_eq_eq.mpr rfl]
  · rw [Nat.compare_eq_gt.mpr greater, Int.compare_eq_gt.mpr (Int.ofNat_lt.mpr greater)]

theorem compareText_eq (a b : List Point) :
    compareText a b = List.compareLex compare (codePoints a) (codePoints b) := by
  induction a generalizing b with
  | nil => cases b <;> rfl
  | cons c a ih =>
      cases b with
      | nil => rfl
      | cons d b =>
          rw [compareText, codePoints, List.map_cons, codePoints, List.map_cons,
            List.compareLex_cons_cons, compare_natCast, ih b]
          rfl

theorem codePoints_inj {a b : List Point} : codePoints a = codePoints b ↔ a = b := by
  refine List.map_inj_right fun c d same => ?_
  exact Point.code_inj.mp (Int.ofNat.inj same)

/-- A text comes before another one in the order of their code points exactly if it does so
lexicographically. -/
theorem compareText_eq_lt_iff (a b : List Point) :
    compareText a b = .lt ↔ List.Lex (fun c d : Point => c.code < d.code) a b := by
  induction a generalizing b with
  | nil =>
      cases b with
      | nil => exact ⟨nofun, nofun⟩
      | cons d b => exact ⟨fun _ => .nil, fun _ => rfl⟩
  | cons c a ih =>
      cases b with
      | nil => exact ⟨nofun, nofun⟩
      | cons d b =>
          rw [compareText, Ordering.then_eq_lt, Nat.compare_eq_lt, Nat.compare_eq_eq, ih b]
          constructor
          · rintro (less | ⟨same, later⟩)
            · exact .rel less
            · cases Point.code_inj.mp same
              exact .cons later
          · intro before
            cases before with
            | rel less => exact .inl less
            | cons later => exact .inr ⟨rfl, later⟩

namespace Value

variable {left middle right : Value}

/-- Values of one ordered type are told apart by the numbers that they are compared by. -/
theorem codes_inj (ordered : left.ty.isOrdered) (sameType : right.ty = left.ty) :
    left.codes = right.codes ↔ left = right := by
  cases left with
  | float | boolean | void | unknown => cases ordered
  | int n =>
      cases right <;> cases sameType
      simp only [codes, List.cons.injEq, and_true, Int64.toInt_inj, int.injEq]
  | string s =>
      cases right <;> cases sameType
      simp only [codes, codePoints_inj, ← Text.ext_iff, string.injEq]
  | char c =>
      cases right <;> cases sameType
      simp only [codes, List.cons.injEq, and_true, Int.natCast_inj, Point.code_inj, char.injEq]

/-- A comparison operator that is named by its sign is the operator. -/
theorem comparison_symbol (op : ComparisonOp) : comparison op.symbol = op.apply := by
  cases op <;> rfl

/-- **Values of one ordered type are always compared**, and the answer is read off their order.
-/
theorem comparison_eq (op : ComparisonOp) (ordered : left.ty.isOrdered)
    (sameType : right.ty = left.ty) :
    comparison op.symbol left right = .ok (.boolean (op.holds (order left right))) := by
  rw [comparison_symbol, order]
  cases left with
  | float | boolean | void | unknown => cases ordered
  | int n =>
      cases right <;> cases sameType
      simp only [codes, List.compareLex_cons_cons, List.compareLex_nil_nil, Ordering.then_eq]
      rfl
  | string s =>
      cases right <;> cases sameType
      rw [codes, codes, ← compareText_eq]
      rfl
  | char c =>
      cases right <;> cases sameType
      simp only [codes, List.compareLex_cons_cons, List.compareLex_nil_nil, Ordering.then_eq,
        compare_natCast]
      rfl

/-- A comparison, named by its sign, holds of two values. -/
def Compares (op : ComparisonOp) (left right : Value) : Prop :=
  comparison op.symbol left right = .ok (.boolean true)

theorem compares_iff (op : ComparisonOp) (ordered : left.ty.isOrdered)
    (sameType : right.ty = left.ty) :
    Compares op left right ↔ op.holds (order left right) = true := by
  rw [Compares, comparison_eq op ordered sameType, Except.ok.injEq, boolean.injEq]

/-! ## The laws of the order -/

theorem order_eq_swap (left right : Value) : order left right = (order right left).swap := by
  unfold order
  exact Std.OrientedCmp.eq_swap

theorem order_eq_iff (ordered : left.ty.isOrdered) (sameType : right.ty = left.ty) :
    order left right = .eq ↔ left = right := by
  rw [order, Std.LawfulEqCmp.compare_eq_iff_eq, codes_inj ordered sameType]

theorem order_lt_trans (first : order left middle = .lt) (second : order middle right = .lt) :
    order left right = .lt := by
  unfold order at *
  exact Std.TransCmp.lt_trans first second

/-- Exactly one of less, equal and greater holds. -/
theorem compares_trichotomy (ordered : left.ty.isOrdered) (sameType : right.ty = left.ty) :
    (Compares .lt left right ∧ ¬Compares .eq left right ∧ ¬Compares .gt left right) ∨
    (¬Compares .lt left right ∧ Compares .eq left right ∧ ¬Compares .gt left right) ∨
    (¬Compares .lt left right ∧ ¬Compares .eq left right ∧ Compares .gt left right) := by
  simp only [compares_iff _ ordered sameType]
  cases order left right <;> decide

/-- The other three operators are negations. -/
theorem compares_negations (ordered : left.ty.isOrdered) (sameType : right.ty = left.ty) :
    (Compares .le left right ↔ ¬Compares .gt left right) ∧
      (Compares .ge left right ↔ ¬Compares .lt left right) ∧
      (Compares .ne left right ↔ ¬Compares .eq left right) := by
  simp only [compares_iff _ ordered sameType]
  cases order left right <;> decide

theorem compares_lt_iff (ordered : left.ty.isOrdered) (sameType : right.ty = left.ty) :
    Compares .lt left right ↔ order left right = .lt :=
  (compares_iff .lt ordered sameType).trans beq_iff_eq

theorem compares_lt_iff_gt (ordered : left.ty.isOrdered) (sameType : right.ty = left.ty) :
    Compares .lt left right ↔ Compares .gt right left := by
  rw [compares_iff .lt ordered sameType, compares_iff .gt (sameType ▸ ordered) sameType.symm,
    order_eq_swap right left]
  cases order left right <;> decide

theorem compares_eq_iff (ordered : left.ty.isOrdered) (sameType : right.ty = left.ty) :
    Compares .eq left right ↔ left = right :=
  (compares_iff .eq ordered sameType).trans (beq_iff_eq.trans (order_eq_iff ordered sameType))

theorem compares_lt_trans (ordered : left.ty.isOrdered) (sameType : middle.ty = left.ty)
    (sameType' : right.ty = left.ty) (first : Compares .lt left middle)
    (second : Compares .lt middle right) :
    Compares .lt left right := by
  rw [compares_lt_iff ordered sameType] at first
  rw [compares_lt_iff (sameType ▸ ordered) (sameType'.trans sameType.symm)] at second
  rw [compares_lt_iff ordered sameType']
  exact order_lt_trans first second

/-! ## Which orders these are -/

theorem compares_lt_string (a b : Text) :
    Compares .lt (.string a) (.string b) ↔
      List.Lex (fun c d : Point => c.code < d.code) a.points b.points := by
  have sameType : (Value.string b).ty = (Value.string a).ty := rfl
  rw [compares_lt_iff rfl sameType, order, codes, codes, ← compareText_eq,
    compareText_eq_lt_iff]

/-- A text comes before each of its extensions. -/
theorem compares_lt_append (a : Text) {more : Text} (some : more ≠ "") :
    Compares .lt (.string a) (.string (a ++ more)) := by
  have begins : List.Lex (fun c d : Point => c.code < d.code) [] more.points := by
    cases shape : more.points with
    | nil => exact absurd (Text.ext shape) some
    | cons first rest => exact .nil
  have extended := begins.append_left _ a.points
  rw [compares_lt_string, Text.points_append]
  rwa [List.append_nil] at extended

theorem compares_lt_int (a b : Int64) : Compares .lt (.int a) (.int b) ↔ a.toInt < b.toInt := by
  have sameType : (Value.int b).ty = (Value.int a).ty := rfl
  rw [compares_lt_iff rfl sameType, order, codes, codes, List.compareLex_cons_cons,
    List.compareLex_nil_nil, Ordering.then_eq, Int.compare_eq_lt]

theorem compares_lt_char (c d : Point) :
    Compares .lt (.char c) (.char d) ↔ c.code < d.code := by
  have sameType : (Value.char d).ty = (Value.char c).ty := rfl
  rw [compares_lt_iff rfl sameType, order, codes, codes, List.compareLex_cons_cons,
    List.compareLex_nil_nil, Ordering.then_eq, Int.compare_eq_lt, Int.ofNat_lt]

/-- **The comparison operators describe one linear order per type.** On two integers, two texts
or two characters every operator gives an answer. Exactly one of less, equal and greater holds,
the other three operators are their negations, greater is less the other way round, less is
transitive, and only identical values are equal. Texts are ordered lexicographically by code
point, and a text comes before each of its extensions; integers are ordered by their value,
characters by their code point. -/
theorem comparisons_linear (ty : Ty) (ordered : ty ∈ [.int, .string, .char]) :
    (∀ left right : Value, left.ty = ty → right.ty = ty →
      (∀ op : ComparisonOp, ∃ answer, comparison op.symbol left right = .ok (.boolean answer)) ∧
      ((Compares .lt left right ∧ ¬Compares .eq left right ∧ ¬Compares .gt left right) ∨
        (¬Compares .lt left right ∧ Compares .eq left right ∧ ¬Compares .gt left right) ∨
        (¬Compares .lt left right ∧ ¬Compares .eq left right ∧ Compares .gt left right)) ∧
      ((Compares .le left right ↔ ¬Compares .gt left right) ∧
        (Compares .ge left right ↔ ¬Compares .lt left right) ∧
        (Compares .ne left right ↔ ¬Compares .eq left right)) ∧
      (Compares .lt left right ↔ Compares .gt right left) ∧
      (Compares .eq left right ↔ left = right)) ∧
    (∀ left middle right : Value, left.ty = ty → middle.ty = ty → right.ty = ty →
      Compares .lt left middle → Compares .lt middle right → Compares .lt left right) ∧
    (∀ a b : Text, Compares .lt (.string a) (.string b) ↔
      List.Lex (fun c d : Point => c.code < d.code) a.points b.points) ∧
    (∀ a more : Text, more ≠ "" → Compares .lt (.string a) (.string (a ++ more))) ∧
    (∀ a b : Int64, Compares .lt (.int a) (.int b) ↔ a.toInt < b.toInt) ∧
    (∀ c d : Point, Compares .lt (.char c) (.char d) ↔ c.code < d.code) := by
  have isOrdered : ty.isOrdered := by
    simp only [List.mem_cons, List.not_mem_nil, or_false] at ordered
    rcases ordered with rfl | rfl | rfl <;> rfl
  refine ⟨?_, ?_, compares_lt_string, fun a _ => compares_lt_append a, compares_lt_int,
    compares_lt_char⟩
  · rintro left right rfl sameType
    exact ⟨fun op => ⟨_, comparison_eq op isOrdered sameType⟩,
      compares_trichotomy isOrdered sameType, compares_negations isOrdered sameType,
      compares_lt_iff_gt isOrdered sameType, compares_eq_iff isOrdered sameType⟩
  · rintro left middle right rfl sameType sameType' first second
    exact compares_lt_trans isOrdered sameType sameType' first second

/-- A character below U+FFFF comes before one above, although the first unit of the latter in an
encoding by units of 16 bits would come first. So does every text that starts with it. -/
theorem comparisons_linear_wide :
    Ty.string ∈ [Ty.int, .string, .char] ∧
    Compares .lt (.string "～") (.string "～～") ∧ Compares .lt (.string "～～") (.string "😀") ∧
    Compares .lt (.string "～") (.string "😀") ∧ ¬Compares .ge (.string "～～") (.string "😀") := by
  have ordered : Ty.string ∈ [Ty.int, .string, .char] := by decide
  obtain ⟨pairs, trans, lexicographic, extended, -, -⟩ := comparisons_linear .string ordered
  have shorter : Compares .lt (.string "～") (.string "～～") := extended "～" "～" (by decide)
  have below : Compares .lt (.string "～～") (.string "😀") :=
    (lexicographic _ _).mpr (.rel (by decide))
  obtain ⟨-, -, ⟨-, atLeast, -⟩, -⟩ := pairs (.string "～～") (.string "😀") rfl rfl
  exact ⟨ordered, shorter, below, trans _ _ _ rfl rfl rfl shorter below,
    fun ge => atLeast.mp ge below⟩

end Value

end ToonScript

import TypedTree.Convert.Outbound
import TypedTree.Decimal.Binary64
import TypedTree.Proofs.Decimal.Layouts
import TypedTree.Proofs.Decimal.Words

/-!
# Numbers that go out

A double other than negative zero comes back from the decimal that it stands for. A decimal
therefore goes out exactly when it is an integer within a word, or no integer and the decimal that
some double stands for.
-/

namespace TypedTree.Decimal

/-- A double other than negative zero comes back from the decimal that it stands for. -/
theorem toBinary64?_ofBinary64 {x : Binary64} (unsigned : x.rank = 0 → x.negative = false) :
    (ofBinary64 x).toBinary64? = some x := by
  have nearest : Binary64.nearest? (ofBinary64 x).negative (ofBinary64 x).significand
      (ofBinary64 x).exponent = some x := by
    by_cases rank : x.rank = 0
    · rw [ofBinary64_of_rank rank]
      obtain ⟨negative, magnitude, finite⟩ := x
      obtain rfl : magnitude = 0 := rank
      obtain rfl : negative = false := unsigned rfl
      rfl
    · obtain ⟨significand, exponent, present, same, back⟩ :=
        ofBinary64_readsBack (Nat.pos_of_ne_zero rank)
      have parts := reduce_parts x.negative exponent present
      have kept := Binary64.nearestRankOfDecimal_reduce x.negative exponent present
      rw [same, parts.1]
      apply Binary64.nearest?_of_rank
      · rw [parts.2.1]
        exact dropZeros_pos present
      · rw [kept, back]
  simp [toBinary64?, readChars?_chars, nearest, ofBinary64?_eq]

/-- A decimal that some double stands for is a double. -/
theorem isSome_toBinary64? (n : Decimal) :
    n.toBinary64?.isSome = true ↔ ∃ x, n = ofBinary64 x := by
  constructor
  · intro found
    obtain ⟨x, exactly⟩ := Option.isSome_iff_exists.1 found
    exact ⟨x, (ofBinary64_of_toBinary64? exactly).symm⟩
  · rintro ⟨x, rfl⟩
    by_cases rank : x.rank = 0
    · -- both zeros stand for zero, and the unsigned one comes back from it
      have same : ofBinary64 x = ofBinary64 (Binary64.zero false) :=
        (ofBinary64_of_rank rank).trans (ofBinary64_of_rank rfl).symm
      rw [same, toBinary64?_ofBinary64 fun _ => rfl]
      rfl
    · rw [toBinary64?_ofBinary64 fun zero => absurd zero rank]
      rfl

/-- Negative zero is the only double of rank zero that is negative. -/
theorem ne_negativeZero {x : Binary64} (other : x ≠ Binary64.zero true) :
    x.rank = 0 → x.negative = false := by
  obtain ⟨negative, rank, finite⟩ := x
  rintro rfl
  cases negative with
  | false => rfl
  | true => exact absurd rfl other

/-- The doubles that a decimal denotes exactly are those that stand for it, negative zero apart. -/
theorem toBinary64?_eq_some_iff {n : Decimal} {x : Binary64} :
    n.toBinary64? = some x ↔ ofBinary64 x = n ∧ x ≠ Binary64.zero true := by
  constructor
  · intro exactly
    have same := ofBinary64_of_toBinary64? exactly
    refine ⟨same, ?_⟩
    rintro rfl
    -- both zeros stand for zero, and the unsigned one comes back from it
    have zeros : ofBinary64 (Binary64.zero true) = ofBinary64 (Binary64.zero false) :=
      (ofBinary64_of_rank rfl).trans (ofBinary64_of_rank rfl).symm
    rw [← same, zeros, toBinary64?_ofBinary64 fun _ => rfl] at exactly
    exact absurd (Option.some.inj exactly) (by decide)
  · rintro ⟨rfl, other⟩
    exact toBinary64?_ofBinary64 (ne_negativeZero other)

/--
Doubles cross decimals without loss. A decimal is a double exactly when that double is read as it,
negative zero apart; so every other double comes back, no two of them are read as one decimal, and
only the decimals that no double is read as are no doubles.
-/
theorem doubles_cross_exactly :
    (∀ (n : Decimal) (x : Binary64),
      n.toBinary64? = some x ↔ ofBinary64? x = some n ∧ x ≠ Binary64.zero true) ∧
    (∀ x, (ofBinary64? x).bind toBinary64? = some x ↔ x ≠ Binary64.zero true) ∧
    Set.InjOn ofBinary64? {x | x ≠ Binary64.zero true} ∧
    ∀ n : Decimal, n.toBinary64? = none ↔ ∀ x, ofBinary64? x ≠ some n := by
  have exactly : ∀ (n : Decimal) (x : Binary64),
      n.toBinary64? = some x ↔ ofBinary64? x = some n ∧ x ≠ Binary64.zero true := by
    intro n x
    rw [toBinary64?_eq_some_iff, ofBinary64?_eq, Option.some.injEq]
  refine ⟨exactly, fun x => ?_, fun x first y second same => ?_, fun n => ?_⟩
  · rw [ofBinary64?_eq, Option.bind_some, exactly, ofBinary64?_eq]
    exact ⟨And.right, fun other => ⟨rfl, other⟩⟩
  · rw [ofBinary64?_eq, ofBinary64?_eq, Option.some.injEq] at same
    have left := toBinary64?_eq_some_iff.2 ⟨rfl, first⟩
    have right := toBinary64?_eq_some_iff.2 ⟨rfl, second⟩
    rw [same, right] at left
    exact (Option.some.inj left).symm
  · rw [← Option.not_isSome_iff_eq_none, isSome_toBinary64?, not_exists]
    simp only [ofBinary64?_eq, ne_eq, Option.some.injEq, eq_comm]

/-- A decimal in lowest terms without a fraction is the decimal of an integer, and no other is. -/
theorem isInteger_iff (n : Decimal) : n.isInteger = true ↔ ∃ value, n = ofInt value := by
  constructor
  · intro whole
    exact ⟨n.signedValue, (ofInt_signedValue whole).symm⟩
  · rintro ⟨value, rfl⟩
    exact isInteger_ofInt value

/-- An integer within a word, or no integer and the decimal that some finite double stands for. -/
def Sendable (n : Decimal) : Prop :=
  (∃ value, fitsInt64 value = true ∧ n = ofInt value) ∨
    (∀ value, n ≠ ofInt value) ∧ ∃ x, n = ofBinary64 x

/-- The decimals that go out are the sendable ones. -/
theorem isSome_toJson? (n : Decimal) : n.toJson?.isSome = true ↔ n.Sendable := by
  by_cases whole : n.isInteger = true
  · obtain ⟨own, same⟩ := (isInteger_iff n).1 whole
    have word : n.toInt64?.isSome = true ↔ ∃ value, fitsInt64 value = true ∧ n = ofInt value := by
      simp only [Option.isSome_iff_exists, toInt64?_eq_some, @eq_comm _ (ofInt _) n]
    have closed : ¬ ∀ value, n ≠ ofInt value := fun other => other own same
    simp only [toJson?, if_pos whole, Option.isSome_map, word, Sendable, closed, false_and,
      or_false]
  · have apart : ∀ value, n ≠ ofInt value := fun value same =>
      whole ((isInteger_iff n).2 ⟨value, same⟩)
    have word : ¬ ∃ value, fitsInt64 value = true ∧ n = ofInt value := fun ⟨value, _, same⟩ =>
      apart value same
    simp only [toJson?, if_neg whole, Option.isSome_map, isSome_toBinary64?, Sendable, word,
      false_or, iff_true_intro apart, true_and]

end TypedTree.Decimal

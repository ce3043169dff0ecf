import TypedTree.Convert.Outbound
import TypedTree.Proofs.Decimal.Magnitudes

/-!
# Numbers go out exactly

A decimal that goes out as a document number is the decimal which that number stands for, whether it
goes out as a word or as a double.
-/

namespace TypedTree.Decimal

/-- A word that a decimal goes out as stands for the decimal. -/
theorem ofInt_of_toInt64? {n : Decimal} {value : Int} (fits : n.toInt64? = some value) :
    ofInt value = n := by
  obtain ⟨⟨whole, -⟩, -, rfl⟩ := toInt64?_eq_some_iff_signedValue.1 fits
  exact ofInt_signedValue whole

/-- A double that a decimal denotes exactly stands for the decimal. -/
theorem ofBinary64_of_toBinary64? {n : Decimal} {x : Binary64} (exactly : n.toBinary64? = some x) :
    ofBinary64 x = n := by
  simp only [toBinary64?, Option.filter_eq_some_iff, ofBinary64?_eq, decide_eq_true_eq,
    Option.some.injEq] at exactly
  exact exactly.2

/-- A number that a decimal goes out as stands for the decimal. -/
theorem ofJson_of_toJson? {n : Decimal} {known : Json.Number} (sent : n.toJson? = some known) :
    ofJson known = n := by
  unfold toJson? at sent
  split at sent
  · obtain ⟨value, fits, rfl⟩ := Option.map_eq_some_iff.1 sent
    exact ofInt_of_toInt64? fits
  · obtain ⟨x, exactly, rfl⟩ := Option.map_eq_some_iff.1 sent
    exact ofBinary64_of_toBinary64? exactly

end TypedTree.Decimal

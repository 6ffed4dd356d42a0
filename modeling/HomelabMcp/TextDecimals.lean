import HomelabMcp.Text

/-!
# Decimal numbers

Natural numbers in decimal digits, and what follows them in a text.

* `decimal_inj`: numbers with one decimal text are the same.
* `decimal_append_inj`: where no digit follows it, the decimal text of a number can be found in
  a text.
-/

namespace Text

/-- The digits of a number. -/
def decimal (n : Nat) : List Char := Nat.toDigits 10 n

/-- The standard library writes the same digits. -/
theorem toList_toString (n : Nat) : (toString n).toList = decimal n := by
  rw [Nat.toString_eq_ofList_toDigits, String.toList_ofList, decimal]

/-- Only digits are written. -/
theorem isDigit_of_mem_decimal {n : Nat} {c : Char} (h : c ∈ decimal n) : c.isDigit = true :=
  Nat.isDigit_of_mem_toDigits (by decide) (by decide) h

/-- **A number is known by its digits.** -/
theorem decimal_inj {m n : Nat} (h : decimal m = decimal n) : m = n := by
  have hread := congrArg (fun digits => Nat.ofDigitChars 10 digits 0) h
  simpa only [decimal, Nat.ofDigitChars_ten_toDigits] using hread

/-- **The number at the start of a text**, up to a character that is no digit. -/
theorem decimal_append_inj {m n : Nat} {c : Char} {rest rest' : List Char}
    (hc : c.isDigit = false) (h : decimal m ++ c :: rest = decimal n ++ c :: rest') :
    m = n ∧ rest = rest' := by
  have hfree : ∀ k, c ∉ decimal k := by
    intro k hmem
    rw [isDigit_of_mem_decimal hmem] at hc
    cases hc
  obtain ⟨hdigits, hrest⟩ := append_cons_inj (hfree m) (hfree n) h
  exact ⟨decimal_inj hdigits, hrest⟩

end Text

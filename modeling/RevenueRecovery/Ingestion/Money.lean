import RevenueRecovery.Ingestion.Normalizers
import RevenueRecovery.Lib.DecimalText

/-!
# Stage 1: exact amounts

A PayPal amount is an unsigned ASCII decimal with at most as many fraction digits as its
currency has. Its minor units are exactly its value, and minor units written as a decimal
are read back. The pattern of the source also stops before a final newline.

## Main definitions
* `AmountOf` : the texts of a number of minor units.
* `ReadExactly` : a text is read when it is one, as the number it is of.
-/
namespace RevenueRecovery

open DecimalText

/-- The text is a decimal of at most `e` fraction digits, and is this many units of
`10 ^ -e`. -/
def DecimalOf (e : ℕ) (text : List Char) (n : ℕ) : Prop :=
  ∃ whole fraction, IsWhole whole ∧ AllDigits fraction ∧ fraction.length ≤ e ∧
    text = render whole fraction ∧ (n : ℚ) = DecimalText.value whole fraction * 10 ^ e

/-- The text is an amount of this many minor units, of which there are `10 ^ e` to the unit. -/
def AmountOf (e : ℕ) (text : String) (n : ℕ) : Prop :=
  text.length ≤ 32 ∧ DecimalOf e text.toList n ∧ 1 ≤ n ∧ n ≤ 2 ^ 31 - 1

/-- The text is accepted when it is an amount, and then as the number of its minor units. -/
def ReadExactly (currencyCode : String) (e : ℕ) (text : String) : Prop :=
  ∀ n, toMinorUnits text currencyCode = .ok n ↔ AmountOf e text n

section Matching
variable {value currencyCode : String} {whole fraction text : List Char} {e n : ℕ}

theorem isAsciiDigit_eq : isAsciiDigit = Char.isDigit := by
  funext c
  rfl

theorem isWholePart_iff (h : AllDigits whole) : isWholePart whole = true ↔ IsWhole whole := by
  unfold isWholePart IsWhole
  cases whole with
  | nil => simp
  | cons c rest =>
      cases rest with
      | nil =>
          refine iff_of_true rfl ⟨h, ?_⟩
          by_cases hc : c = '0'
          · exact .inl (by rw [hc])
          · exact .inr ⟨c, [], rfl, hc⟩
      | cons d rest =>
          simp only [bne_iff_ne, ne_eq]
          constructor
          · exact fun hc => ⟨h, .inr ⟨c, d :: rest, rfl, hc⟩⟩
          · rintro ⟨-, heq | ⟨c', rest', heq, hc⟩⟩
            · cases heq
            · cases heq
              exact hc

/-- The pattern matches the decimals, up to a final newline. -/
theorem matchAmount_eq_some : matchAmount value = some (whole, fraction) ↔
    IsWhole whole ∧ AllDigits fraction ∧
      dropFinalNewline value.toList = render whole fraction := by
  unfold matchAmount
  generalize dropFinalNewline value.toList = text
  simp only [isAsciiDigit_eq]
  constructor
  · intro h
    split at h
    · cases h
    · rename_i hpart
      have hdigits : AllDigits (text.takeWhile Char.isDigit) := fun c hc =>
        List.mem_takeWhile_imp hc
      have hwhole := (isWholePart_iff hdigits).mp (by simpa using hpart)
      have hsplit : text.takeWhile Char.isDigit ++ text.dropWhile Char.isDigit = text :=
        List.takeWhile_append_dropWhile
      split at h
      · rename_i hrest
        cases h
        rw [hrest, List.append_nil] at hsplit
        exact ⟨hwhole, by simp [AllDigits], by rw [hsplit]; rfl⟩
      · rename_i rest hrest
        split at h
        · rename_i hfraction
          cases h
          simp only [Bool.and_eq_true, Bool.not_eq_true', List.isEmpty_eq_false_iff,
            List.all_eq_true] at hfraction
          refine ⟨hwhole, hfraction.2, ?_⟩
          rw [render, if_neg hfraction.1, ← hrest, hsplit]
        · cases h
      · cases h
  · rintro ⟨hwhole, hfraction, rfl⟩
    rw [takeWhile_render hwhole, dropWhile_render hwhole, (isWholePart_iff hwhole.1).mpr hwhole]
    by_cases hnil : fraction = []
    · simp [hnil]
    · simp [hnil, List.all_eq_true.mpr hfraction]

/-- The texts the pattern matches with at most `e` fraction digits, and the number of minor
units they are read as, are the decimals and their values. -/
theorem decimalOf_iff :
    DecimalOf e (dropFinalNewline value.toList) n ↔ ∃ whole fraction,
      matchAmount value = some (whole, fraction) ∧ fraction.length ≤ e ∧
        n = digitsValue (whole ++ fraction) * 10 ^ (e - fraction.length) := by
  constructor
  · rintro ⟨whole, fraction, hwhole, hfraction, hlength, htext, hn⟩
    refine ⟨whole, fraction, matchAmount_eq_some.mpr ⟨hwhole, hfraction, htext⟩, hlength, ?_⟩
    rw [value_mul_pow hlength] at hn
    exact_mod_cast hn
  · rintro ⟨whole, fraction, hmatch, hlength, rfl⟩
    obtain ⟨hwhole, hfraction, htext⟩ := matchAmount_eq_some.mp hmatch
    exact ⟨whole, fraction, hwhole, hfraction, hlength, htext, (value_mul_pow hlength).symm⟩

/-- The minor units of a text, once a final newline is dropped. -/
theorem toMinorUnits_eq_ok (hcurrency : paypalCurrencyExponents.lookup currencyCode = some e) :
    toMinorUnits value currencyCode = .ok n ↔
      value.length ≤ 32 ∧ DecimalOf e (dropFinalNewline value.toList) n ∧ 1 ≤ n ∧
        n ≤ 2 ^ 31 - 1 := by
  rw [decimalOf_iff]
  unfold toMinorUnits
  simp only [hcurrency, bind, Except.bind, pure, Except.pure, throw, throwThe, MonadExceptOf.throw]
  by_cases hlong : value.length > maxAmountLength
  · rw [if_pos hlong]
    exact iff_of_false (by simp) fun h => absurd h.1 (Nat.not_le.mpr hlong)
  · rw [if_neg hlong]
    have hlength : value.length ≤ 32 := Nat.not_lt.mp hlong
    cases hmatch : matchAmount value with
    | none => simp
    | some parts =>
        obtain ⟨whole, fraction⟩ := parts
        dsimp only
        by_cases hdigits : fraction.length > e
        · rw [if_pos hdigits]
          refine iff_of_false (by simp) ?_
          rintro ⟨-, ⟨whole', fraction', heq, hle, -⟩, -⟩
          cases heq
          exact absurd hle (Nat.not_le.mpr hdigits)
        · rw [if_neg hdigits]
          generalize hunits :
            digitsValue (whole ++ fraction) * 10 ^ (e - fraction.length) = units
          have hmax : maxAmountMinorUnits = 2 ^ 31 - 1 := rfl
          split
          · rename_i hrange
            refine iff_of_false (by simp) ?_
            rintro ⟨-, ⟨whole', fraction', heq, -, rfl⟩, hpos, hle⟩
            cases heq
            rw [hunits] at hpos hle
            omega
          · rename_i hrange
            rw [Except.ok.injEq]
            constructor
            · rintro rfl
              exact ⟨hlength, ⟨whole, fraction, rfl, Nat.not_lt.mp hdigits, hunits.symm⟩,
                by omega, by omega⟩
            · rintro ⟨-, ⟨whole', fraction', heq, -, rfl⟩, -⟩
              cases heq
              exact hunits.symm

end Matching

/-! ## Exactness -/

section Exactness
variable {currencyCode : String} {e n : ℕ}

theorem dropFinalNewline_of_ne {text : List Char} (h : text.getLast? ≠ some '\n') :
    dropFinalNewline text = text := if_neg h

@[simp] theorem dropFinalNewline_append (text : List Char) :
    dropFinalNewline (text ++ ['\n']) = text := by
  simp [dropFinalNewline]

/-- A decimal has no newline. -/
theorem not_decimalOf_newline {text : List Char} (h : '\n' ∈ text) : ¬ DecimalOf e text n := by
  rintro ⟨whole, fraction, hwhole, hfraction, -, rfl, -⟩
  rcases mem_render hwhole hfraction h with hdigit | hpoint
  · exact absurd hdigit (by decide)
  · exact absurd hpoint (by decide)

/-- Minor units written as a decimal are an amount of that many. -/
theorem amountOf_fixed (he : e ≤ 2) (hpos : 1 ≤ n) (hle : n ≤ 2 ^ 31 - 1) :
    AmountOf e (.ofList (fixed e n)) n := by
  obtain ⟨whole, fraction, hwhole, hfraction, hlength, htext, hvalue⟩ := fixed_spec e n
  refine ⟨?_, ⟨whole, fraction, hwhole, hfraction, hlength.le, ?_, hvalue⟩, hpos, hle⟩
  · have hshort : (fixed e n).length ≤ 10 + 1 + e :=
      length_fixed_le (by decide) (by omega)
    rw [String.length_ofList]
    omega
  · rw [String.toList_ofList, htext]

example : (fixed 2 105, fixed 0 15) = ("1.05".toList, "15".toList) := by decide +kernel

theorem exponent_le (hcurrency : paypalCurrencyExponents.lookup currencyCode = some e) :
    e ≤ 2 := by
  obtain ⟨before, after, htable, -⟩ := List.lookup_eq_some_iff.mp hcurrency
  have hall : ∀ entry ∈ paypalCurrencyExponents, entry.2 ≤ 2 := by decide
  exact hall (currencyCode, e) (by rw [htable]; simp)

/-- An amount and a newline are read as the amount, within the length limit. -/
theorem toMinorUnits_newline {amount : String}
    (hcurrency : paypalCurrencyExponents.lookup currencyCode = some e) :
    toMinorUnits (amount ++ "\n") currencyCode = .ok n ↔
      AmountOf e amount n ∧ amount.length ≤ 31 := by
  have hlist : (amount ++ "\n").toList = amount.toList ++ ['\n'] := by simp
  have hlength : (amount ++ "\n").length = amount.length + 1 := by
    rw [String.length_append]
    rfl
  rw [toMinorUnits_eq_ok hcurrency, hlist, dropFinalNewline_append, hlength, AmountOf]
  constructor
  · rintro ⟨hle, hdecimal, hrange⟩
    exact ⟨⟨by omega, hdecimal, hrange⟩, by omega⟩
  · rintro ⟨⟨-, hdecimal, hrange⟩, hle⟩
    exact ⟨by omega, hdecimal, hrange⟩

/-- A text of a supported currency is read exactly unless it is an amount followed by a
newline within the length limit; minor units written as a decimal are read back. -/
theorem readExactly_iff (hcurrency : paypalCurrencyExponents.lookup currencyCode = some e) :
    (∀ text, ReadExactly currencyCode e text ↔
      ∀ amount n, text = amount ++ "\n" → AmountOf e amount n → 31 < amount.length) ∧
    ∀ n, 1 ≤ n → n ≤ 2 ^ 31 - 1 →
      toMinorUnits (.ofList (fixed e n)) currencyCode = .ok n := by
  have hexact : ∀ text, text.toList.getLast? ≠ some '\n' → ReadExactly currencyCode e text := by
    intro text htext n
    rw [toMinorUnits_eq_ok hcurrency, dropFinalNewline_of_ne htext]
    rfl
  have hnewline : ∀ amount : String, '\n' ∈ (amount ++ "\n").toList := by simp
  refine ⟨fun text => ⟨fun hread amount n htext hamount => ?_, fun hcond => ?_⟩,
    fun n hpos hle => ?_⟩
  · subst htext
    by_contra hshort
    have hok := (toMinorUnits_newline hcurrency).mpr ⟨hamount, Nat.not_lt.mp hshort⟩
    exact not_decimalOf_newline (hnewline amount) ((hread n).mp hok).2.1
  · by_cases htext : text.toList.getLast? = some '\n'
    · obtain ⟨init, hinit⟩ : ∃ init, text.toList = init ++ ['\n'] := by
        rw [List.getLast?_eq_some_iff] at htext
        exact htext
      obtain rfl : text = .ofList init ++ "\n" := by
        rw [← String.toList_inj, hinit]
        simp
      intro n
      refine iff_of_false (fun hok => ?_) fun hamount =>
        not_decimalOf_newline (hnewline _) hamount.2.1
      obtain ⟨hamount, hle⟩ := (toMinorUnits_newline hcurrency).mp hok
      exact absurd (hcond _ n rfl hamount) (Nat.not_lt.mpr hle)
    · exact hexact text htext
  · have hamount := amountOf_fixed (exponent_le hcurrency) hpos hle
    refine (hexact _ (fun hlast => ?_) n).mpr hamount
    exact not_decimalOf_newline (List.mem_of_getLast? hlast) hamount.2.1

end Exactness

/-- Dollars have cents. -/
theorem readExactly_dollars : ReadExactly "USD" 2 "12.50" ∧
    toMinorUnits (.ofList (fixed 2 1250)) "USD" = .ok 1250 := by
  have hdollars : paypalCurrencyExponents.lookup "USD" = some 2 := by decide +kernel
  refine ⟨((readExactly_iff hdollars).1 _).mpr fun amount n htext _ => ?_,
    (readExactly_iff hdollars).2 1250 (by decide) (by decide)⟩
  have hlast := congrArg (fun text : String => text.toList.getLast?) htext
  simp at hlast

/-- An amount followed by a newline is accepted. -/
theorem newline_amount_read :
    ¬ ∀ currencyCode e, paypalCurrencyExponents.lookup currencyCode = some e →
      ∀ text, ReadExactly currencyCode e text := by
  intro hall
  have hread := (hall "USD" 2 (by decide +kernel) "12.50\n" 1250).mp (by decide +kernel)
  exact not_decimalOf_newline (by decide) hread.2.1

end RevenueRecovery

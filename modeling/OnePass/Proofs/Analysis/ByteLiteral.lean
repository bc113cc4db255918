import Mathlib.Data.Nat.Digits.Defs
import OnePass.Analysis.Value

/-
  The value of a byte literal.

  A literal is read in 64 bits, digit by digit, and given up
  as soon as they are not enough. The number that its digits
  denote has no such limit. The two agree on what is a byte:
  a number never comes back into the range once a digit has
  taken it out, and zeros in front never take it out.

  Main declarations:
    * `Analysis.decimalValue`, `Analysis.isByteLiteral`
    * `Analysis.foldlM_withDigit?_eq_some_iff`
    * `Analysis.fitsByte_eq_isByteLiteral`
    * `byteLiteral_of_unbounded_value`
-/

------------------------------------------------------------
-- Numbers Without A Limit
------------------------------------------------------------

namespace OnePass

namespace Analysis

/- The value of a digit. -/
def placeValue (digit : Char) : Nat :=
  digit.toNat - '0'.toNat

/- A number with one more digit at its end. -/
def extend
    (value : Nat)
    (digit : Char) : Nat :=
  10 * value + placeValue digit

/- The number that decimal digits denote. -/
def decimalValue (digits : List Char) : Nat :=
  digits.foldl extend 0

/-
  Digits, after an optional plus sign, that denote a value
  of a byte. Leading zeros do not matter.
-/
def isByteLiteral (text : String) : Bool :=
  let digits := unsigned text.toList
  !digits.isEmpty && digits.all Char.isDigit &&
    decimalValue digits ≤ byteMax

/- More digits after digits that denote `value`. -/
theorem foldl_extend_eq_ofDigits
    (value : Nat)
    (digits : List Char) :
    digits.foldl extend value =
      Nat.ofDigits 10
        ((digits.map placeValue).reverse ++ [value]) := by
  induction digits generalizing value with
  | nil => simp
  | cons digit digits ih =>
      rw [List.foldl_cons, ih, List.map_cons,
        List.reverse_cons, Nat.ofDigits_append,
        Nat.ofDigits_append, Nat.ofDigits_append]
      simp only [extend, Nat.ofDigits_singleton,
        List.length_reverse, List.length_append,
        List.length_map, List.length_singleton, pow_succ]
      ring

/- The last digit counts once, the one before it ten times. -/
theorem decimalValue_eq_ofDigits
    (digits : List Char) :
    decimalValue digits =
      Nat.ofDigits 10 (digits.map placeValue).reverse := by
  rw [decimalValue, foldl_extend_eq_ofDigits,
    Nat.ofDigits_append]
  simp

/- More digits do not make a number smaller. -/
theorem le_foldl_extend
    (value : Nat)
    (digits : List Char) :
    value ≤ digits.foldl extend value := by
  induction digits generalizing value with
  | nil => exact Nat.le_refl _
  | cons digit digits ih =>
      have hRest := ih (extend value digit)
      rw [List.foldl_cons]
      simp only [extend] at hRest ⊢
      omega

/- Zeros in front do not change the number. -/
theorem decimalValue_zeros
    (zeros : Nat)
    (digits : List Char) :
    decimalValue (List.replicate zeros '0' ++ digits) =
      decimalValue digits := by
  induction zeros with
  | zero => rfl
  | succ zeros ih =>
      rw [List.replicate_succ, List.cons_append, ← ih]
      rfl

end Analysis

end OnePass

------------------------------------------------------------
-- Numbers Of 64 Bits
------------------------------------------------------------

namespace OnePass

namespace Analysis

section Word

variable {left right result value : UInt64}
variable {char : Char}

theorem product?_eq_some_iff :
    product? left right = some result ↔
      left.toNat * right.toNat = result.toNat := by
  have hBound := result.toNat_lt_size
  rw [product?]
  split
  · next hFits =>
      rw [Option.some_inj, ← UInt64.toNat_inj,
        UInt64.toNat_mul, Nat.mod_eq_of_lt hFits]
  · next hOver =>
      constructor
      · intro hNone
        cases hNone
      · intro hSame
        omega

theorem sum?_eq_some_iff :
    sum? left right = some result ↔
      left.toNat + right.toNat = result.toNat := by
  have hBound := result.toNat_lt_size
  rw [sum?]
  split
  · next hFits =>
      rw [Option.some_inj, ← UInt64.toNat_inj,
        UInt64.toNat_add, Nat.mod_eq_of_lt hFits]
  · next hOver =>
      constructor
      · intro hNone
        cases hNone
      · intro hSame
        omega

/- Digits have values below ten. -/
theorem placeValue_lt
    (hDigit : char.isDigit = true) :
    placeValue char < 10 := by
  have hRange := Char.isDigit_iff_toNat.mp hDigit
  have hZero : '0'.toNat = 48 := rfl
  have hNine : '9'.toNat = 57 := rfl
  simp only [placeValue]
  omega

theorem digit?_eq_some_iff :
    digit? char = some result ↔
      char.isDigit = true ∧ placeValue char = result.toNat := by
  rw [digit?]
  split
  · next hDigit =>
      have hSmall := placeValue_lt hDigit
      have hWord :
          (char.toNat - '0'.toNat).toUInt64.toNat =
            placeValue char := by
        rw [Nat.toUInt64, UInt64.toNat_ofNat_of_lt']
        · rfl
        · have hSize : UInt64.size = 2 ^ 64 := rfl
          simp only [placeValue] at hSmall
          omega
      rw [Option.some_inj, ← UInt64.toNat_inj, hWord]
      simp [hDigit]
  · next hOther => simp [hOther]

/-
  One step of reading: the digit is appended exactly if the
  longer number still has 64 bits. Multiplying by ten is no
  obstacle then, for the product is not larger.
-/
theorem withDigit?_eq_some_iff :
    withDigit? value char = some result ↔
      char.isDigit = true ∧
        extend value.toNat char = result.toNat := by
  simp only [withDigit?, Option.bind_eq_bind,
    Option.bind_eq_some_iff, product?_eq_some_iff,
    digit?_eq_some_iff, sum?_eq_some_iff]
  constructor
  · rintro ⟨shifted, hShifted, digit, ⟨hDigit, hPlace⟩,
      hResult⟩
    refine ⟨hDigit, ?_⟩
    rw [extend, hPlace, ← hResult, ← hShifted, Nat.mul_comm]
    rfl
  · rintro ⟨hDigit, hResult⟩
    have hBound := result.toNat_lt_size
    have hSmall := placeValue_lt hDigit
    have hSize : UInt64.size = 2 ^ 64 := rfl
    simp only [extend] at hResult
    have hProduct :
        (UInt64.ofNat (10 * value.toNat)).toNat =
          10 * value.toNat :=
      UInt64.toNat_ofNat_of_lt' (by omega)
    have hPlace :
        (UInt64.ofNat (placeValue char)).toNat =
          placeValue char :=
      UInt64.toNat_ofNat_of_lt' (by omega)
    refine
      ⟨.ofNat (10 * value.toNat), ?_,
        .ofNat (placeValue char), ⟨hDigit, hPlace.symm⟩, ?_⟩
    · rw [hProduct, Nat.mul_comm]
      rfl
    · rw [hProduct, hPlace, hResult]

/-
  Digits are read after a number exactly if all of them are
  digits and 64 bits are enough for the number at the end.
  The numbers in between are not larger than that.
-/
theorem foldlM_withDigit?_eq_some_iff
    (digits : List Char) :
    digits.foldlM withDigit? value = some result ↔
      (∀ digit ∈ digits, digit.isDigit = true) ∧
        digits.foldl extend value.toNat = result.toNat := by
  induction digits generalizing value with
  | nil => simp [← UInt64.toNat_inj]
  | cons digit digits ih =>
      rw [List.foldlM_cons, Option.bind_eq_bind,
        Option.bind_eq_some_iff, List.foldl_cons,
        List.forall_mem_cons]
      constructor
      · rintro ⟨next, hNext, hRest⟩
        rcases withDigit?_eq_some_iff.mp hNext with
          ⟨hDigit, hValue⟩
        rcases ih.mp hRest with ⟨hDigits, hResult⟩
        rw [hValue]
        exact ⟨⟨hDigit, hDigits⟩, hResult⟩
      · rintro ⟨⟨hDigit, hDigits⟩, hResult⟩
        have hBound := result.toNat_lt_size
        have hGrows :=
          le_foldl_extend (extend value.toNat digit) digits
        have hNext :
            (UInt64.ofNat (extend value.toNat digit)).toNat =
              extend value.toNat digit :=
          UInt64.toNat_ofNat_of_lt' (by omega)
        refine
          ⟨.ofNat (extend value.toNat digit),
            withDigit?_eq_some_iff.mpr ⟨hDigit, hNext.symm⟩,
            ih.mpr ⟨hDigits, ?_⟩⟩
        rw [hNext, hResult]

end Word

/- A number of 64 bits is read exactly if there is one. -/
theorem number?_eq_some_iff
    {text : String}
    {result : UInt64} :
    number? text = some result ↔
      unsigned text.toList ≠ [] ∧
        (∀ digit ∈ unsigned text.toList,
            digit.isDigit = true) ∧
          decimalValue (unsigned text.toList) =
            result.toNat := by
  simp only [number?]
  split
  · next hEmpty =>
      simp [List.isEmpty_iff.mp hEmpty]
  · next hSome =>
      rw [foldlM_withDigit?_eq_some_iff]
      have hDigits : unsigned text.toList ≠ [] :=
        fun hNil => hSome (List.isEmpty_iff.mpr hNil)
      exact (and_iff_right hDigits).symm

theorem isByteLiteral_iff
    {text : String} :
    isByteLiteral text = true ↔
      unsigned text.toList ≠ [] ∧
        (∀ digit ∈ unsigned text.toList,
            digit.isDigit = true) ∧
          decimalValue (unsigned text.toList) ≤ byteMax := by
  simp [isByteLiteral, and_assoc]

/-
  What is read in 64 bits as a byte denotes a byte, and all
  bytes can be read that way.
-/
theorem fitsByte_eq_isByteLiteral
    (text : String) :
    fitsByte text = isByteLiteral text := by
  rw [Bool.eq_iff_iff, isByteLiteral_iff]
  simp only [fitsByte]
  constructor
  · intro hFits
    split at hFits
    · next value hValue =>
        rcases number?_eq_some_iff.mp hValue with
          ⟨hSome, hDigits, hSame⟩
        rw [hSame]
        exact ⟨hSome, hDigits, of_decide_eq_true hFits⟩
    · cases hFits
  · rintro ⟨hSome, hDigits, hByte⟩
    have hWord :
        (UInt64.ofNat
            (decimalValue (unsigned text.toList))).toNat =
          decimalValue (unsigned text.toList) := by
      apply UInt64.toNat_ofNat_of_lt'
      have hSize : byteMax < UInt64.size := by decide
      omega
    rw [number?_eq_some_iff.mpr
      ⟨hSome, hDigits, hWord.symm⟩]
    simpa [hWord] using hByte

end Analysis

end OnePass

------------------------------------------------------------
-- Byte Literals
------------------------------------------------------------

namespace OnePass

namespace Analysis

/-
  The text is a plus sign or nothing, followed by digits that
  denote the value. There is at least one digit, and there
  may be any number of them.
-/
def Denotes
    (text : String)
    (value : Nat) : Prop :=
  ∃ sign digits,
    text = sign ++ String.ofList digits ∧
      (sign = "" ∨ sign = "+") ∧
        digits ≠ [] ∧
          (∀ digit ∈ digits, digit.isDigit = true) ∧
            Nat.ofDigits 10 (digits.map placeValue).reverse =
              value

/- A plus sign is left out, and nothing else. -/
theorem exists_sign
    (text : String) :
    ∃ sign,
      text = sign ++ String.ofList (unsigned text.toList) ∧
        (sign = "" ∨ sign = "+") := by
  cases hText : text.toList with
  | nil =>
      refine ⟨"", ?_, .inl rfl⟩
      rw [← String.toList_inj, hText]
      rfl
  | cons first rest =>
      by_cases hPlus : first = '+'
      · refine ⟨"+", ?_, .inr rfl⟩
        rw [← String.toList_inj, hText, hPlus]
        simp [unsigned]
      · refine ⟨"", ?_, .inl rfl⟩
        rw [← String.toList_inj, hText]
        simp [unsigned, hPlus]

/- No plus sign is left out of digits. -/
theorem unsigned_of_digits
    {digits : List Char}
    (hDigits : ∀ digit ∈ digits, digit.isDigit = true) :
    unsigned digits = digits := by
  cases digits with
  | nil => rfl
  | cons first rest =>
      have hFirst := hDigits first (List.mem_cons_self ..)
      by_cases hPlus : first = '+'
      · rw [hPlus] at hFirst
        cases hFirst
      · simp [unsigned, hPlus]

theorem denotes_iff
    {text : String}
    {value : Nat} :
    Denotes text value ↔
      unsigned text.toList ≠ [] ∧
        (∀ digit ∈ unsigned text.toList,
            digit.isDigit = true) ∧
          decimalValue (unsigned text.toList) = value := by
  constructor
  · rintro ⟨sign, digits, rfl, hSign, hSome, hDigits, hValue⟩
    have hUnsigned :
        unsigned (sign ++ String.ofList digits).toList =
          digits := by
      rw [String.toList_append, String.toList_ofList]
      rcases hSign with rfl | rfl
      · exact unsigned_of_digits hDigits
      · rfl
    rw [hUnsigned, decimalValue_eq_ofDigits]
    exact ⟨hSome, hDigits, hValue⟩
  · rintro ⟨hSome, hDigits, hValue⟩
    rcases exists_sign text with ⟨sign, hText, hSign⟩
    rw [decimalValue_eq_ofDigits] at hValue
    exact ⟨sign, _, hText, hSign, hSome, hDigits, hValue⟩

theorem fitsByte_iff_denotes
    {text : String} :
    fitsByte text = true ↔
      ∃ value, Denotes text value ∧ value ≤ 255 := by
  rw [fitsByte_eq_isByteLiteral, isByteLiteral_iff]
  simp only [denotes_iff]
  constructor
  · rintro ⟨hSome, hDigits, hByte⟩
    exact ⟨_, ⟨hSome, hDigits, rfl⟩, hByte⟩
  · rintro ⟨_, ⟨hSome, hDigits, rfl⟩, hByte⟩
    exact ⟨hSome, hDigits, hByte⟩

/- A text denotes one number. -/
theorem Denotes.unique
    {text : String}
    {first second : Nat}
    (hFirst : Denotes text first)
    (hSecond : Denotes text second) :
    first = second :=
  (denotes_iff.mp hFirst).2.2.symm.trans
    (denotes_iff.mp hSecond).2.2

/- Zeros between the sign and the digits change nothing. -/
theorem Denotes.zeros
    {sign : String}
    {digits : List Char}
    {value : Nat}
    (hSign : sign = "" ∨ sign = "+")
    (hSome : digits ≠ [])
    (hDigits : ∀ digit ∈ digits, digit.isDigit = true)
    (hValue :
      Nat.ofDigits 10 (digits.map placeValue).reverse = value)
    (zeros : Nat) :
    Denotes
      (sign ++
        String.ofList (List.replicate zeros '0' ++ digits))
      value := by
  refine ⟨sign, _, rfl, hSign, by simp [hSome], ?_, ?_⟩
  · intro digit hMem
    rcases List.mem_append.mp hMem with hZero | hDigit
    · rw [List.eq_of_mem_replicate hZero]
      rfl
    · exact hDigits digit hDigit
  · rw [← decimalValue_eq_ofDigits, decimalValue_zeros,
      decimalValue_eq_ofDigits, hValue]

end Analysis

open Analysis (Denotes)

/-
  A byte literal is accepted exactly if its digits, after an
  optional plus sign, denote a number of at most 255, however
  many digits there are. Any other text is a finding that
  quotes it: also one for whose number 64 bits are not
  enough. Zeros in front of a byte are accepted in any
  number.
-/
theorem byteLiteral_of_unbounded_value
    (symbols : Symbols)
    (span : Span) :
    (∀ text,
      Analysis.valueType symbols (.byteLiteral text span) =
          .ok .byte ↔
        ∃ value, Denotes text value ∧ value ≤ 255) ∧
      (∀ text,
        (¬∃ value, Denotes text value ∧ value ≤ 255) →
          Analysis.valueType symbols
              (.byteLiteral text span) =
            .error (.finding
              (.located (.byteOutOfRange text) span.line
                span))) ∧
        (∀ text value,
          Denotes text value → 2 ^ 64 ≤ value →
            Analysis.valueType symbols
                (.byteLiteral text span) =
              .error (.finding
                (.located (.byteOutOfRange text) span.line
                  span))) ∧
          ∀ sign zeros digits,
            (sign = "" ∨ sign = "+") →
              digits ≠ [] →
                (∀ digit ∈ digits, digit.isDigit = true) →
                  Nat.ofDigits 10
                      (digits.map
                        Analysis.placeValue).reverse ≤ 255 →
                    Analysis.valueType symbols
                        (.byteLiteral
                          (sign ++
                            String.ofList
                              (List.replicate zeros '0' ++
                                digits))
                          span) =
                      .ok .byte := by
  have hAccepted :
      ∀ text,
        Analysis.valueType symbols (.byteLiteral text span) =
            .ok .byte ↔
          ∃ value, Denotes text value ∧ value ≤ 255 := by
    intro text
    rw [← Analysis.fitsByte_iff_denotes, Analysis.valueType]
    split
    · next hFits => simp [hFits]
    · next hFits => simp [hFits, Analysis.reject]
  have hRefused :
      ∀ text,
        (¬∃ value, Denotes text value ∧ value ≤ 255) →
          Analysis.valueType symbols
              (.byteLiteral text span) =
            .error (.finding
              (.located (.byteOutOfRange text) span.line
                span)) := by
    intro text hText
    rw [← Analysis.fitsByte_iff_denotes] at hText
    rw [Analysis.valueType, if_neg hText]
    rfl
  refine ⟨hAccepted, hRefused, ?_, ?_⟩
  · intro text value hValue hLarge
    apply hRefused
    rintro ⟨other, hOther, hByte⟩
    have hSame := hValue.unique hOther
    omega
  · intro sign zeros digits hSign hSome hDigits hByte
    exact
      (hAccepted _).mpr
        ⟨_, .zeros hSign hSome hDigits rfl zeros, hByte⟩

/- A sign, zeros, the largest byte, and numbers past it. -/
example :
    ["+007", "255", "256", "18446744073709551616", "+", "-0",
        ""].map Analysis.fitsByte =
      [true, true, false, false, false, false, false] := by
  decide

end OnePass

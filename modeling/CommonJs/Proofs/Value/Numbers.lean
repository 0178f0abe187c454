import CommonJs.Value.Json
import Mathlib.Tactic.NormNum
import Mathlib.Tactic.Positivity
import Mathlib.Tactic.Ring

/-!
# Numbers that are read back

A number in JSON is an integer or a float. Integers of up to 53 bits are
floats: the bits of the integer are moved to the front of the mantissa and back
without loss. What is written as an integer has no more bits, so a number that
is written and read back is written the same.
-/

namespace CommonJs

open Float.Model Float.Model.UnpackedFloat

/-! ## Integers that are floats -/

/-- Zeros at the end are shifted out without loss. -/
theorem shift_exact (mantissa count : Nat) :
    ExtendedMantissa.ofMantissaAndAccuracy (mantissa * 2 ^ count)
        .exact >>> count =
      ExtendedMantissa.ofMantissaAndAccuracy mantissa .exact := by
  show Nat.repeat ExtendedMantissa.shiftRightOne count _ = _
  induction count generalizing mantissa with
  | zero => rw [Nat.pow_zero, Nat.mul_one]; rfl
  | succ count inductionHypothesis =>
      have twice : mantissa * 2 ^ (count + 1) = mantissa * 2 * 2 ^ count := by
        ring
      rw [Nat.repeat, twice, inductionHypothesis]
      simp [ExtendedMantissa.shiftRightOne,
        ExtendedMantissa.ofMantissaAndAccuracy]

section Normal

variable {mantissa : Nat} {exponent : Int}

/-- A mantissa of 53 bits. -/
structure Normal (mantissa : Nat) : Prop where
  /-- The first bit is set. -/
  low : 2 ^ 52 ≤ mantissa
  /-- There are no more bits. -/
  high : mantissa < 2 ^ 53

theorem Normal.pos (normal : Normal mantissa) : 0 < mantissa :=
  Nat.lt_of_lt_of_le (by norm_num) normal.low

/-- Each zero at the end is one more bit. -/
theorem Normal.log2_mul (normal : Normal mantissa) (count : Nat) :
    (mantissa * 2 ^ count).log2 = 52 + count := by
  rw [Nat.log2_eq_iff (Nat.mul_ne_zero normal.pos.ne' (by positivity))]
  constructor
  · rw [pow_add]
    exact Nat.mul_le_mul_right _ normal.low
  · rw [show 52 + count + 1 = 53 + count by omega, pow_add]
    exact Nat.mul_lt_mul_of_pos_right normal.high (by positivity)

theorem targetExponent_eq
    (least : -1074 ≤ exponent)
    (normal : Normal mantissa)
    (count : Nat) :
    Format.binary64.targetExponent
        (totalExponent (mantissa * 2 ^ count) (exponent - count)) =
      exponent := by
  rw [Format.targetExponent, totalExponent, normal.log2_mul]
  have bits : (Format.binary64.mantissaBits : Int) = 53 := rfl
  have lowest : Format.binary64.minExponent = -1074 := by decide
  rw [bits, lowest]
  omega

/-- To bring a mantissa to 53 bits takes off the zeros that it was given. -/
theorem shiftToTargetExponent_eq
    (normal : Normal mantissa)
    (least : -1074 ≤ exponent)
    (count : Nat) :
    shiftToTargetExponent .binary64 (mantissa * 2 ^ count)
        (exponent - count) .exact =
      (.ofMantissaAndAccuracy mantissa .exact, exponent) := by
  have distance : (exponent - (exponent - (count : Int))).toNat = count := by
    omega
  rw [shiftToTargetExponent, targetExponent_eq least normal, shiftToExponent,
    distance]
  simp only [shift_exact, Int.sub_add_cancel]

/-- A mantissa of 53 bits is kept when it is rounded, also where zeros were
added to it. -/
theorem roundWithAccuracy_eq
    (normal : Normal mantissa)
    (least : -1074 ≤ exponent)
    (sign : Sign)
    (count : Nat) :
    roundWithAccuracy .binary64 sign (mantissa * 2 ^ count)
        (exponent - count) .exact =
      .finite sign mantissa exponent normal.pos := by
  have again := shiftToTargetExponent_eq normal least 0
  rw [Nat.pow_zero, Nat.mul_one, Nat.cast_zero, Int.sub_zero] at again
  have rounded : (ExtendedMantissa.ofMantissaAndAccuracy mantissa
        .exact).roundedMantissa =
      mantissa := rfl
  rw [roundWithAccuracy, shiftToTargetExponent_eq normal least]
  dsimp only
  rw [rounded, again]
  exact dif_neg normal.pos.ne'

/-- A float whose exponent has bits of both kinds is a normal one. -/
theorem unpack_of_exponent
    {bits : BitVec Format.binary64.numBits}
    {sign : Sign}
    (notFull : unpackExponent bits ≠ -1#11)
    (notEmpty : unpackExponent bits ≠ 0#11)
    (positive : 0 < mantissa)
    (isSign : Sign.ofBitVec (unpackSign bits) = sign)
    (isMantissa : (1#1 ++ unpackMantissa bits).toNat = mantissa)
    (isExponent : ((unpackExponent bits).toNat : Int) - 1075 = exponent) :
    UnpackedFloat.unpack .binary64 bits =
      .finite sign mantissa exponent positive := by
  subst isSign isMantissa isExponent
  exact (if_neg notFull).trans (if_neg notEmpty)

/-- The sign is the first bit. -/
theorem unpackSign_packComponents
    (sign : Sign)
    (exponentBits : BitVec 11)
    (mantissaBits : BitVec 52) :
    unpackSign (packComponents .binary64 sign exponentBits mantissaBits) =
      sign.toBitVec := by
  change (sign.toBitVec ++ exponentBits ++ mantissaBits).extractLsb' 63 1 = _
  rw [BitVec.extractLsb'_append_eq_of_le (by decide),
    BitVec.extractLsb'_append_eq_of_le (by decide)]
  cases sign <;> rfl

/-- The parts of a normal float are found again where they were packed. -/
theorem unpack_packComponents
    {sign : Sign}
    {exponentBits : BitVec 11}
    {mantissaBits : BitVec 52}
    (notFull : exponentBits ≠ -1#11)
    (notEmpty : exponentBits ≠ 0#11)
    (positive : 0 < mantissa)
    (isMantissa : (1#1 ++ mantissaBits).toNat = mantissa)
    (isExponent : (exponentBits.toNat : Int) - 1075 = exponent) :
    UnpackedFloat.unpack .binary64
        (packComponents .binary64 sign exponentBits mantissaBits) =
      .finite sign mantissa exponent positive := by
  refine unpack_of_exponent ?_ ?_ positive ?_ ?_ ?_
  · rwa [unpackExponent_packComponents]
  · rwa [unpackExponent_packComponents]
  · rw [unpackSign_packComponents]
    cases sign <;> rfl
  · rwa [unpackMantissa_packComponents]
  · rwa [unpackExponent_packComponents]

/-- A normal float is packed as its exponent, counted from the least one, and
the bits of its mantissa after the first. -/
theorem pack_finite
    (normal : Normal mantissa)
    (least : -1074 ≤ exponent)
    (greatest : exponent ≤ 971)
    (sign : Sign) :
    UnpackedFloat.pack .binary64 (.finite sign mantissa exponent normal.pos) =
      packComponents .binary64 sign (BitVec.ofNat 11 (exponent + 1075).toNat)
        (BitVec.ofNat 52 mantissa) := by
  have biased : (exponent + Format.binary64.exponentBias +
      Format.binary64.mantissaBitsWithoutImplicit).toNat =
        (exponent + 1075).toNat := by
    have bias : (Format.binary64.exponentBias : Int) = 1023 := rfl
    have bits : (Format.binary64.mantissaBitsWithoutImplicit : Int) = 52 := rfl
    rw [bias, bits]
    omega
  have bits := normal.log2_mul 0
  rw [Nat.pow_zero, Nat.mul_one] at bits
  show (if 2 ^ Format.binary64.exponentBits ≤
      (exponent + Format.binary64.exponentBias +
        Format.binary64.mantissaBitsWithoutImplicit).toNat + 1 then _
    else if mantissa.log2 + 1 = Format.binary64.mantissaBits then
      packComponents .binary64 sign
        (BitVec.ofNat _ (exponent + Format.binary64.exponentBias +
          Format.binary64.mantissaBitsWithoutImplicit).toNat)
        (BitVec.ofNat _ mantissa)
    else _) = _
  have most : 2 ^ Format.binary64.exponentBits = 2048 := rfl
  rw [biased, bits, most, if_neg (by omega)]
  exact if_pos rfl

/-- The first bit of a mantissa is set, and need not be packed. -/
theorem Normal.toNat_append_ofNat (normal : Normal mantissa) :
    (1#1 ++ BitVec.ofNat 52 mantissa).toNat = mantissa := by
  have low := normal.low
  have high := normal.high
  have tail : mantissa % 2 ^ 52 = mantissa - 2 ^ 52 := by omega
  rw [BitVec.toNat_append, BitVec.toNat_ofNat, BitVec.toNat_ofNat, tail,
    ← Nat.shiftLeft_add_eq_or_of_lt (by omega), Nat.shiftLeft_eq]
  omega

/-- A mantissa of 53 bits is kept when it is packed. -/
theorem unpack_pack
    (normal : Normal mantissa)
    (least : -1074 ≤ exponent)
    (greatest : exponent ≤ 971)
    (sign : Sign) :
    (Float.Model.pack (.finite sign mantissa exponent normal.pos)).unpack =
      .finite sign mantissa exponent normal.pos := by
  have exponentBits : (BitVec.ofNat 11 (exponent + 1075).toNat).toNat =
      (exponent + 1075).toNat := by
    rw [BitVec.toNat_ofNat, Nat.mod_eq_of_lt (by omega)]
  -- Exponents with no bit set, or with all of them set, are reserved.
  have differs : ∀ bits : BitVec 11,
      bits.toNat = 0 ∨ bits.toNat = 2047 →
        BitVec.ofNat 11 (exponent + 1075).toNat ≠ bits := by
    rintro bits reserved rfl
    rw [exponentBits] at reserved
    omega
  show UnpackedFloat.unpack .binary64 (UnpackedFloat.pack .binary64 _) = _
  rw [pack_finite normal least greatest]
  refine unpack_packComponents (differs _ (.inr rfl)) (differs _ (.inl rfl))
    normal.pos normal.toNat_append_ofNat ?_
  rw [exponentBits]
  omega

end Normal

section Integers

variable {value : Nat}

/-- How many zeros an integer has to be followed by to have 53 bits. -/
def missingBits (value : Nat) : Nat :=
  52 - value.log2

/-- An integer of up to 53 bits is brought to exactly 53 by zeros at the end. -/
theorem normal_of_lt
    (positive : 0 < value)
    (small : value < 2 ^ 53) : Normal (value * 2 ^ missingBits value) := by
  have atMost : value.log2 ≤ 52 :=
    Nat.lt_succ_iff.mp ((Nat.log2_lt positive.ne').mpr small)
  have whole : value.log2 + missingBits value = 52 := Nat.add_sub_cancel' atMost
  constructor
  · calc 2 ^ 52 = 2 ^ value.log2 * 2 ^ missingBits value := by
           rw [← pow_add, whole]
      _ ≤ value * 2 ^ missingBits value :=
          Nat.mul_le_mul_right _ (Nat.log2_self_le positive.ne')
  · calc value * 2 ^ missingBits value <
           2 ^ (value.log2 + 1) * 2 ^ missingBits value :=
          Nat.mul_lt_mul_of_pos_right Nat.lt_log2_self (by positivity)
      _ = 2 ^ 53 := by rw [← pow_add]; congr 1; omega

theorem missingBits_ge
    (value : Nat) : (-1074 : Int) ≤ -(missingBits value : Int) := by
  have atMost : missingBits value ≤ 52 := Nat.sub_le 52 value.log2
  omega

/-- The exponent goes down by the zeros that are added. -/
theorem targetExponent_of_lt
    (positive : 0 < value)
    (small : value < 2 ^ 53) :
    Format.binary64.targetExponent (totalExponent value 0) =
      -(missingBits value : Int) := by
  have atMost : value.log2 ≤ 52 :=
    Nat.lt_succ_iff.mp ((Nat.log2_lt positive.ne').mpr small)
  have bits : (Format.binary64.mantissaBits : Int) = 53 := rfl
  have lowest : Format.binary64.minExponent = -1074 := by decide
  rw [Format.targetExponent, totalExponent, bits, lowest, missingBits]
  omega

theorem decreaseExponent_missingBits (value : Nat) :
    decreaseExponent value 0 (-(missingBits value : Int)) =
      (value * 2 ^ missingBits value, -(missingBits value : Int)) := by
  rw [decreaseExponent]
  simp only [Nat.shiftLeft_eq, Int.zero_sub, Int.neg_neg, Int.toNat_natCast]

/-- An integer becomes a float by bringing it to 53 bits. -/
theorem unpack_toFloat
    (positive : 0 < value)
    (small : value < 2 ^ 53) :
    value.toUInt64.toFloat.toModel.unpack =
      .finite .positive (value * 2 ^ missingBits value)
        (-(missingBits value : Int))
        (normal_of_lt positive small).pos := by
  have normal := normal_of_lt positive small
  have sameValue : value.toUInt64.toNat = value := by
    rw [UInt64.toNat_ofNat']
    exact Nat.mod_eq_of_lt (by omega)
  have rounded : UnpackedFloat.ofUInt64 .binary64 value.toUInt64 =
      .finite .positive (value * 2 ^ missingBits value)
        (-(missingBits value : Int))
        normal.pos := by
    have above : compare (value : Int) 0 = .gt := by
      rw [compare_gt_iff_gt]
      exact_mod_cast positive
    have kept := roundWithAccuracy_eq normal (missingBits_ge value) .positive 0
    rw [Nat.pow_zero, Nat.mul_one, Nat.cast_zero, Int.sub_zero] at kept
    rw [UnpackedFloat.ofUInt64, sameValue, UnpackedFloat.ofNat,
      UnpackedFloat.ofInt, UnpackedFloat.normalize, above]
    show UnpackedFloat.round .binary64 .positive value 0 = _
    rw [UnpackedFloat.round, targetExponent_of_lt positive small,
      decreaseExponent_missingBits]
    exact kept
  show (Float.Model.pack
    (UnpackedFloat.ofUInt64 .binary64 value.toUInt64)).unpack = _
  rw [rounded]
  exact unpack_pack normal (missingBits_ge value) (by omega) .positive

/-- The product of floats is rounded once. -/
theorem mul_finite_positive
    {mantissa other : Nat}
    {exponent otherExponent : Int}
    (positive : 0 < mantissa)
    (otherPositive : 0 < other) :
    UnpackedFloat.mul .binary64 (.finite .positive mantissa exponent positive)
        (.finite .positive other otherExponent otherPositive) =
      roundWithAccuracy .binary64 .positive (mantissa * other)
        (exponent + otherExponent) .exact := by
  rfl

/-- A natural number becomes a float as its integer of 64 bits does. -/
theorem unpack_ofNat
    (positive : 0 < value)
    (small : value < 2 ^ 53) :
    (Float.ofNat value).toModel.unpack =
      .finite .positive (value * 2 ^ missingBits value)
        (-(missingBits value : Int))
        (normal_of_lt positive small).pos := by
  have normal := normal_of_lt positive small
  have product : (Float.ofNat value).toModel =
      value.toUInt64.toFloat.toModel *
        (Float.exactlyRepresentablePowersOfTen[0]).toModel := by
    show (Float.ofScientific value false 0).toModel = _
    rw [Float.ofScientific, dif_pos ⟨small, by decide⟩]
    rfl
  have one : (Float.exactlyRepresentablePowersOfTen[0]).toModel.unpack =
      .finite .positive (2 ^ 52) (-52) (by positivity) := rfl
  rw [product]
  show (Float.Model.pack (UnpackedFloat.mul .binary64 _ _)).unpack = _
  rw [unpack_toFloat positive small, one, mul_finite_positive,
    ← Int.sub_eq_add_neg]
  have kept := roundWithAccuracy_eq normal (missingBits_ge value) .positive 52
  exact (congrArg (fun unpacked => (Float.Model.pack unpacked).unpack)
      kept).trans
    (unpack_pack normal (missingBits_ge value) (by omega) .positive)

/-- The number of zeros is what an exact integer is shifted back by. -/
theorem roundToInt_eq (sign : Sign) (value : Nat) :
    roundToInt sign (value * 2 ^ missingBits value)
        (-(missingBits value : Int)) =
      sign.apply value := by
  have none : (-(missingBits value : Int) - 0).toNat = 0 := by omega
  have back : (0 - (-(missingBits value : Int) - (0 : Nat))).toNat =
      missingBits value := by omega
  rw [roundToInt, decreaseExponent]
  simp only [none, Nat.shiftLeft_zero, shiftToExponent, back, shift_exact]
  rfl

/-- The sign of an integer is that of its float. -/
theorem unpack_ofInt
    {value : Int}
    (positive : 0 < value.natAbs)
    (small : value.natAbs < 2 ^ 53) :
    ∃ sign, sign.apply value.natAbs = value ∧
      (Float.ofInt value).toModel.unpack =
        .finite sign (value.natAbs * 2 ^ missingBits value.natAbs)
          (-(missingBits value.natAbs : Int))
          (normal_of_lt positive small).pos := by
  have normal := normal_of_lt positive small
  cases value with
  | ofNat value => exact ⟨.positive, rfl, unpack_ofNat positive small⟩
  | negSucc value =>
      refine ⟨.negative, rfl, ?_⟩
      show (Float.Model.pack
        (Float.ofNat value.succ).toModel.unpack.neg).unpack = _
      have unpacked : (Float.ofNat value.succ).toModel.unpack = _ :=
        unpack_ofNat positive small
      rw [unpacked]
      exact unpack_pack normal (missingBits_ge _) (by omega) .negative

theorem unpack_abs_ofInt
    {value : Int}
    (positive : 0 < value.natAbs)
    (small : value.natAbs < 2 ^ 53) :
    (Float.ofInt value).abs.toModel.unpack =
      .finite .positive (value.natAbs * 2 ^ missingBits value.natAbs)
        (-(missingBits value.natAbs : Int))
        (normal_of_lt positive small).pos := by
  obtain ⟨sign, -, unpacked⟩ := unpack_ofInt positive small
  show (Float.Model.pack (Float.ofInt value).toModel.unpack.abs).unpack = _
  rw [unpacked]
  exact unpack_pack (normal_of_lt positive small) (missingBits_ge _) (by omega)
    .positive

/-- An integer is found again in its float. -/
theorem truncated_ofInt
    {value : Int}
    (positive : 0 < value.natAbs)
    (small : value.natAbs < 2 ^ 53) :
    truncated (Float.ofInt value) = value := by
  obtain ⟨sign, applied, unpacked⟩ := unpack_ofInt positive small
  have magnitude : (Float.ofInt value).abs.toUInt64.toNat = value.natAbs := by
    show (UnpackedFloat.toUInt64
      (Float.ofInt value).abs.toModel.unpack).toNat = _
    rw [unpack_abs_ofInt positive small]
    show (UInt64.ofNatClamp
      (roundToInt .positive (value.natAbs * 2 ^ missingBits value.natAbs)
        (-(missingBits value.natAbs : Int))).toNat).toNat = _
    rw [roundToInt_eq]
    show (UInt64.ofNatClamp value.natAbs).toNat = _
    have fits : value.natAbs < UInt64.size := small.trans (by decide)
    rw [UInt64.ofNatClamp, dif_pos fits]
    exact UInt64.toNat_ofNatLT
  have isBelow : Float.ofInt value < 0 ↔ sign = .negative := by
    have zero : (0 : Float).toModel.unpack = .zero .positive := rfl
    show decide ((Float.ofInt value).toModel < (0 : Float).toModel) = true ↔ _
    rw [decide_eq_true_iff]
    show UnpackedFloat.lt (Float.ofInt value).toModel.unpack
      (0 : Float).toModel.unpack = true ↔ _
    rw [unpacked, zero]
    cases sign with
    | negative => exact iff_of_true rfl rfl
    | positive =>
        exact iff_of_false Bool.false_ne_true fun same => by cases same
  simp only [truncated, magnitude]
  cases sign with
  | negative =>
      rw [if_pos (isBelow.mpr rfl)]
      exact applied
  | positive =>
      rw [if_neg fun below => by cases isBelow.mp below]
      exact applied

/-- The largest safe integer has all 53 bits set. -/
theorem unpack_largestSafeInteger :
    largestSafeInteger.toModel.unpack =
      .finite .positive 9007199254740991 0 (by decide) := by
  rfl

/-- Floats that are not negative compare by their exponents first. -/
theorem le_finite_positive
    {mantissa other : Nat}
    {exponent otherExponent : Int}
    (positive : 0 < mantissa)
    (otherPositive : 0 < other) :
    UnpackedFloat.le (.finite .positive mantissa exponent positive)
        (.finite .positive other otherExponent otherPositive) =
      ((compare exponent otherExponent).then
        (compare mantissa other)).isLE := by
  rfl

/-- An integer of up to 53 bits is safe. -/
theorem abs_ofInt_le
    {value : Int}
    (positive : 0 < value.natAbs)
    (small : value.natAbs < 2 ^ 53) :
    (Float.ofInt value).abs ≤ largestSafeInteger := by
  show decide
    ((Float.ofInt value).abs.toModel ≤ largestSafeInteger.toModel) = true
  rw [decide_eq_true_iff]
  show UnpackedFloat.le (Float.ofInt value).abs.toModel.unpack
    largestSafeInteger.toModel.unpack = true
  rw [unpack_abs_ofInt positive small, unpack_largestSafeInteger,
    le_finite_positive]
  rcases Nat.eq_zero_or_pos (missingBits value.natAbs) with none | some
  · have atMost : (compare value.natAbs 9007199254740991).isLE = true :=
      Nat.isLE_compare.mpr (by omega)
    simpa [none] using atMost
  · have below : compare (-(missingBits value.natAbs : Int)) 0 = .lt :=
      compare_lt_iff_lt.mpr (by omega)
    simp [below]

/-- A float that is finite is equal to itself. -/
theorem beq_finite_self
    {mantissa : Nat}
    (sign : Sign)
    (exponent : Int)
    (positive : 0 < mantissa) :
    UnpackedFloat.beq (.finite sign mantissa exponent positive)
      (.finite sign mantissa exponent positive) = true := by
  have same : (compare exponent exponent).then (compare mantissa mantissa) =
      .eq := by simp
  cases sign with
  | negative =>
      show (some
          ((compare exponent exponent).then (compare mantissa mantissa)).swap ==
        some .eq) = true
      rw [same]
      rfl
  | positive =>
      show (some
          ((compare exponent exponent).then (compare mantissa mantissa)) ==
        some .eq) = true
      rw [same]
      rfl

/-- No integer becomes something that is no number. -/
theorem ofInt_beq_self
    {value : Int}
    (positive : 0 < value.natAbs)
    (small : value.natAbs < 2 ^ 53) :
    (Float.ofInt value == Float.ofInt value) = true := by
  obtain ⟨sign, -, unpacked⟩ := unpack_ofInt positive small
  show UnpackedFloat.beq (Float.ofInt value).toModel.unpack
    (Float.ofInt value).toModel.unpack = true
  rw [unpacked]
  exact beq_finite_self sign _ _

/-- An integer that floats hold exactly is written as it is read. -/
theorem numberToJson_ofInt {value : Int} (small : value.natAbs < 2 ^ 53) :
    numberToJson (Float.ofInt value) = .number (.integer value) := by
  have written : ((Float.ofInt value).abs ≤ largestSafeInteger &&
      Float.ofInt (truncated (Float.ofInt value)) == Float.ofInt value) = true ∧
      truncated (Float.ofInt value) = value := by
    rcases Nat.eq_zero_or_pos value.natAbs with zero | positive
    · rw [Int.natAbs_eq_zero.mp zero]
      decide +kernel
    · have same := truncated_ofInt positive small
      rw [same]
      simp [abs_ofInt_le positive small, ofInt_beq_self positive small]
  rw [numberToJson, if_pos written.1, written.2]

end Integers

/-! ## Integers that are written -/

/-- The mantissa of a float has at most 53 bits. -/
theorem mantissa_lt_of_unpack
    {bits : BitVec Format.binary64.numBits}
    {sign : Sign}
    {mantissa : Nat}
    {exponent : Int}
    {positive : 0 < mantissa}
    (unpacked : UnpackedFloat.unpack .binary64 bits =
      .finite sign mantissa exponent positive) :
    mantissa < 2 ^ 53 := by
  have whole : (1#1 ++ unpackMantissa bits).toNat < 2 ^ 53 := BitVec.isLt _
  have part : (unpackMantissa bits).toNat < 2 ^ 52 := BitVec.isLt _
  by_cases full : unpackExponent bits = -1#11
  · have special := (if_pos full).symm.trans unpacked
    by_cases empty : unpackMantissa bits = 0#52
    · cases (if_pos empty).symm.trans special
    · cases (if_neg empty).symm.trans special
  · have number := (if_neg full).symm.trans unpacked
    by_cases least : unpackExponent bits = 0#11
    · have subnormal := (if_pos least).symm.trans number
      by_cases empty : unpackMantissa bits = 0#52
      · cases (dif_pos empty).symm.trans subnormal
      · injection (dif_neg empty).symm.trans subnormal with _ same
        omega
    · injection (if_neg least).symm.trans number with _ same
      omega

/-- Bits that are shifted out are lost. -/
theorem mantissa_shiftRight_le (extended : ExtendedMantissa) (count : Nat) :
    (extended >>> count).mantissa ≤ extended.mantissa := by
  show (Nat.repeat ExtendedMantissa.shiftRightOne count extended).mantissa ≤ _
  induction count with
  | zero => exact Nat.le_refl _
  | succ count inductionHypothesis =>
      exact (Nat.div_le_self _ 2).trans inductionHypothesis

/-- To cut off the digits behind the point makes a mantissa no larger. -/
theorem toNat_roundToInt_positive_le
    {exponent : Int}
    (small : exponent ≤ 0)
    (mantissa : Nat) :
    (roundToInt .positive mantissa exponent).toNat ≤ mantissa := by
  have none : (exponent - 0).toNat = 0 := by omega
  rw [roundToInt, decreaseExponent]
  simp only [none, Nat.shiftLeft_zero, shiftToExponent]
  exact mantissa_shiftRight_le (.ofMantissaAndAccuracy mantissa .exact) _

theorem toNat_roundToInt_negative (mantissa : Nat) (exponent : Int) :
    (roundToInt .negative mantissa exponent).toNat = 0 := by
  simp [roundToInt, Sign.apply]

theorem toNat_ofNatClamp_le
    (number : Nat) : (UInt64.ofNatClamp number).toNat ≤ number := by
  unfold UInt64.ofNatClamp
  split
  next => exact Nat.le_of_eq UInt64.toNat_ofNatLT
  next large =>
    exact Nat.sub_le_of_le_add (Nat.le_succ_of_le (Nat.le_of_not_lt large))

/-- A float that is no larger than the largest safe integer is cut off to an
integer of at most 53 bits. -/
theorem natAbs_truncated_lt
    {number : Float}
    (small : number.abs ≤ largestSafeInteger) :
    (truncated number).natAbs < 2 ^ 53 := by
  have bounded :
      UnpackedFloat.le number.abs.toModel.unpack
        largestSafeInteger.toModel.unpack = true :=
    of_decide_eq_true small
  rw [unpack_largestSafeInteger] at bounded
  have magnitude : number.abs.toUInt64.toNat < 2 ^ 53 := by
    show (UnpackedFloat.toUInt64 number.abs.toModel.unpack).toNat < _
    cases unpacked : number.abs.toModel.unpack with
    | notANumber => decide
    | zero sign =>
        exact
          (by decide : (UnpackedFloat.zero .positive).toUInt64.toNat < 2 ^ 53)
    | infinity sign =>
        rw [unpacked] at bounded
        cases sign with
        | negative => decide
        | positive => cases bounded
    | finite sign mantissa exponent positive =>
        rw [unpacked] at bounded
        refine (toNat_ofNatClamp_le _).trans_lt ?_
        show (roundToInt sign mantissa exponent).toNat < _
        cases sign with
        | negative =>
            rw [toNat_roundToInt_negative]
            exact Nat.two_pow_pos 53
        | positive =>
            have whole : exponent ≤ 0 := by
              by_contra isPositive
              have above : compare exponent 0 = .gt :=
                compare_gt_iff_gt.mpr (by omega)
              rw [le_finite_positive, above] at bounded
              cases bounded
            exact (toNat_roundToInt_positive_le whole mantissa).trans_lt
              (mantissa_lt_of_unpack unpacked)
  simp only [truncated]
  split_ifs <;> omega

/-- A number that is written and read back is written the same. -/
theorem numberToJson_toFloat
    {number : Float}
    {leaf : JsonNumber}
    (written : numberToJson number = .number leaf) :
    numberToJson leaf.toFloat = .number leaf := by
  have again := written
  unfold numberToJson at written
  split_ifs at written with isInteger isFinite
  · obtain rfl := Json.number.inj written
    exact numberToJson_ofInt
      (natAbs_truncated_lt
        (of_decide_eq_true (Bool.and_eq_true_iff.mp isInteger).1))
  · obtain rfl := Json.number.inj written
    exact again

end CommonJs

import GameRules.Proofs.Amount
import GameRules.Proofs.Trigger

/-!
# Durations are read back

The literal of a duration is one amount of seconds or milliseconds, and reading it rounds three
times: the amount, its milliseconds and their seconds. Whole seconds pass through all three
unchanged as long as their milliseconds fit 53 binary digits up to a power of two. Whole
milliseconds are changed by the last one only, which is off by less than half a nanosecond up to 2²³
seconds. Any other duration was rounded three times before when it was written, and half a
nanosecond suffices up to 2²¹ seconds. Beyond these limits the literal is still read as a duration
that is close.
-/

namespace GameRules.Duration

/-- A number of seconds in range is a duration at most half a nanosecond away. -/
theorem exists_ofSeconds {seconds : Binary64} (natural : seconds.negative = false)
    (inRange : seconds.magnitude * 10 ^ 9 + 1 / 2 < 2 ^ 64 * 10 ^ 9) :
    ∃ duration, ofSeconds seconds = .ok duration ∧
      |(duration.nanoseconds : ℚ) - seconds.magnitude * 10 ^ 9| ≤ 1 / 2 := by
  have unit := Binary64.unitsPerOne_pos
  have scaled : (seconds.units * nanosPerSecond : ℚ) =
      seconds.magnitude * 10 ^ 9 * Binary64.unitsPerOne := by
    rw [Binary64.magnitude, mul_right_comm, div_mul_cancel₀ _ unit.ne', nanosPerSecond,
      Nat.cast_pow, Nat.cast_ofNat]
  obtain ⟨low, high⟩ :=
    roundHalfEven_near (seconds.units * nanosPerSecond) _ (Nat.cast_pos.mp unit)
  obtain ⟨nearest, rounded⟩ : ∃ nearest,
      roundHalfEven (seconds.units * nanosPerSecond) Binary64.unitsPerOne = nearest := ⟨_, rfl⟩
  rw [rounded] at low high
  rw [← Nat.cast_le (α := ℚ)] at low high
  push_cast at low high
  rw [scaled] at low high
  have near : |(nearest : ℚ) - seconds.magnitude * 10 ^ 9| ≤ 1 / 2 := by
    rw [abs_le]
    constructor
    · refine le_of_mul_le_mul_right ?_ unit
      linarith
    · refine le_of_mul_le_mul_right ?_ unit
      linarith
  have fits : nearest < 2 ^ 64 * 10 ^ 9 := by
    have below : (nearest : ℚ) < 2 ^ 64 * 10 ^ 9 := by
      linarith [(abs_le.mp near).2]
    exact_mod_cast below
  refine ⟨⟨nearest, fits⟩, ?_, near⟩
  rw [ofSeconds, natural, Bool.false_and, if_neg Bool.false_ne_true, rounded,
    ofNanoseconds?_nanoseconds ⟨nearest, fits⟩]

/-- A number of seconds is the duration that it is less than half a nanosecond away from. -/
theorem ofSeconds_eq_ok {seconds : Binary64} {duration : Duration}
    (natural : seconds.negative = false)
    (near : |seconds.magnitude * 10 ^ 9 - duration.nanoseconds| < 1 / 2) :
    ofSeconds seconds = .ok duration := by
  obtain ⟨low, high⟩ := abs_lt.mp near
  have fits : (duration.nanoseconds : ℚ) + 1 ≤ 2 ^ 64 * 10 ^ 9 := by
    exact_mod_cast duration.inRange
  obtain ⟨other, read, close⟩ := exists_ofSeconds natural (by linarith)
  obtain ⟨otherLow, otherHigh⟩ := abs_le.mp close
  have below : other.nanoseconds < duration.nanoseconds + 1 := by
    have below : (other.nanoseconds : ℚ) < duration.nanoseconds + 1 := by linarith
    exact_mod_cast below
  have above : duration.nanoseconds < other.nanoseconds + 1 := by
    have above : (duration.nanoseconds : ℚ) < other.nanoseconds + 1 := by linarith
    exact_mod_cast above
  have same : other = duration := by
    cases other
    cases duration
    congr 1
    dsimp only at below above
    omega
  rw [read, same]

/-- The length in seconds. -/
def length (duration : Duration) : ℚ := duration.nanoseconds / 10 ^ 9

/-- A duration is its whole seconds and the nanoseconds beyond them. -/
theorem nanoseconds_eq (duration : Duration) :
    duration.nanoseconds = duration.seconds * 10 ^ 9 + duration.subsecond := by
  rw [seconds, subsecond, nanosPerSecond, Nat.mul_comm, Nat.div_add_mod]

/-- The length of a duration is its whole seconds and the nanoseconds beyond them. -/
theorem length_eq (duration : Duration) :
    duration.length = duration.seconds + duration.subsecond / 10 ^ 9 := by
  rw [length, nanoseconds_eq]
  push_cast
  ring

/-- A duration of fewer whole seconds is shorter. -/
theorem nanoseconds_lt {duration : Duration} {bound : Nat} (few : duration.seconds < bound) :
    duration.nanoseconds < bound * 10 ^ 9 :=
  (Nat.div_lt_iff_lt_mul (by decide)).mp few

/-- A duration of fewer whole seconds is no longer. -/
theorem length_le {duration : Duration} {bound : Nat} (few : duration.seconds < bound) :
    duration.length ≤ bound := by
  have below : (duration.nanoseconds : ℚ) ≤ bound * 10 ^ 9 := by
    exact_mod_cast (nanoseconds_lt few).le
  rwa [length, div_le_iff₀ (by norm_num)]

/-- The whole milliseconds of a duration without a rest are its length. -/
theorem milliseconds_eq {duration : Duration} (whole : duration.subsecond % nanosPerMilli = 0) :
    ((duration.nanoseconds / nanosPerMilli : Nat) : ℚ) = 1000 * duration.length := by
  have divides : nanosPerMilli ∣ duration.nanoseconds := by
    rw [nanoseconds_eq]
    exact Nat.dvd_add (Nat.dvd_mul_left_of_dvd (by decide) _) (Nat.dvd_of_mod_eq_zero whole)
  have scaled : ((duration.nanoseconds / nanosPerMilli : Nat) : ℚ) * 10 ^ 6 =
      duration.nanoseconds := by
    exact_mod_cast Nat.div_mul_cancel divides
  rw [length, ← scaled]
  ring

/-- The length of a duration of whole seconds. -/
theorem length_of_seconds {duration : Duration} (whole : duration.subsecond = 0) :
    duration.length = duration.seconds := by
  rw [length_eq, whole, Nat.cast_zero, zero_div, add_zero]

/-- The nanoseconds beyond the whole seconds are less than one second by a nanosecond. -/
theorem subsecond_bounds (duration : Duration) :
    (0 : ℚ) ≤ duration.subsecond / 10 ^ 9 ∧
      (duration.subsecond / 10 ^ 9 : ℚ) ≤ 1 - 1 / 10 ^ 9 := by
  have below : (duration.subsecond : ℚ) + 1 ≤ 10 ^ 9 := by
    exact_mod_cast Nat.mod_lt duration.nanoseconds (by decide : 0 < nanosPerSecond)
  exact ⟨div_nonneg (Nat.cast_nonneg _) (by norm_num), by linarith⟩

/-- Milliseconds are scaled by one. -/
theorem scale_milliseconds (count : ℚ) : count * TimeUnit.milliseconds.milliCount = count := by
  rw [TimeUnit.milliCount, Nat.cast_one, mul_one]

/-- The literal of whole seconds. -/
theorem toList_literal_of_seconds {duration : Duration} (whole : duration.subsecond = 0) :
    duration.literal.toList = (Nat.repr duration.seconds).toList ++ ['s'] := by
  rw [literal, if_pos whole, String.toList_append]
  rfl

/-- The literal of whole milliseconds. -/
theorem toList_literal_of_milliseconds {duration : Duration} (broken : duration.subsecond ≠ 0)
    (even : duration.subsecond % nanosPerMilli = 0) :
    duration.literal.toList =
      (Nat.repr (duration.nanoseconds / nanosPerMilli)).toList ++ ['m', 's'] := by
  rw [literal, if_neg broken, if_pos even, String.toList_append]
  rfl

/-- The literal of any other duration is the text of its rounded milliseconds. -/
theorem toList_literal_of_fraction {duration : Duration} {product : Binary64} {text : List Char}
    (broken : duration.subsecond ≠ 0) (uneven : duration.subsecond % nanosPerMilli ≠ 0)
    (rounded : duration.toMilliseconds? = some product)
    (written : text = (product.render Binary64.plainLayout).toList) :
    duration.literal.toList = text ++ ['m', 's'] := by
  rw [literal, if_neg broken, if_neg uneven, rounded, Option.getD_some, String.toList_append,
    written]
  rfl

/-- An amount that is rounded within half a nanosecond of a duration stands for it. -/
theorem toDuration?_of_steps {amount : Amount} {unit : TimeUnit} {number product seconds : Binary64}
    {duration : Duration} (first : Binary64.rounded? false amount.value = some number)
    (second : Binary64.rounded? false (number.magnitude * unit.milliCount) = some product)
    (third : Binary64.rounded? false (product.magnitude / 1000) = some seconds)
    (near : |seconds.magnitude - duration.length| < 1 / (2 * 10 ^ 9)) :
    amount.toDuration? unit = some duration := by
  have read := Amount.toSeconds?_eq_some first second third
  have nanoseconds : |seconds.magnitude * 10 ^ 9 - duration.nanoseconds| < 1 / 2 := by
    rw [length, abs_lt] at near
    rw [abs_lt]
    constructor <;> linarith
  rw [Amount.toDuration?, read, Option.bind_some,
    ofSeconds_eq_ok (Binary64.negative_of_rounded? third) nanoseconds, Except.toOption]

/-- Whole seconds are read back from their literal, up to a limit. -/
theorem parse_literal_of_seconds {duration : Duration} (whole : duration.subsecond = 0)
    (few : 125 * duration.seconds ≤ 2 ^ 53) : parse duration.literal = .ok duration := by
  have fits : 125 * duration.seconds ≤ 2 * Binary64.binade := few
  obtain ⟨wellFormed, text, value⟩ := Amount.ofNat_spec duration.seconds
  have written := text ▸ toList_literal_of_seconds whole
  obtain ⟨number, first, numberValue⟩ := Binary64.exists_rounded?_natCast false
    (by omega : duration.seconds ≤ 2 * Binary64.binade)
  -- One thousand is 125 times a power of two, so a smaller significand has to fit.
  obtain ⟨product, second, productValue⟩ :=
    Binary64.exists_rounded?_eq false fits (by decide : 3 ≤ 960)
  have scaled : (number.magnitude * (TimeUnit.seconds.milliCount : ℚ)) =
      (125 * duration.seconds : Nat) * 2 ^ 3 := by
    rw [numberValue, TimeUnit.milliCount]
    push_cast
    ring
  have divided : product.magnitude / 1000 = duration.seconds := by
    rw [productValue]
    push_cast
    ring
  refine parse_amount wellFormed written rfl
    (toDuration?_of_steps (value ▸ first) (scaled ▸ second) (divided ▸ first) ?_)
  rw [numberValue, length_of_seconds whole, sub_self, abs_zero]
  norm_num

/-- Whole milliseconds are read back from their literal, up to a limit. -/
theorem parse_literal_of_milliseconds {duration : Duration} (broken : duration.subsecond ≠ 0)
    (even : duration.subsecond % nanosPerMilli = 0) (few : duration.seconds < 2 ^ 23) :
    parse duration.literal = .ok duration := by
  obtain ⟨wellFormed, text, value⟩ := Amount.ofNat_spec (duration.nanoseconds / nanosPerMilli)
  have written := text ▸ toList_literal_of_milliseconds broken even
  have shorter := nanoseconds_lt few
  have exact := milliseconds_eq even
  have fits : duration.nanoseconds / nanosPerMilli ≤ 2 * Binary64.binade := by
    rw [nanosPerMilli, Binary64.binade]
    omega
  have bounded : duration.length ≤ 2 ^ 23 := by
    exact_mod_cast length_le few
  obtain ⟨number, first, numberValue⟩ := Binary64.exists_rounded?_natCast false fits
  have scaled := scale_milliseconds number.magnitude
  have divided : number.magnitude / 1000 = duration.length := by
    rw [numberValue, exact]
    ring
  obtain ⟨seconds, third, error⟩ :=
    Binary64.exists_rounded? 23 false (div_nonneg number.magnitude_nonneg (by norm_num))
      (divided ▸ bounded) (by decide)
  refine parse_amount wellFormed written rfl
    (toDuration?_of_steps (value ▸ first) (scaled.symm ▸ numberValue ▸ first) third ?_)
  rw [divided] at error
  refine error.trans_lt ?_
  norm_num

/-- The milliseconds of a duration are rounded from its fraction of a second, from the sum with its
whole seconds and from the product with one thousand. -/
theorem toMilliseconds?_eq_some {duration : Duration} {whole fraction sum product : Binary64}
    (wholeRounded : Binary64.rounded? false duration.seconds = some whole)
    (fractionRounded : Binary64.rounded? false (duration.subsecond / 10 ^ 9) = some fraction)
    (sumRounded : Binary64.rounded? false (whole.magnitude + fraction.magnitude) = some sum)
    (productRounded : Binary64.rounded? false (sum.magnitude * 1000) = some product) :
    duration.toMilliseconds? = some product := by
  have few : duration.subsecond ≤ 2 * Binary64.binade :=
    (Nat.mod_lt _ (by decide : 0 < nanosPerSecond)).le.trans (by decide)
  obtain ⟨part, partRead, partNatural, partValue⟩ := Binary64.exists_ofInt? few
  obtain ⟨one, oneRead, oneNatural, oneValue⟩ :=
    Binary64.exists_ofInt? (by decide : nanosPerSecond ≤ 2 * Binary64.binade)
  obtain ⟨thousand, thousandRead, thousandNatural, thousandValue⟩ := Binary64.exists_thousand
  have oneScale : one.magnitude = 10 ^ 9 := by
    rw [oneValue, nanosPerSecond, Nat.cast_pow, Nat.cast_ofNat]
  have nonzero : one.magnitude ≠ 0 := by
    rw [oneScale]
    norm_num
  have wholeRead : Binary64.ofInt? duration.seconds = some whole := by
    rw [Binary64.ofInt?_natCast, wholeRounded]
  have divided : part.div? one = some fraction := by
    rw [Binary64.div?_eq part nonzero, partNatural, oneNatural, bne_self_eq_false, partValue,
      oneScale, fractionRounded]
  have added : whole.addMagnitudes? fraction = some sum := by
    rw [Binary64.addMagnitudes?_eq, sumRounded]
  have multiplied : sum.mul? thousand = some product := by
    rw [Binary64.mul?_eq, Binary64.negative_of_rounded? sumRounded, thousandNatural,
      bne_self_eq_false, thousandValue, productRounded]
  have seconds : duration.toSeconds? = some sum := by
    simp only [toSeconds?, Option.bind_eq_bind, Option.bind_eq_some_iff]
    exact ⟨whole, wholeRead, part, partRead, one, oneRead, fraction, divided, added⟩
  simp only [toMilliseconds?, Option.bind_eq_bind, Option.bind_eq_some_iff]
  exact ⟨sum, seconds, thousand, thousandRead, multiplied⟩

/-- The milliseconds of a duration are rounded closely, up to a limit. -/
theorem exists_toMilliseconds? {duration : Duration} (few : duration.seconds < 2 ^ 21) :
    ∃ product, duration.toMilliseconds? = some product ∧ product.negative = false ∧
      |product.magnitude / 1000 - duration.length| ≤ (1 + 2 ^ 21 + 2 ^ 31 / 1000) / 2 ^ 54 := by
  have fits : duration.seconds ≤ 2 * Binary64.binade := few.le.trans (by decide)
  have wholeBound : (duration.seconds : ℚ) + 1 ≤ 2 ^ 21 := by
    exact_mod_cast few
  obtain ⟨fractionNonneg, fractionBound⟩ := duration.subsecond_bounds
  obtain ⟨whole, wholeRounded, wholeValue⟩ := Binary64.exists_rounded?_natCast false fits
  obtain ⟨fraction, fractionRounded, fractionError⟩ :=
    Binary64.exists_rounded? 0 false fractionNonneg (by linarith) (by decide)
  rw [abs_le] at fractionError
  -- The rounded fraction is below one, so the sum stays within the power of two.
  obtain ⟨sum, sumRounded, sumError⟩ := Binary64.exists_rounded? 21 false
    (add_nonneg whole.magnitude_nonneg fraction.magnitude_nonneg)
    (by rw [wholeValue]; linarith) (by decide)
  rw [abs_le, wholeValue] at sumError
  obtain ⟨product, productRounded, productError⟩ := Binary64.exists_rounded? 31 false
    (mul_nonneg sum.magnitude_nonneg (by norm_num : (0 : ℚ) ≤ 1000)) (by linarith) (by decide)
  rw [abs_le] at productError
  refine ⟨product,
    toMilliseconds?_eq_some wholeRounded fractionRounded sumRounded productRounded,
    Binary64.negative_of_rounded? productRounded, ?_⟩
  rw [length_eq, abs_le]
  constructor <;> linarith

/-- A duration is read back from its literal, whatever its nanoseconds, up to a limit. -/
theorem parse_literal_of_fraction {duration : Duration} (broken : duration.subsecond ≠ 0)
    (uneven : duration.subsecond % nanosPerMilli ≠ 0) (few : duration.seconds < 2 ^ 21) :
    parse duration.literal = .ok duration := by
  obtain ⟨product, written, natural, productError⟩ := exists_toMilliseconds? few
  obtain ⟨amount, wellFormed, text, first⟩ := Amount.exists_render natural
  have written := toList_literal_of_fraction broken uneven written text
  have scaled := scale_milliseconds product.magnitude
  have second := Binary64.rounded?_self natural
  have bounded : duration.length ≤ 2 ^ 21 := by
    exact_mod_cast length_le few
  rw [abs_le] at productError
  -- The rounded milliseconds may lie a little beyond the power of two, hence the next one.
  obtain ⟨seconds, third, secondsError⟩ := Binary64.exists_rounded? 22 false
    (div_nonneg product.magnitude_nonneg (by norm_num : (0 : ℚ) ≤ 1000)) (by linarith) (by decide)
  rw [abs_le] at secondsError
  refine parse_amount wellFormed written rfl
    (toDuration?_of_steps first (scaled.symm ▸ second) third ?_)
  rw [abs_lt]
  constructor <;> linarith

/-- How far apart two durations are, in nanoseconds. -/
def distance (left right : Duration) : Nat :=
  ((left.nanoseconds : Int) - right.nanoseconds).natAbs

/-- A duration that keeps away from the longest one is shorter by that much. -/
theorem length_le_of_inside {duration : Duration} (inside : duration.seconds + 2 ^ 15 ≤ 2 ^ 64) :
    duration.length + 2 ^ 15 ≤ 2 ^ 64 + 1 := by
  have wholeBound : (duration.seconds : ℚ) + 2 ^ 15 ≤ 2 ^ 64 := by
    exact_mod_cast inside
  have longer : duration.length ≤ (duration.seconds + 1 : Nat) :=
    length_le (Nat.lt_succ_self duration.seconds)
  rw [Nat.cast_add, Nat.cast_one] at longer
  linarith

/-- An amount that is read closely stands for a duration that is close. -/
theorem exists_toDuration? {amount : Amount} {unit : TimeUnit} {number : Binary64}
    {duration : Duration} (first : Binary64.rounded? false amount.value = some number)
    (close : |number.magnitude * unit.milliCount / 1000 - duration.length| ≤
      (duration.length + 2) / 2 ^ 51)
    (inside : duration.seconds + 2 ^ 15 ≤ 2 ^ 64) :
    ∃ other, amount.toDuration? unit = some other ∧
      2 ^ 50 * other.distance duration ≤ duration.nanoseconds + 2 ^ 50 := by
  have nonneg : 0 ≤ duration.length := div_nonneg (Nat.cast_nonneg _) (by norm_num)
  have bounded := length_le_of_inside inside
  rw [abs_le] at close
  have scaledNonneg : 0 ≤ number.magnitude * (unit.milliCount : ℚ) :=
    mul_nonneg number.magnitude_nonneg (Nat.cast_nonneg _)
  obtain ⟨product, second, productError⟩ :=
    Binary64.exists_rounded?_of_le false scaledNonneg (by linarith)
  rw [abs_le] at productError
  obtain ⟨seconds, third, secondsError⟩ := Binary64.exists_rounded?_of_le false
    (div_nonneg product.magnitude_nonneg (by norm_num : (0 : ℚ) ≤ 1000)) (by linarith)
  rw [abs_le] at secondsError
  have read := Amount.toSeconds?_eq_some first second third
  obtain ⟨other, found, near⟩ :=
    exists_ofSeconds (Binary64.negative_of_rounded? third) (by linarith)
  rw [abs_le] at near
  refine ⟨other, ?_, ?_⟩
  · rw [Amount.toDuration?, read, Option.bind_some, found, Except.toOption]
  · have exact : (duration.nanoseconds : ℚ) = duration.length * 10 ^ 9 := by
      rw [length, div_mul_cancel₀ _ (by norm_num)]
    have apart : (other.distance duration : ℚ) =
        |(other.nanoseconds : ℚ) - duration.nanoseconds| := by
      rw [distance, Nat.cast_natAbs, Int.cast_abs, Int.cast_sub, Int.cast_natCast, Int.cast_natCast]
    have bound : |(other.nanoseconds : ℚ) - duration.nanoseconds| ≤
        (duration.nanoseconds + 2 ^ 50) / 2 ^ 50 := by
      rw [exact, abs_le]
      constructor <;> linarith
    rw [← apart, le_div_iff₀' (by norm_num)] at bound
    exact_mod_cast bound

/-- A literal of a whole number of seconds or milliseconds is read closely. -/
theorem exists_parse_ofNat {count : Nat} {unit : TimeUnit} {letters : List Char}
    {duration : Duration} (short : unit.milliCount ≤ 1000)
    (written : duration.literal.toList = (Nat.repr count).toList ++ letters)
    (unitRead : TimeUnit.read? letters = some (unit, []))
    (exact : (count * unit.milliCount : ℚ) = 1000 * duration.length)
    (inside : duration.seconds + 2 ^ 15 ≤ 2 ^ 64) :
    ∃ other, parse duration.literal = .ok other ∧
      2 ^ 50 * other.distance duration ≤ duration.nanoseconds + 2 ^ 50 := by
  obtain ⟨wellFormed, text, value⟩ := Amount.ofNat_spec count
  have positive : (1 : ℚ) ≤ unit.milliCount := by
    exact_mod_cast (by cases unit <;> decide : 1 ≤ unit.milliCount)
  have bounded := length_le_of_inside inside
  have less : (count : ℚ) ≤ count * unit.milliCount :=
    le_mul_of_one_le_right (Nat.cast_nonneg _) positive
  obtain ⟨number, first, error⟩ :=
    Binary64.exists_rounded?_of_le false (Nat.cast_nonneg count) (by linarith)
  have scaledError : |number.magnitude * unit.milliCount - count * unit.milliCount| ≤
      (count * unit.milliCount + unit.milliCount) / 2 ^ 53 := by
    have scaled := mul_le_mul_of_nonneg_right error (by linarith : (0 : ℚ) ≤ unit.milliCount)
    rw [← sub_mul, abs_mul, abs_of_nonneg (by linarith : (0 : ℚ) ≤ unit.milliCount)]
    linarith
  have shortUnit : (unit.milliCount : ℚ) ≤ 1000 := by
    exact_mod_cast short
  have close : |number.magnitude * unit.milliCount / 1000 - duration.length| ≤
      (duration.length + 2) / 2 ^ 51 := by
    rw [abs_le] at scaledError ⊢
    constructor <;> linarith
  obtain ⟨other, read, near⟩ := exists_toDuration? (value ▸ first) close inside
  exact ⟨other, parse_amount wellFormed (text ▸ written) unitRead read, near⟩

/-- The milliseconds of a duration are rounded closely. -/
theorem exists_toMilliseconds?_of_inside {duration : Duration}
    (inside : duration.seconds + 2 ^ 15 ≤ 2 ^ 64) :
    ∃ product, duration.toMilliseconds? = some product ∧ product.negative = false ∧
      |product.magnitude / 1000 - duration.length| ≤ (duration.length + 2) / 2 ^ 51 := by
  have wholeBound : (duration.seconds : ℚ) + 2 ^ 15 ≤ 2 ^ 64 := by
    exact_mod_cast inside
  obtain ⟨fractionNonneg, fractionBound⟩ := duration.subsecond_bounds
  obtain ⟨whole, wholeRounded, wholeError⟩ :=
    Binary64.exists_rounded?_of_le false (Nat.cast_nonneg duration.seconds) (by linarith)
  rw [abs_le] at wholeError
  obtain ⟨fraction, fractionRounded, fractionError⟩ :=
    Binary64.exists_rounded?_of_le false fractionNonneg (by linarith)
  rw [abs_le] at fractionError
  obtain ⟨sum, sumRounded, sumError⟩ := Binary64.exists_rounded?_of_le false
    (add_nonneg whole.magnitude_nonneg fraction.magnitude_nonneg) (by linarith)
  rw [abs_le] at sumError
  obtain ⟨product, productRounded, productError⟩ := Binary64.exists_rounded?_of_le false
    (mul_nonneg sum.magnitude_nonneg (by norm_num : (0 : ℚ) ≤ 1000)) (by linarith)
  rw [abs_le] at productError
  refine ⟨product,
    toMilliseconds?_eq_some wholeRounded fractionRounded sumRounded productRounded,
    Binary64.negative_of_rounded? productRounded, ?_⟩
  rw [length_eq, abs_le]
  constructor <;> linarith

/-- A literal is accepted unless it stands for a duration close to the longest one, and it is read
as a duration that is close: the difference is at most 2⁻⁵⁰ of the duration and a nanosecond. -/
theorem exists_parse_literal {duration : Duration} (inside : duration.seconds + 2 ^ 15 ≤ 2 ^ 64) :
    ∃ other, parse duration.literal = .ok other ∧
      2 ^ 50 * other.distance duration ≤ duration.nanoseconds + 2 ^ 50 := by
  by_cases whole : duration.subsecond = 0
  · refine exists_parse_ofNat (by decide : TimeUnit.seconds.milliCount ≤ 1000)
      (toList_literal_of_seconds whole) rfl ?_ inside
    rw [length_of_seconds whole, TimeUnit.milliCount, mul_comm, Nat.cast_ofNat]
  · by_cases even : duration.subsecond % nanosPerMilli = 0
    · refine exists_parse_ofNat (by decide : TimeUnit.milliseconds.milliCount ≤ 1000)
        (toList_literal_of_milliseconds whole even) rfl ?_ inside
      rw [scale_milliseconds, milliseconds_eq even]
    · obtain ⟨product, written, natural, close⟩ := exists_toMilliseconds?_of_inside inside
      obtain ⟨amount, wellFormed, text, first⟩ := Amount.exists_render natural
      rw [← scale_milliseconds product.magnitude] at close
      obtain ⟨other, read, near⟩ := exists_toDuration? first close inside
      exact ⟨other, parse_amount wellFormed
        (toList_literal_of_fraction whole even written text) rfl read, near⟩

/-- A duration that is rounded to itself when its literal is read: of whole seconds up to 2⁵³ / 125
of them, of whole milliseconds below 2²³ seconds, and any other below 2²¹ seconds. -/
def Exact (duration : Duration) : Prop :=
  (duration.subsecond = 0 ∧ 125 * duration.seconds ≤ 2 ^ 53) ∨
    (duration.subsecond % nanosPerMilli = 0 ∧ duration.seconds < 2 ^ 23) ∨
      duration.seconds < 2 ^ 21

instance (duration : Duration) : Decidable duration.Exact :=
  inferInstanceAs (Decidable (_ ∨ _ ∨ _))

/-- An exact duration is read back from its literal to the nanosecond. -/
theorem Exact.parse_literal {duration : Duration} (exact : duration.Exact) :
    parse duration.literal = .ok duration := by
  by_cases whole : duration.subsecond = 0
  · refine parse_literal_of_seconds whole ?_
    rcases exact with ⟨-, few⟩ | ⟨-, few⟩ | few <;> omega
  · by_cases even : duration.subsecond % nanosPerMilli = 0
    · refine parse_literal_of_milliseconds whole even ?_
      rcases exact with ⟨none, -⟩ | ⟨-, few⟩ | few
      · exact absurd none whole
      · exact few
      · omega
    · refine parse_literal_of_fraction whole even ?_
      rcases exact with ⟨none, -⟩ | ⟨none, -⟩ | few
      · exact absurd none whole
      · exact absurd none even
      · exact few

end GameRules.Duration

namespace GameRules.Fields

/-- A field with the literal of a duration is the duration that the literal is read as. -/
theorem duration?_of_parse {whole : Json} {fields : Fields whole} {key text : String}
    {duration : Duration} (written : fields.entries.lookup key = some (.string text))
    (read : Duration.parse text = .ok duration) : fields.duration? key = .ok (some duration) := by
  unfold duration?
  rw [value?_of_lookup written rfl]
  simp only [read]

/-- A duration is read back, to the nanosecond, from a field with its literal if it is exact. Any
other duration is read as one that differs by at most 2⁻⁵⁰ of it and a nanosecond, unless it is
close to the longest one. -/
theorem duration?_literal (duration : Duration) {whole : Json} {fields : Fields whole}
    {key : String} (written : fields.entries.lookup key = some (.string duration.literal)) :
    (duration.Exact → fields.duration? key = .ok (some duration)) ∧
      (duration.seconds + 2 ^ 15 ≤ 2 ^ 64 →
        ∃ other, fields.duration? key = .ok (some other) ∧
          2 ^ 50 * other.distance duration ≤ duration.nanoseconds + 2 ^ 50) := by
  refine ⟨fun exact => duration?_of_parse written exact.parse_literal, fun inside => ?_⟩
  obtain ⟨other, read, close⟩ := Duration.exists_parse_literal inside
  exact ⟨other, duration?_of_parse written read, close⟩

/-- Two seconds and one and a half milliseconds are read back. -/
theorem duration?_literal_compound :
    ((Record.empty.text "interval" "2s1.5ms").fields .trigger).duration? "interval" =
        .ok (some ⟨2001500000, by decide⟩) ∧
      Duration.literal ⟨2001500000, by decide⟩ = "2001.5ms" ∧
      ((Record.empty.text "interval" (Duration.literal ⟨2001500000, by decide⟩)).fields
        .trigger).duration? "interval" = .ok (some ⟨2001500000, by decide⟩) := by
  have compound : Duration.parse "2s1.5ms" = .ok ⟨2001500000, by decide⟩ := by decide +kernel
  have exact : Duration.Exact ⟨2001500000, by decide⟩ := by decide +kernel
  exact ⟨duration?_of_parse (by simp) compound, by decide +kernel,
    (duration?_literal ⟨2001500000, by decide⟩ (by simp)).1 exact⟩

/-- Four milliseconds after 2²³ seconds are read back as one nanosecond more, and the longest
duration of whole seconds is refused. -/
theorem duration?_literal_missed :
    ((Record.empty.text "interval" "8388608s4ms").fields .trigger).duration? "interval" =
        .ok (some ⟨8388608004000000, by decide⟩) ∧
      Duration.literal ⟨8388608004000000, by decide⟩ = "8388608004ms" ∧
      ((Record.empty.text "interval" "8388608004ms").fields .trigger).duration? "interval" =
        .ok (some ⟨8388608004000001, by decide⟩) ∧
      ((Record.empty.text "interval" "9223372036854775808s9223372036854774784s1023s").fields
        .trigger).duration? "interval" =
          .ok (some ⟨18446744073709551615000000000, by decide⟩) ∧
      Duration.literal ⟨18446744073709551615000000000, by decide⟩ = "18446744073709551615s" ∧
      (Duration.parse "18446744073709551615s").toOption = none := by
  have given : Duration.parse "8388608s4ms" = .ok ⟨8388608004000000, by decide⟩ := by
    decide +kernel
  have reread : Duration.parse "8388608004ms" = .ok ⟨8388608004000001, by decide⟩ := by
    decide +kernel
  have longest : Duration.parse "9223372036854775808s9223372036854774784s1023s" =
      .ok ⟨18446744073709551615000000000, by decide⟩ := by
    decide +kernel
  exact ⟨duration?_of_parse (by simp) given, by decide +kernel, duration?_of_parse (by simp) reread,
    duration?_of_parse (by simp) longest, by decide +kernel, by decide +kernel⟩

end GameRules.Fields

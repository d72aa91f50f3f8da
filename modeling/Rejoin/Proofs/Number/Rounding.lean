import Rejoin.Proofs.Number.Value

/-! What rounding does to a magnitude. A number keeps 53 binary digits: rounding moves a magnitude by no
more than half the distance between neighbours, so by at most one part in `2 ^ 53` upwards, and never past
a multiple of that distance. A number times a power of two is exact, and below one the last number is
`2 ^ 53 - 1` parts out of `2 ^ 53`. -/

namespace Rejoin

namespace Binary64

theorem spacing_eq (units : Nat) : spacing units = 2 ^ (units.log2 - 52) := rfl

theorem spacing_pos (units : Nat) : 0 < spacing units := Nat.two_pow_pos _

/-- Neighbours are a unit apart, or no further than one part in `2 ^ 52`. -/
theorem spacing_cases (units : Nat) : spacing units = 1 ∨ spacing units * leading ≤ units := by
  by_cases hlog : units.log2 ≤ 52
  · rw [spacing_eq, Nat.sub_eq_zero_of_le hlog]
    exact .inl rfl
  · have hunits : units ≠ 0 := by
      rintro rfl
      exact hlog (by decide)
    have hsplit : units.log2 - 52 + 52 = units.log2 := Nat.sub_add_cancel (by omega)
    rw [spacing_eq, show leading = 2 ^ 52 from rfl, ← Nat.pow_add, hsplit]
    exact .inr (Nat.log2_self_le hunits)

/-! ### Whole numbers nearest to a quotient -/

theorem div_le_divNearestEven (numerator denominator : Nat) :
    numerator / denominator ≤ divNearestEven numerator denominator := by
  rw [divNearestEven]
  split
  · exact Nat.le_refl _
  · exact Nat.le_succ _

/-- The nearest whole number is no more than a half above the quotient. -/
theorem two_mul_divNearestEven_mul_le (numerator : Nat) {denominator : Nat} (h : 0 < denominator) :
    2 * (divNearestEven numerator denominator * denominator) ≤ 2 * numerator + denominator := by
  have hsplit := Nat.div_add_mod' numerator denominator
  have hrest := Nat.mod_lt numerator h
  rw [divNearestEven]
  split
  · omega
  · rw [Nat.add_mul]
    omega

/-- A whole quotient is its own nearest whole number. -/
theorem divNearestEven_mul (quotient : Nat) {denominator : Nat} (h : 0 < denominator) :
    divNearestEven (quotient * denominator) denominator = quotient := by
  rw [divNearestEven, Nat.mul_div_cancel _ h, Nat.mul_mod_left, Nat.mul_zero]
  exact if_pos (.inl h)

/-! ### Magnitudes -/

section Magnitudes

variable (units : Nat) {denominator : Nat} (hdenominator : 0 < denominator)

include hdenominator

/-- The rounded magnitude, without the denominator that the exact one is given with. -/
theorem roundUnits_mul : roundUnits (units * denominator) denominator =
    divNearestEven (units * denominator) (spacing units * denominator) * spacing units := by
  rw [roundUnits, Nat.mul_div_cancel _ hdenominator, Nat.mul_comm denominator]

/-- A magnitude is rounded up by at most half the distance between neighbours. -/
theorem two_mul_roundUnits_le :
    2 * roundUnits (units * denominator) denominator ≤ 2 * units + spacing units := by
  have hnearest := two_mul_divNearestEven_mul_le (units * denominator)
    (Nat.mul_pos (spacing_pos units) hdenominator)
  rw [roundUnits_mul units hdenominator]
  refine Nat.le_of_mul_le_mul_right ?_ hdenominator
  calc 2 * (divNearestEven (units * denominator) (spacing units * denominator) * spacing units) *
        denominator
      = 2 * (divNearestEven (units * denominator) (spacing units * denominator) *
          (spacing units * denominator)) := by rw [Nat.mul_assoc, Nat.mul_assoc]
    _ ≤ 2 * (units * denominator) + spacing units * denominator := hnearest
    _ = (2 * units + spacing units) * denominator := by rw [Nat.add_mul, Nat.mul_assoc]

/-- A magnitude is rounded up by at most one part in `2 ^ 53`. -/
theorem roundUnits_mul_le :
    roundUnits (units * denominator) denominator * (2 * leading) ≤ units * (2 * leading) + units := by
  have hround := two_mul_roundUnits_le units hdenominator
  rcases spacing_cases units with hspacing | hspacing
  · have hexact : roundUnits (units * denominator) denominator ≤ units := by omega
    exact Nat.le_trans (Nat.mul_le_mul_right _ hexact) (Nat.le_add_right _ _)
  · calc roundUnits (units * denominator) denominator * (2 * leading)
        = 2 * roundUnits (units * denominator) denominator * leading := by
          rw [← Nat.mul_assoc, Nat.mul_comm _ 2]
      _ ≤ (2 * units + spacing units) * leading := Nat.mul_le_mul_right _ hround
      _ = units * (2 * leading) + spacing units * leading := by
          rw [Nat.add_mul, Nat.mul_comm 2 units, Nat.mul_assoc]
      _ ≤ units * (2 * leading) + units := Nat.add_le_add_left hspacing _

/-- A multiple of the distance between neighbours that a magnitude reaches is still reached once it is
rounded. -/
theorem le_roundUnits (bound : Nat) (hdvd : spacing units ∣ bound) (hle : bound ≤ units) :
    bound ≤ roundUnits (units * denominator) denominator := by
  have hnearest := div_le_divNearestEven (units * denominator) (spacing units * denominator)
  rw [Nat.mul_div_mul_right _ _ hdenominator] at hnearest
  rw [roundUnits_mul units hdenominator]
  calc bound = bound / spacing units * spacing units := (Nat.div_mul_cancel hdvd).symm
    _ ≤ units / spacing units * spacing units :=
        Nat.mul_le_mul_right _ (Nat.div_le_div_right hle)
    _ ≤ divNearestEven (units * denominator) (spacing units * denominator) * spacing units :=
        Nat.mul_le_mul_right _ hnearest

/-- A multiple of the distance between its neighbours is exact. -/
theorem roundUnits_of_dvd (hdvd : spacing units ∣ units) :
    roundUnits (units * denominator) denominator = units := by
  have hwhole : units * denominator = units / spacing units * (spacing units * denominator) := by
    rw [← Nat.mul_assoc, Nat.div_mul_cancel hdvd]
  rw [roundUnits_mul units hdenominator, hwhole,
    divNearestEven_mul _ (Nat.mul_pos (spacing_pos units) hdenominator), Nat.div_mul_cancel hdvd]

end Magnitudes

/-! ### Bits -/

/-- What a number stands for whose bits are put together from a sign, an exponent and a fraction. -/
theorem reading_of_bits {number : Binary64} {negative : Bool} {exponent fraction : Nat}
    (hbits : number.bits.toNat =
      (if negative then signWeight else 0) + (exponent * leading + fraction))
    (hexponent : exponent < 2047) (hfraction : fraction < leading) :
    number.reading = .finite negative
      (if exponent = 0 then fraction else (leading + fraction) * 2 ^ (exponent - 1)) := by
  have hsign : number.isNegative = negative := by
    rw [isNegative, hbits]
    cases negative with
    | true => exact decide_eq_true (Nat.le_add_right _ _)
    | false =>
        rw [decide_eq_false_iff_not, if_neg Bool.false_ne_true]
        simp only [leading, signWeight] at *
        omega
  have hupper : number.bits.toNat % signWeight / leading = exponent := by
    rw [hbits]
    simp only [leading, signWeight] at *
    cases negative <;> simp only [if_true, Bool.false_eq_true, if_false] <;> omega
  have hlower : number.bits.toNat % leading = fraction := by
    rw [hbits]
    simp only [leading, signWeight] at *
    cases negative <;> simp only [if_true, Bool.false_eq_true, if_false] <;> omega
  rw [reading, hupper, hlower, hsign, if_neg (Nat.ne_of_lt hexponent)]
  split <;> rfl

/-- A magnitude has 53 digits at most before the distance between neighbours. -/
theorem div_spacing_lt (units : Nat) : units / spacing units < 2 * leading := by
  rw [Nat.div_lt_iff_lt_mul (spacing_pos units), spacing_eq]
  calc units < 2 ^ (units.log2 + 1) := Nat.lt_log2_self
    _ ≤ 2 ^ (53 + (units.log2 - 52)) := Nat.pow_le_pow_right (by decide) (by omega)
    _ = 2 * leading * 2 ^ (units.log2 - 52) := Nat.pow_add 2 53 _

/-- It has no fewer than that where neighbours are more than a unit apart. -/
theorem leading_le_div_spacing {units : Nat} (h : units.log2 - 52 ≠ 0) :
    leading ≤ units / spacing units := by
  have hunits : units ≠ 0 := by
    rintro rfl
    exact h (by decide)
  rw [Nat.le_div_iff_mul_le (spacing_pos units), spacing_eq]
  calc leading * 2 ^ (units.log2 - 52) = 2 ^ (52 + (units.log2 - 52)) := (Nat.pow_add 2 52 _).symm
    _ = 2 ^ units.log2 := by rw [Nat.add_sub_cancel' (by omega)]
    _ ≤ units := Nat.log2_self_le hunits

theorem toNat_bits_ofUnits (negative : Bool) {units : Nat} (h : units.log2 ≤ 2097) :
    (ofUnits negative units).bits.toNat = (if negative then signWeight else 0) +
      ((units.log2 - 52) * leading + units / spacing units) := by
  have hdigits := div_spacing_lt units
  have hmagnitude : (units.log2 - 52) * leading + units / spacing units ≤ 2047 * leading := by
    simp only [leading] at *
    omega
  change (UInt64.ofNat (_ + min (_ + units / spacing units) _)).toNat = _
  rw [Nat.min_eq_left hmagnitude]
  refine UInt64.toNat_ofNat_of_lt' ?_
  simp only [leading, signWeight, UInt64.size] at *
  split <;> omega

/-- The bits of a magnitude that is not beyond all numbers stand for its first 53 digits. -/
theorem reading_ofUnits (negative : Bool) {units : Nat} (h : units.log2 ≤ 2097) :
    (ofUnits negative units).reading =
      .finite negative (units / spacing units * spacing units) := by
  have hbits := toNat_bits_ofUnits negative h
  have hdigits := div_spacing_lt units
  by_cases hsmall : units / spacing units < leading
  · -- Too few digits for a leading one: the exponent is zero, and neighbours are a unit apart.
    have hplaces : units.log2 - 52 = 0 := by
      by_contra hplaces
      exact Nat.not_le.2 hsmall (leading_le_div_spacing hplaces)
    have hone : spacing units = 1 := by rw [spacing_eq, hplaces, Nat.pow_zero]
    rw [hplaces] at hbits
    rw [reading_of_bits hbits (by decide) hsmall, if_pos rfl, hone, Nat.mul_one]
  · have hsplit : (units.log2 - 52) * leading + units / spacing units =
        (units.log2 - 52 + 1) * leading + (units / spacing units - leading) := by
      rw [Nat.succ_mul]
      omega
    rw [hsplit] at hbits
    rw [reading_of_bits hbits (by omega) (by omega), if_neg (Nat.succ_ne_zero _), Nat.add_sub_cancel,
      Nat.add_sub_cancel' (Nat.not_lt.1 hsmall), spacing_eq]

/-! ### Products -/

/-- The product with a whole number is off by at most one part in `2 ^ 53` upwards, and reaches what the
exact one reaches if that has no more digits than the product may have. -/
theorem exists_reading_mul {number factor : Binary64} {negative : Bool} {whole units places : Nat}
    (hnumber : number.reading = .finite false (whole * one))
    (hfactor : factor.reading = .finite negative units)
    (hdigits : (whole * units).log2 < places + 52) (hplaces : places ≤ 2045) :
    ∃ product, (number.mul factor).reading = .finite negative product ∧
      product * (2 * leading) ≤ whole * units * (2 * leading) + whole * units ∧
      ∀ bound, 2 ^ places ∣ bound → bound ≤ whole * units → bound ≤ product := by
  have hround := roundUnits_mul_le (whole * units) one_pos
  have hreach := fun bound => le_roundUnits (whole * units) one_pos bound
  have hproduct : number.mul factor =
      ofUnits negative (roundUnits (whole * units * one) one) := by
    rw [mul, hnumber, hfactor, Nat.mul_right_comm]
    dsimp only
    rw [Bool.false_xor]
  rw [hproduct]
  generalize roundUnits (whole * units * one) one = rounded at *
  have hrounded : rounded < 2 ^ (places + 53) := by
    have hexact : whole * units < 2 ^ (places + 52) :=
      Nat.lt_of_lt_of_le Nat.lt_log2_self (Nat.pow_le_pow_right (by decide) hdigits)
    rw [Nat.pow_succ]
    simp only [leading] at hround
    omega
  have hlog : rounded.log2 ≤ places + 52 := by
    by_cases hzero : rounded = 0
    · rw [hzero]
      exact Nat.zero_le _
    · exact Nat.le_of_lt_succ ((Nat.log2_lt hzero).2 hrounded)
  refine ⟨_, reading_ofUnits negative (Nat.le_trans hlog (Nat.add_le_add_right hplaces 52)), ?_, ?_⟩
  · exact Nat.le_trans (Nat.mul_le_mul_right _ (Nat.div_mul_le_self _ _)) hround
  · intro bound hdvd hle
    have hspacing : ∀ {magnitude : Nat}, magnitude.log2 ≤ places + 52 → spacing magnitude ∣ bound :=
      fun hmagnitude => Nat.dvd_trans (Nat.pow_dvd_pow 2 (by omega)) hdvd
    calc bound = bound / spacing rounded * spacing rounded :=
          (Nat.div_mul_cancel (hspacing hlog)).symm
      _ ≤ rounded / spacing rounded * spacing rounded :=
          Nat.mul_le_mul_right _
            (Nat.div_le_div_right (hreach bound (hspacing (Nat.le_of_lt hdigits)) hle))

/-- No more than 53 digits at some place are a multiple of the distance between neighbours. -/
theorem spacing_dvd {digits : Nat} (places : Nat) (hdigits : digits < 2 * leading) :
    spacing (digits * 2 ^ places) ∣ digits * 2 ^ places := by
  by_cases hzero : digits * 2 ^ places = 0
  · rw [hzero]
    exact Nat.dvd_zero _
  · have hbelow : digits * 2 ^ places < 2 ^ (53 + places) := by
      rw [Nat.pow_add]
      exact Nat.mul_lt_mul_of_pos_right hdigits (Nat.two_pow_pos places)
    have hlog := (Nat.log2_lt hzero).2 hbelow
    rw [spacing_eq]
    exact Nat.dvd_trans (Nat.pow_dvd_pow 2 (by omega)) (Nat.dvd_mul_left _ _)

/-- A finite magnitude is a fraction, or all 53 digits at some place. -/
theorem units_of_reading {number : Binary64} {negative : Bool} {units : Nat}
    (h : number.reading = .finite negative units) :
    units < leading ∨ ∃ digits places, leading ≤ digits ∧ digits < 2 * leading ∧
      units = digits * 2 ^ places := by
  have hfraction : number.bits.toNat % leading < leading := Nat.mod_lt _ (by decide)
  rw [reading] at h
  split at h
  · split at h <;> cases h
  · split at h
    · cases h
      exact .inl hfraction
    · cases h
      exact .inr ⟨_, _, Nat.le_add_right _ _, by omega, rfl⟩

/-- The product with a power of two is exact, unless it is beyond all numbers. -/
theorem reading_mul_two_pow {number factor : Binary64} {negative : Bool} {units places : Nat}
    (hnumber : number.reading = .finite false (2 ^ places * one))
    (hfactor : factor.reading = .finite negative units)
    (hsize : (2 ^ places * units).log2 ≤ 2097) :
    (number.mul factor).reading = .finite negative (2 ^ places * units) := by
  have hdvd : spacing (2 ^ places * units) ∣ 2 ^ places * units := by
    rw [Nat.mul_comm]
    rcases units_of_reading hfactor with hsmall | ⟨digits, own, -, hdigits, rfl⟩
    · exact spacing_dvd places (Nat.lt_of_lt_of_le hsmall (Nat.le_mul_of_pos_left _ two_pos))
    · rw [Nat.mul_assoc, ← Nat.pow_add]
      exact spacing_dvd _ hdigits
  rw [mul, hnumber, hfactor]
  dsimp only
  rw [Bool.false_xor, Nat.mul_right_comm, roundUnits_of_dvd _ one_pos hdvd,
    reading_ofUnits negative hsize, Nat.div_mul_cancel hdvd]

/-! ### Below one -/

/-- A magnitude below `2 ^ (53 + places)` that is a number stays a unit of the last of 53 digits below
it. -/
theorem units_le_of_lt {number : Binary64} {negative : Bool} {units places : Nat}
    (h : number.reading = .finite negative units) (hlt : units < 2 * leading * 2 ^ places) :
    units ≤ (2 * leading - 1) * 2 ^ places := by
  have hplaces : 1 ≤ 2 ^ places := Nat.one_le_two_pow
  rcases units_of_reading h with hsmall | ⟨digits, own, hleading, hdigits, rfl⟩
  · calc units ≤ (2 * leading - 1) * 1 := by omega
      _ ≤ (2 * leading - 1) * 2 ^ places := Nat.mul_le_mul_left _ hplaces
  · have hown : own ≤ places := by
      by_contra hbeyond
      have hpow : 2 ^ (places + 1) ≤ 2 ^ own := Nat.pow_le_pow_right (by decide) (by omega)
      have hle := Nat.mul_le_mul hleading hpow
      rw [Nat.pow_succ, Nat.mul_comm (2 ^ places), ← Nat.mul_assoc, Nat.mul_comm leading] at hle
      exact Nat.not_lt.2 hle hlt
    exact Nat.mul_le_mul (by omega) (Nat.pow_le_pow_right (by decide) hown)

theorem units_le_of_lt_one {number : Binary64} {negative : Bool} {units : Nat}
    (h : number.reading = .finite negative units) (hlt : units < one) :
    units * (2 * leading) + one ≤ one * (2 * leading) := by
  have hone : one = 2 * leading * 2 ^ 1021 := by decide +kernel
  have hle : units ≤ (2 * leading - 1) * 2 ^ 1021 := units_le_of_lt h (hone ▸ hlt)
  rw [hone]
  generalize 2 ^ 1021 = place at hle
  calc units * (2 * leading) + 2 * leading * place
      ≤ (2 * leading - 1) * place * (2 * leading) + 1 * place * (2 * leading) :=
        Nat.add_le_add (Nat.mul_le_mul_right _ hle) (by rw [Nat.one_mul, Nat.mul_comm])
    _ = 2 * leading * place * (2 * leading) := by
        rw [← Nat.add_mul, ← Nat.add_mul, Nat.sub_add_cancel (by decide)]

end Binary64

end Rejoin

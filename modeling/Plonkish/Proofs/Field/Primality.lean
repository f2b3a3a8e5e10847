import Mathlib.Data.List.Prime
import Mathlib.NumberTheory.LucasPrimality
import Plonkish.Field.Basic

namespace Plonkish

/-!
# Prime moduli

The modulus of every field is prime. A number is certified by an element of
order one less than the number, for which the number before it has to be
factored; the factors are certified in the same way, or by trial division if
they are small. A list of such steps is checked by computation.
-/

namespace Primality

/-- The power of a base by an exponent of some number of bits, modulo a number. -/
def powerModulo (modulus base : Nat) : (bits exponent : Nat) → Nat
  | 0, _ => 1
  | bits + 1, exponent =>
      let half := powerModulo modulus base bits (exponent / 2)
      let square := half * half % modulus
      if exponent % 2 = 1 then square * base % modulus else square

/-- The power is right if the exponent has no more bits. -/
theorem powerModulo_cast
    (modulus base : Nat)
    {bits exponent : Nat}
    (fits : exponent < 2 ^ bits) :
    (powerModulo modulus base bits exponent : ZMod modulus) =
      (base : ZMod modulus) ^ exponent := by
  induction bits generalizing exponent with
  | zero =>
      obtain rfl : exponent = 0 := by simpa using fits
      simp [powerModulo]
  | succ bits inductionHypothesis =>
      have halfFits : exponent / 2 < 2 ^ bits := by omega
      have halved := inductionHypothesis halfFits
      by_cases odd : exponent % 2 = 1
      · have shape : exponent = 2 * (exponent / 2) + 1 := by omega
        simp only [powerModulo, odd, ↓reduceIte, ZMod.natCast_mod, Nat.cast_mul, halved]
        rw [← pow_add, ← two_mul, ← pow_succ, ← shape]
      · have shape : exponent = 2 * (exponent / 2) := by omega
        simp only [powerModulo, odd, ↓reduceIte, ZMod.natCast_mod, Nat.cast_mul, halved]
        rw [← pow_add, ← two_mul, ← shape]

/--
Whether a number has no divisor from a given one on, up to its square root.

Gives up after some number of trials.
-/
def noDivisorFrom (number divisor : Nat) : (trials : Nat) → Bool
  | 0 => false
  | trials + 1 =>
      number < divisor * divisor
        || (number % divisor ≠ 0 && noDivisorFrom number (divisor + 1) trials)

/-- How many divisors are tried at most. -/
def mostTrials : Nat := 100

/-- Whether a number is prime, as far as trial division tells. -/
def passesTrials (number : Nat) : Bool :=
  1 < number && noDivisorFrom number 2 mostTrials

/-- No divisor up to the square root is missed. -/
theorem not_dvd_of_noDivisorFrom
    {number first trials : Nat}
    (passes : noDivisorFrom number first trials = true)
    {divisor : Nat}
    (first_le : first ≤ divisor)
    (square_le : divisor * divisor ≤ number) :
    ¬divisor ∣ number := by
  induction trials generalizing first with
  | zero =>
      simp [noDivisorFrom] at passes
  | succ trials inductionHypothesis =>
      simp only [noDivisorFrom, Bool.or_eq_true, Bool.and_eq_true, decide_eq_true_eq] at passes
      have squares : first * first ≤ divisor * divisor := Nat.mul_le_mul first_le first_le
      rcases passes with pastRoot | ⟨remainder, later⟩
      · omega
      · by_cases isFirst : first = divisor
        · subst first
          exact fun divides => remainder (Nat.mod_eq_zero_of_dvd divides)
        · exact inductionHypothesis later (by omega)

/-- A number that passes trial division is prime. -/
theorem prime_of_passesTrials
    {number : Nat}
    (passes : passesTrials number = true) :
    number.Prime := by
  simp only [passesTrials, Bool.and_eq_true, decide_eq_true_eq] at passes
  refine Nat.prime_def_le_sqrt.mpr ⟨passes.1, fun divisor two_le le_sqrt => ?_⟩
  exact not_dvd_of_noDivisorFrom passes.2 two_le (Nat.le_sqrt.mp le_sqrt)

/-- A number, an element of full order, and the factors of the number before it. -/
structure Step where
  number : Nat
  generator : Nat
  /-- Primes with their exponents. -/
  factors : List (Nat × Nat)

/-- A power of the generator, for an exponent up to the number. -/
def Step.power (step : Step) (exponent : Nat) : Nat :=
  powerModulo step.number step.generator (step.number.log2 + 1) exponent

/-- Whether a step certifies its number after the given numbers were certified. -/
def Step.certifies (certified : List Nat) (step : Step) : Bool :=
  1 < step.number
    && (step.factors.map fun factor => factor.1 ^ factor.2).prod = step.number - 1
    && step.power (step.number - 1) = 1
    && step.factors.all fun factor =>
      (certified.contains factor.1 || passesTrials factor.1)
        && step.power ((step.number - 1) / factor.1) ≠ 1

/-- Whether every step certifies its number, given what was certified before. -/
def certifyAll : (certified : List Nat) → List Step → Bool
  | _, [] => true
  | certified, step :: rest =>
      step.certifies certified && certifyAll (step.number :: certified) rest

theorem powerModulo_lt
    {modulus : Nat}
    (large : 1 < modulus)
    (base bits exponent : Nat) :
    powerModulo modulus base bits exponent < modulus := by
  cases bits with
  | zero =>
      exact large
  | succ bits =>
      simp only [powerModulo]
      split <;> exact Nat.mod_lt _ (by omega)

/-- A power of the generator is one exactly if it is computed to be one. -/
theorem Step.pow_eq_one_iff
    {step : Step}
    (large : 1 < step.number)
    {exponent : Nat}
    (bound : exponent ≤ step.number) :
    (step.generator : ZMod step.number) ^ exponent = 1 ↔ step.power exponent = 1 := by
  have fits : exponent < 2 ^ (step.number.log2 + 1) :=
    lt_of_le_of_lt bound Nat.lt_log2_self
  rw [Step.power, ← powerModulo_cast step.number step.generator fits,
    ← Nat.cast_one (R := ZMod step.number),
    ZMod.natCast_eq_natCast_iff', Nat.mod_eq_of_lt large,
    Nat.mod_eq_of_lt (powerModulo_lt large _ _ exponent)]

/-- A step certifies a prime, if only primes were certified before. -/
theorem Step.prime_of_certifies
    {certified : List Nat}
    {step : Step}
    (primes : ∀ number ∈ certified, number.Prime)
    (accepted : step.certifies certified = true) :
    step.number.Prime := by
  simp only [Step.certifies, Bool.and_eq_true, decide_eq_true_eq, List.all_eq_true,
    Bool.or_eq_true, List.contains_iff_mem] at accepted
  obtain ⟨⟨⟨large, product⟩, fullPower⟩, factors⟩ := accepted
  refine lucas_primality step.number (step.generator : ZMod step.number) ?_ ?_
  · exact (step.pow_eq_one_iff large (Nat.sub_le _ _)).mpr fullPower
  · intro divisor divisorPrime divides
    rw [← product] at divides
    obtain ⟨power, powerMember, dividesPower⟩ :=
      (Prime.dvd_prod_iff divisorPrime.prime).mp divides
    obtain ⟨factor, factorMember, rfl⟩ := List.mem_map.mp powerMember
    obtain ⟨known, notOne⟩ := factors factor factorMember
    have factorPrime : factor.1.Prime := by
      rcases known with earlier | trials
      · exact primes factor.1 earlier
      · exact prime_of_passesTrials trials
    obtain rfl : divisor = factor.1 :=
      (Nat.prime_dvd_prime_iff_eq divisorPrime factorPrime).mp
        (divisorPrime.dvd_of_dvd_pow dividesPower)
    have exponentBound : (step.number - 1) / factor.1 ≤ step.number :=
      (Nat.div_le_self _ _).trans (Nat.sub_le _ _)
    rw [ne_eq, step.pow_eq_one_iff large exponentBound]
    exact notOne

/-- Every number of an accepted certificate is prime. -/
theorem prime_of_certifyAll
    {certified : List Nat}
    {steps : List Step}
    (primes : ∀ number ∈ certified, number.Prime)
    (accepted : certifyAll certified steps = true) :
    ∀ step ∈ steps, step.number.Prime := by
  induction steps generalizing certified with
  | nil =>
      simp
  | cons first rest inductionHypothesis =>
      simp only [certifyAll, Bool.and_eq_true] at accepted
      have firstPrime := first.prime_of_certifies primes accepted.1
      have extended : ∀ number ∈ first.number :: certified, number.Prime := by
        intro number member
        rcases List.mem_cons.mp member with isFirst | earlier
        · exact isFirst ▸ firstPrime
        · exact primes number earlier
      intro step member
      rcases List.mem_cons.mp member with isFirst | inRest
      · exact isFirst ▸ firstPrime
      · exact inductionHypothesis extended accepted.2 step inRest

/-- A certificate for the moduli of all fields. -/
def certificate : List Step := [
  ⟨11003, 2, [(2, 1), (5501, 1)]⟩,
  ⟨237073, 15, [(2, 4), (3, 1), (11, 1), (449, 1)]⟩,
  ⟨405928799, 22, [(2, 1), (11, 1), (3691, 1), (4999, 1)]⟩,
  ⟨93001, 14, [(2, 3), (3, 1), (5, 3), (31, 1)]⟩,
  ⟨12048837557, 2, [(2, 2), (7, 2), (661, 1), (93001, 1)]⟩,
  ⟨5156902474397, 2, [(2, 2), (107, 1), (12048837557, 1)]⟩,
  ⟨1670836401704629, 2, [(2, 2), (3, 4), (5156902474397, 1)]⟩,
  ⟨20963, 2, [(2, 1), (47, 1), (223, 1)]⟩,
  ⟨41927, 5, [(2, 1), (20963, 1)]⟩,
  ⟨1593227, 2, [(2, 1), (19, 1), (41927, 1)]⟩,
  ⟨639533339, 2, [(2, 1), (229, 1), (853, 1), (1637, 1)]⟩,
  ⟨65865678001877903, 5, [(2, 1), (83, 1), (379, 1), (1637, 1), (639533339, 1)]⟩,
  ⟨13818364434197438864469338081,
    3,
    [(2, 5), (5, 1), (823, 1), (1593227, 1), (65865678001877903, 1)]⟩,
  ⟨21888242871839275222246405745257275088548364400416034343698204186575808495617,
    5,
    [(2, 28), (3, 2), (13, 1), (29, 1), (983, 1), (11003, 1), (237073, 1), (405928799, 1),
      (1670836401704629, 1), (13818364434197438864469338081, 1)]⟩,
  ⟨327599, 19, [(2, 1), (19, 1), (37, 1), (233, 1)]⟩,
  ⟨11465965001, 3, [(2, 3), (5, 4), (7, 1), (327599, 1)]⟩,
  ⟨1853641, 17, [(2, 3), (3, 2), (5, 1), (19, 1), (271, 1)]⟩,
  ⟨4562087, 5, [(2, 1), (17, 1), (109, 1), (1231, 1)]⟩,
  ⟨13327, 3, [(2, 1), (3, 1), (2221, 1)]⟩,
  ⟨173171039, 13, [(2, 1), (73, 1), (89, 1), (13327, 1)]⟩,
  ⟨1263766531, 10, [(2, 1), (3, 1), (5, 1), (13, 1), (911, 1), (3557, 1)]⟩,
  ⟨35385462869, 2, [(2, 2), (7, 1), (1263766531, 1)]⟩,
  ⟨2480874801745591, 6, [(2, 1), (3, 2), (5, 1), (19, 1), (41, 1), (35385462869, 1)]⟩,
  ⟨13427688667394608761327070753331941386769,
    17,
    [(2, 4), (3, 1), (7, 1), (11, 1), (1853641, 1), (4562087, 1), (173171039, 1),
      (2480874801745591, 1)]⟩,
  ⟨21888242871839275222246405745257275088696311157297823662689037894645226208583,
    3,
    [(2, 1), (3, 2), (13, 1), (29, 1), (67, 1), (229, 1), (311, 1), (983, 1), (11003, 1),
      (405928799, 1), (11465965001, 1), (13427688667394608761327070753331941386769, 1)]⟩,
  ⟨13441, 11, [(2, 7), (3, 1), (5, 1), (7, 1)]⟩,
  ⟨24809, 6, [(2, 3), (7, 1), (443, 1)]⟩,
  ⟨13331831, 13, [(2, 1), (5, 1), (971, 1), (1373, 1)]⟩,
  ⟨173378833005251801, 6, [(2, 3), (5, 2), (2621, 1), (24809, 1), (13331831, 1)]⟩,
  ⟨22149492674086928081353, 5, [(2, 3), (3, 1), (5323, 1), (173378833005251801, 1)]⟩,
  ⟨132896956044521568488119, 6, [(2, 1), (3, 1), (22149492674086928081353, 1)]⟩,
  ⟨41201, 3, [(2, 4), (5, 2), (103, 1)]⟩,
  ⟨96557, 2, [(2, 2), (101, 1), (239, 1)]⟩,
  ⟨20113, 10, [(2, 4), (3, 1), (419, 1)]⟩,
  ⟨1206781, 10, [(2, 2), (3, 1), (5, 1), (20113, 1)]⟩,
  ⟨7240687, 3, [(2, 1), (3, 1), (1206781, 1)]⟩,
  ⟨107590001, 3, [(2, 4), (5, 4), (7, 1), (29, 1), (53, 1)]⟩,
  ⟨255515944373312847190720520512484175977,
    3,
    [(2, 3), (7, 2), (11, 1), (1627, 1), (2657, 1), (4423, 1), (41201, 1), (96557, 1),
      (7240687, 1), (107590001, 1)]⟩,
  ⟨205115282021455665897114700593932402728804164701536103180137503955397371,
    10,
    [(2, 1), (3, 1), (5, 1), (29, 2), (31, 1), (7723, 1), (132896956044521568488119, 1),
      (255515944373312847190720520512484175977, 1)]⟩,
  ⟨115792089237316195423570985008687907853269984665640564039457584007908834671663,
    3,
    [(2, 1), (3, 1), (7, 1), (13441, 1),
      (205115282021455665897114700593932402728804164701536103180137503955397371, 1)]⟩,
  ⟨16699, 3, [(2, 1), (3, 1), (11, 2), (23, 1)]⟩,
  ⟨85831, 3, [(2, 1), (3, 1), (5, 1), (2861, 1)]⟩,
  ⟨4681609, 23, [(2, 3), (3, 1), (97, 1), (2011, 1)]⟩,
  ⟨107361793816595537, 3, [(2, 4), (16699, 1), (85831, 1), (4681609, 1)]⟩,
  ⟨120233, 3, [(2, 3), (7, 1), (19, 1), (113, 1)]⟩,
  ⟨9349, 2, [(2, 2), (3, 1), (19, 1), (41, 1)]⟩,
  ⟨44706919, 6, [(2, 1), (3, 1), (797, 1), (9349, 1)]⟩,
  ⟨174723607534414371449, 3, [(2, 3), (17, 1), (59, 1), (4051, 1), (120233, 1), (44706919, 1)]⟩,
  ⟨305873, 3, [(2, 4), (7, 1), (2731, 1)]⟩,
  ⟨28181, 2, [(2, 2), (5, 1), (1409, 1)]⟩,
  ⟨545358713, 5, [(2, 3), (41, 1), (59, 1), (28181, 1)]⟩,
  ⟨1627771, 3, [(2, 1), (3, 1), (5, 1), (29, 1), (1871, 1)]⟩,
  ⟨297159362677, 2, [(2, 2), (3, 2), (11, 1), (461, 1), (1627771, 1)]⟩,
  ⟨29047611873442575647497758179,
    2,
    [(2, 1), (293, 1), (305873, 1), (545358713, 1), (297159362677, 1)]⟩,
  ⟨341948486974166000522343609283189,
    2,
    [(2, 2), (3, 3), (109, 1), (29047611873442575647497758179, 1)]⟩,
  ⟨115792089237316195423570985008687907852837564279074904382605163141518161494337,
    7,
    [(2, 6), (3, 1), (149, 1), (631, 1), (107361793816595537, 1), (174723607534414371449, 1),
      (341948486974166000522343609283189, 1)]⟩]

theorem certificate_accepted : certifyAll [] certificate = true := by
  decide +kernel

end Primality

/-- The modulus of every field is prime. -/
theorem PrimeField.modulus_prime (field : PrimeField) : field.modulus.Prime := by
  have certified := Primality.prime_of_certifyAll (by simp) Primality.certificate_accepted
  have listed : field.modulus ∈ Primality.certificate.map Primality.Step.number := by
    cases field <;> decide
  obtain ⟨step, member, isModulus⟩ := List.mem_map.mp listed
  exact isModulus ▸ certified step member

instance (field : PrimeField) : Fact field.modulus.Prime := ⟨field.modulus_prime⟩

end Plonkish

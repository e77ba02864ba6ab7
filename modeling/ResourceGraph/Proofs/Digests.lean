import Mathlib
import ResourceGraph.Graph.Identity

/-!
Equal scalars have one digest, also across the kinds of numbers. A float is taken apart into its
sign, its significand and its exponent, as comparing does; what is equal then has the same parts,
but that zero has two signs, and a float that equals a whole number leaves its remainder, because
the sixty-first power of two leaves one.
-/

namespace ResourceGraph

open Float.Model (UnpackedFloat)
open Float.Model.UnpackedFloat (Sign)

namespace Number.Binary

/-! ## The parts of a float -/

/-- The sign is the one of negative numbers. -/
def isNegative : Sign → Bool
  | .negative => true
  | .positive => false

/-- The number with these parts. -/
def ofParts : UnpackedFloat → Binary
  | .notANumber => .undefined
  | .infinity sign => .infinite (isNegative sign)
  | .zero sign => .finite (isNegative sign) 0 (-1074)
  | .finite sign m e _ => .finite (isNegative sign) m e

private theorem toNat_mantissa (bits : BitVec 64) :
    (@UnpackedFloat.unpackMantissa .binary64 bits).toNat = bits.toNat % twoTo 52 := by
  simp [UnpackedFloat.unpackMantissa, twoTo]

private theorem toNat_exponent (bits : BitVec 64) :
    (@UnpackedFloat.unpackExponent .binary64 bits).toNat = bits.toNat / twoTo 52 % twoTo 11 := by
  simp [UnpackedFloat.unpackExponent, twoTo, Nat.shiftRight_eq_div_pow]

private theorem isNegative_ofBitVec (bit : BitVec 1) :
    isNegative (Sign.ofBitVec bit) = (bit.toNat == 1) := by
  rcases BitVec.eq_zero_or_eq_one bit with rfl | rfl <;> rfl

private theorem isNegative_sign (bits : BitVec 64) :
    isNegative (Sign.ofBitVec (@UnpackedFloat.unpackSign .binary64 bits)) =
      (bits.toNat / twoTo 63 % 2 == 1) := by
  rw [isNegative_ofBitVec]
  simp [UnpackedFloat.unpackSign, twoTo, Nat.shiftRight_eq_div_pow]

/-- What a float stands for has the parts that the float is compared by. -/
theorem ofFloat_eq (x : Float) : ofFloat x = ofParts x.toModel.unpack := by
  change ofBits x.toModel.toBits.toBitVec.toNat =
    ofParts (UnpackedFloat.unpack .binary64 x.toModel.toBits.toBitVec)
  generalize x.toModel.toBits.toBitVec = bits
  unfold ofBits UnpackedFloat.unpack
  rw [← toNat_mantissa, ← toNat_exponent, ← isNegative_sign]
  have toNat_eq {width : Nat} (b c : BitVec width) : b.toNat = c.toNat ↔ b = c := BitVec.toNat_inj
  have top := toNat_eq (@UnpackedFloat.unpackExponent .binary64 bits) (-1#11)
  have bottom := toNat_eq (@UnpackedFloat.unpackExponent .binary64 bits) 0#11
  have empty := toNat_eq (@UnpackedFloat.unpackMantissa .binary64 bits) 0#52
  change _ = 2047 ↔ _ at top
  change _ = 0 ↔ _ at bottom empty
  simp only [beq_iff_eq, top, bottom, empty]
  split
  · split <;> rfl
  · split
    · next least =>
      split
      · next zero =>
        rw [zero]
        rfl
      · refine congrArg (Binary.finite _ _) ?_
        rw [least]
        rfl
    · -- The significand of a normal number has one more bit than is written.
      refine congrArg₂ (Binary.finite _) ?_ rfl
      have small := (@UnpackedFloat.unpackMantissa .binary64 bits).isLt
      rw [BitVec.toNat_append, ← Nat.shiftLeft_add_eq_or_of_lt small, Nat.add_comm]
      rfl

private theorem unpack_undefined {x : Float} (undefined : x.isNaN = true) :
    x.toModel.unpack = .notANumber := by
  change x.toModel.unpack.isNaN = true at undefined
  cases parts : x.toModel.unpack with
  | notANumber => rfl
  | _ =>
    rw [parts] at undefined
    cases undefined

private theorem ofFloat_undefined {x : Float} (undefined : x.isNaN = true) : ofFloat x = .undefined := by
  rw [ofFloat_eq, unpack_undefined undefined]
  rfl

/-- A finite number that equals a whole one is it, both scaled to whole numbers. -/
theorem scaled_of_compareInt? {n : Int} {negative : Bool} {m : Nat} {e : Int}
    (same : (finite negative m e).compareInt? n = some .eq) :
    n * twoTo (-e).toNat = (if negative then -Int.ofNat m else Int.ofNat m) * twoTo e.toNat := by
  by_cases up : 0 ≤ e
  · have none : (-e).toNat = 0 := by omega
    simp only [compareInt?, up, if_true, Option.some.injEq, compare_eq_iff_eq] at same
    rw [none, same]
    exact Int.mul_one _
  · have none : e.toNat = 0 := by omega
    simp only [compareInt?, up, if_false, Option.some.injEq, compare_eq_iff_eq] at same
    rw [none]
    exact same.trans (Int.mul_one _).symm

/-- The sign that a number is written with is its own, unless it is zero. -/
theorem sign_of_scaled {n : Int} {negative : Bool} {m p q : Nat} (positive : 0 < p)
    (scaled : n * p = (if negative then -Int.ofNat m else Int.ofNat m) * q) :
    n = 0 ∨ negative = decide (n < 0) := by
  have size : 0 ≤ Int.ofNat m * q := Int.mul_nonneg (Int.natCast_nonneg m) (Int.natCast_nonneg q)
  have scale : (0 : Int) < p := Int.natCast_pos.mpr positive
  rcases Int.lt_trichotomy n 0 with below | zero | above
  · have : n * p < 0 := Int.mul_neg_of_neg_of_pos below scale
    cases negative with
    | true => exact .inr (decide_eq_true below).symm
    | false => exact absurd (scaled ▸ this) (Int.not_lt.mpr size)
  · exact .inl zero
  · have : 0 < n * p := Int.mul_pos above scale
    cases negative with
    | true =>
      rw [scaled, if_pos rfl, Int.neg_mul] at this
      exact absurd (Int.neg_pos.mp this) (Int.not_lt.mpr size)
    | false => exact .inr (decide_eq_false (Int.not_lt.mpr (Int.le_of_lt above))).symm

end Number.Binary

namespace Num

open Number

/-- Floats of the same value compare as equal by their parts. -/
theorem compare_of_same {x y : Float} (same : (float x).same (float y) = true) :
    x.toModel.unpack.compare y.toModel.unpack = some .eq := by
  have equal : (float x).compare? (float y) = some .eq := beq_iff_eq.mp same
  simp only [compare?] at equal
  split at equal
  · cases equal
  · split at equal
    · next alike => exact beq_iff_eq.mp alike
    · split at equal <;> cases equal

/-- The undefined number has the same value as no number, itself included. -/
theorem same_undefined {x : Float} (undefined : x.isNaN = true) (n : Num) :
    (float x).same n = false ∧ n.same (float x) = false := by
  rw [Bool.eq_false_iff, Bool.eq_false_iff]
  cases n with
  | int k =>
    simp only [same, compare?, Binary.ofFloat_undefined undefined]
    exact ⟨nofun, nofun⟩
  | float y =>
    refine ⟨fun same => ?_, fun same => ?_⟩
    · have compared := compare_of_same same
      rw [Binary.unpack_undefined undefined] at compared
      cases compared
    · have compared := compare_of_same same
      rw [Binary.unpack_undefined undefined] at compared
      cases parts : y.toModel.unpack <;> rw [parts] at compared <;> cases compared

end Num

namespace Digest

open Number

/-! ## Remainders -/

private theorem twoTo_add (j k : Nat) : twoTo (j + k) = twoTo j * twoTo k := Nat.pow_add 2 j k

/-- The sixty-first power of two leaves one, and so do its powers. -/
theorem twoTo_round (k : Nat) : twoTo (61 * k) ≡ 1 [MOD modulus] := by
  have once : 2 ^ 61 ≡ 1 [MOD modulus] := rfl
  calc twoTo (61 * k)
    _ = (2 ^ 61) ^ k := Nat.pow_mul ..
    _ ≡ 1 ^ k [MOD modulus] := once.pow k
    _ = 1 := Nat.one_pow k

/-- A significand with what is left of its exponent leaves what the whole number leaves that it
stands for. -/
theorem remainder_of_scaled {m n : Nat} {e : Int} (scaled : n * twoTo (-e).toNat = m * twoTo e.toNat) :
    m % modulus * twoTo (Int.emod e 61).toNat ≡ n [MOD modulus] := by
  have left : Int.emod e 61 = e % 61 := rfl
  refine ((Nat.mod_modEq m modulus).mul_right _).trans ?_
  by_cases up : 0 ≤ e
  · obtain ⟨k, rounds⟩ : ∃ k, e.toNat = 61 * k + (Int.emod e 61).toNat := ⟨e.toNat / 61, by omega⟩
    have none : (-e).toNat = 0 := by omega
    calc m * twoTo (Int.emod e 61).toNat
      _ = m * (1 * twoTo (Int.emod e 61).toNat) := by rw [Nat.one_mul]
      _ ≡ m * (twoTo (61 * k) * twoTo (Int.emod e 61).toNat) [MOD modulus] :=
        ((twoTo_round k).symm.mul_right _).mul_left m
      _ = n * twoTo (-e).toNat := by rw [← twoTo_add, ← rounds, scaled]
      _ = n * 1 := by rw [none]; rfl
      _ = n := Nat.mul_one n
  · obtain ⟨k, rounds⟩ : ∃ k, (-e).toNat + (Int.emod e 61).toNat = 61 * k :=
      ⟨((-e).toNat + (Int.emod e 61).toNat) / 61, by omega⟩
    have none : e.toNat = 0 := by omega
    calc m * twoTo (Int.emod e 61).toNat
      _ = m * 1 * twoTo (Int.emod e 61).toNat := by rw [Nat.mul_one]
      _ = m * twoTo e.toNat * twoTo (Int.emod e 61).toNat := by rw [none]; rfl
      _ = n * twoTo (61 * k) := by rw [← scaled, Nat.mul_assoc, ← twoTo_add, rounds]
      _ ≡ n * 1 [MOD modulus] := (twoTo_round k).mul_left n
      _ = n := Nat.mul_one n

private theorem signed_zero (negative : Bool) : signed negative 0 = .remainder 0 := by
    cases negative <;> rfl

/-! ## Numbers -/

/-- The digest of what a float stands for. -/
def ofBinary : Binary → Digest
  | .undefined => .undefined
  | .infinite negative => signed negative 314159
  | .finite negative m e => signed negative (m % modulus * twoTo (Int.emod e 61).toNat % modulus)

private theorem ofNum_float (x : Float) : ofNum (.float x) = ofBinary (Binary.ofFloat x) := by
  change (match Binary.ofFloat x with | .undefined => _ | .infinite _ => _ | .finite _ _ _ => _) = _
  cases Binary.ofFloat x <;> rfl

/-- What equals a whole number has its digest. -/
theorem ofBinary_of_compareInt? {n : Int} {b : Binary} (same : b.compareInt? n = some .eq) :
    ofBinary b = ofNum (.int n) := by
  cases b with
  | undefined => cases same
  | infinite negative => cases negative <;> cases same
  | finite negative m e =>
    have scaled := Binary.scaled_of_compareInt? same
    have size : n.natAbs * twoTo (-e).toNat = m * twoTo e.toNat := by
      have := congrArg Int.natAbs scaled
      cases negative <;> simpa [Int.natAbs_mul] using this
    change signed negative (m % modulus * twoTo (Int.emod e 61).toNat % modulus) =
      signed (n < 0) (n.natAbs % modulus)
    rw [remainder_of_scaled size]
    rcases Binary.sign_of_scaled (Nat.two_pow_pos _) scaled with zero | sign
    · rw [zero, Int.natAbs_zero, Nat.zero_mod, signed_zero, signed_zero]
    · rw [sign]

/-- What compares as equal has the same parts, but for the sign of zero. -/
theorem ofBinary_of_compare {u v : UnpackedFloat} (same : u.compare v = some .eq) :
    ofBinary (Binary.ofParts u) = ofBinary (Binary.ofParts v) := by
  cases u with
  | notANumber => cases v <;> cases same
  | zero s =>
    cases v with
    | zero t => exact (signed_zero _).trans (signed_zero _).symm
    | notANumber => cases same
    | infinity t => cases t <;> cases same
    | finite t n f => cases t <;> cases same
  | infinity s =>
    cases v with
    | infinity t => cases s <;> cases t <;> first | rfl | cases same
    | _ => cases s <;> cases same
  | finite s m e =>
    cases v with
    | finite t n f =>
      cases s <;> cases t <;> simp [UnpackedFloat.compare, Ordering.swap_eq_eq] at same
      all_goals
        obtain ⟨rfl, rfl⟩ := same
        rfl
    | infinity t => cases s <;> cases t <;> cases same
    | _ => cases s <;> cases same

/-- Numbers of the same value have one digest. -/
theorem ofNum_of_same {a b : Num} (same : a.same b = true) : ofNum a = ofNum b := by
  have equal : a.compare? b = some .eq := beq_iff_eq.mp same
  cases a with
  | int n =>
    cases b with
    | int k => rw [compare_eq_iff_eq.mp (Option.some.inj equal)]
    | float y => exact ((ofNum_float y).trans (ofBinary_of_compareInt? equal)).symm
  | float x =>
    cases b with
    | int k =>
      obtain ⟨order, compared, swapped⟩ := Option.map_eq_some_iff.mp equal
      rw [Ordering.swap_eq_eq.mp swapped] at compared
      exact (ofNum_float x).trans (ofBinary_of_compareInt? compared)
    | float y =>
      rw [ofNum_float, ofNum_float, Binary.ofFloat_eq, Binary.ofFloat_eq]
      exact ofBinary_of_compare (Num.compare_of_same same)

/-- The undefined number has a digest of its own. -/
theorem ofNum_undefined {x : Float} (undefined : x.isNaN = true) : ofNum (.float x) = .undefined := by
  rw [ofNum_float, Binary.ofFloat_undefined undefined]
  rfl

/-! ## Scalars -/

private theorem ofScalar_of_countsAs? {v : Datum} {n : Num} (counts : v.countsAs? = some n) :
    ofScalar v = ofNum n := by
  cases v <;> simp_all [Value.countsAs?, Value.num?, ofScalar]

/-- Keys that are one key have one digest. -/
theorem ofScalar_of_sameKey {v w : Datum} (same : Value.sameKey v w = true) :
    ofScalar v = ofScalar w := by
  rcases Bool.or_eq_true_iff.mp same with one | equal
  · unfold Value.identical at one
    split at one
    · rw [beq_iff_eq.mp one]
    · obtain ⟨first, second⟩ := Bool.and_eq_true_iff.mp one
      exact (ofNum_undefined first).trans (ofNum_undefined second).symm
    · cases one
  · unfold Value.sameScalar at equal
    split at equal
    · rfl
    · rw [beq_iff_eq.mp equal]
    · split at equal
      · next first second =>
        rw [ofScalar_of_countsAs? first, ofScalar_of_countsAs? second, ofNum_of_same equal]
      · cases equal

end Digest

end ResourceGraph

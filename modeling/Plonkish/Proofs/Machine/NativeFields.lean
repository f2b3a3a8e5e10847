import Plonkish.Proofs.Field.Hexadecimal
import Plonkish.Proofs.Machine.Loading
import Plonkish.Proofs.Machine.Outcome

namespace Plonkish

/-!
# Native fields

A declared field is that of the circuit if both have one modulus, in whichever
way it is written. This decides whether a constant of the declared field is
read, and whether points with coordinates in it are added: what is reported as
not implemented has another modulus, or is a point of the one curve that has no
addition over any field.
-/

namespace FieldKind

/-- The number of elements. -/
def modulus (kind : FieldKind) : Nat :=
  Numeral.hexNumber kind.modulusText

/-- The text of every modulus is a number in hexadecimal. -/
theorem isHexNumber_modulusText (kind : FieldKind) : Numeral.IsHexNumber kind.modulusText := by
  cases kind <;> decide +kernel

theorem isNative_modulusText (kind : FieldKind) (field : PrimeField) :
    field.isNative kind.modulusText = decide (kind.modulus = field.modulus) := by
  rw [Bool.eq_iff_iff, PrimeField.isNative_iff kind.isHexNumber_modulusText, decide_eq_true_iff,
    modulus]

end FieldKind

namespace Instruction

open Assembly Translation

variable
  {field : PrimeField}
  {instruction : Instruction}
  {machine : Machine field}
  {index : Nat}
  {limitation : Limitation}

/-- A constant is not implemented exactly if its field has another modulus. -/
theorem constantElement_unimplemented_iff
    {kind : FieldKind}
    {digits : String}
    (found : instruction.constant index = .ok (.field kind digits)) :
    instruction.constantElement field index = .error (.unimplemented limitation) ↔
      kind.modulus ≠ field.modulus ∧ limitation = .foreignConstant kind := by
  by_cases native : kind.modulus = field.modulus
  · refine iff_of_false (fun failed => ?_) fun foreign => foreign.1 native
    have failed := (bind_of_ok found _).symm.trans failed
    dsimp only at failed
    rw [kind.isNative_modulusText, if_pos (decide_eq_true native)] at failed
    split at failed <;> cases failed
  · have refused : instruction.constantElement field index =
        .error (.unimplemented (.foreignConstant kind)) := by
      refine (bind_of_ok found _).trans ?_
      dsimp only
      rw [kind.isNative_modulusText, if_neg (by simpa using native)]
    rw [refused, and_iff_right native]
    simp [eq_comm]

/-- A vector that cannot be read is not reported as not implemented. -/
theorem vector_ne_unimplemented :
    instruction.vector index machine ≠ .error (.unimplemented limitation) := by
  intro failed
  rcases bind_eq_error_iff.mp failed with noName | ⟨id, -, noVector⟩
  · rcases bind_eq_error_iff.mp noName with noOperand | ⟨operand, -, noValue⟩
    · unfold operand at noOperand
      split at noOperand <;> cases noOperand
    · cases operand <;> cases noValue
  · rcases bind_eq_error_iff.mp noVector with unbound | ⟨slot, -, noCells⟩
    · unfold Frame.lookup at unbound
      split at unbound <;> cases unbound
    · cases slot <;> cases noCells

theorem pair_ne_unimplemented :
    instruction.pair index machine ≠ .error (.unimplemented limitation) := by
  intro failed
  rcases bind_eq_error_iff.mp failed with noVector | ⟨cells, -, noPair⟩
  · exact vector_ne_unimplemented noVector
  · split at noPair <;> cases noPair

/-- What is reported of a sum of points is what reading them reports. -/
theorem handleCurveAdd_reports_iff {failure : Failure} :
    (instruction.handleCurveAdd.run machine).1 = .error (.report failure) ↔
      instruction.pointOperands machine = .error failure := by
  unfold handleCurveAdd
  rw [run_read_bind]
  cases read : instruction.pointOperands machine with
  | error found => simp
  | ok points =>
      obtain ⟨left, right⟩ := points
      have completes : Completes (fun _ => True) (Gadget.addPoints left right) machine.transcript :=
        Gadget.addPoints_completes left right
      obtain ⟨sum, transcript, computed, -⟩ := completes
      dsimp only
      rw [run_assemble_bind, computed]
      exact iff_of_false nofun nofun

section Points

variable
  {kind : CurveKind}
  (first : instruction.curveKind 0 = .ok kind)
  (second : instruction.curveKind 1 = .ok kind)

include first second

/-- Points that cannot be added over the field are refused for it. -/
theorem pointOperands_of_unsupported
    (unsupported : kind = .curve25519 ∨ kind.baseField.modulus ≠ field.modulus) :
    instruction.pointOperands machine =
      .error (.unimplemented
        (.addition (decide (kind.baseField.modulus = field.modulus)) kind)) := by
  refine (bind_of_ok first _).trans ?_
  refine (bind_of_ok second _).trans ?_
  dsimp only
  rw [if_neg (not_not_intro rfl), kind.baseField.isNative_modulusText,
    if_pos (by simpa using unsupported)]
  rfl

/-- Points that can be added over the field are not refused for it. -/
theorem pointOperands_ne_unimplemented
    (supported : ¬(kind = .curve25519 ∨ kind.baseField.modulus ≠ field.modulus)) :
    instruction.pointOperands machine ≠ .error (.unimplemented limitation) := by
  intro failed
  have failed := (bind_of_ok first _).symm.trans failed
  have failed := (bind_of_ok second _).symm.trans failed
  dsimp only at failed
  rw [if_neg (not_not_intro rfl), kind.baseField.isNative_modulusText,
    if_neg (by simpa using supported)] at failed
  rcases bind_eq_error_iff.mp failed with noLeft | ⟨left, -, failed⟩
  · exact pair_ne_unimplemented noLeft
  · rcases bind_eq_error_iff.mp failed with noRight | ⟨right, -, failed⟩
    · exact pair_ne_unimplemented noRight
    · cases failed

/-- A sum of points of one curve is not implemented exactly if the field cannot add them. -/
theorem handleCurveAdd_unimplemented_iff :
    (instruction.handleCurveAdd.run machine).1 = .error (.report (.unimplemented limitation)) ↔
      (kind = .curve25519 ∨ kind.baseField.modulus ≠ field.modulus)
        ∧ limitation = .addition (decide (kind.baseField.modulus = field.modulus)) kind := by
  rw [handleCurveAdd_reports_iff]
  by_cases unsupported : kind = .curve25519 ∨ kind.baseField.modulus ≠ field.modulus
  · rw [pointOperands_of_unsupported first second unsupported, and_iff_right unsupported]
    simp [eq_comm]
  · exact iff_of_false (pointOperands_ne_unimplemented first second unsupported)
      fun refused => unsupported refused.1

end Points

end Instruction

namespace PrimeField

/--
Moduli are compared as numbers. Two numbers in hexadecimal, of either case and
with idle zeros and a base mark or without, have one normal form exactly if they
are the same number, so that exactly the texts of the modulus are native. A
constant is not implemented exactly if its field has another modulus; a sum of
points exactly if the field of their coordinates has, or if they are on the
curve that has no addition.
-/
theorem isNative_numeric (field : PrimeField) :
    (∀ left right : String,
        Numeral.IsHexNumber left → Numeral.IsHexNumber right →
          (Numeral.normalHex left = Numeral.normalHex right ↔
            Numeral.hexNumber left = Numeral.hexNumber right))
      ∧ (∀ text : String, Numeral.IsHexNumber text →
          (field.isNative text ↔ Numeral.hexNumber text = field.modulus))
      ∧ (∀ (instruction : Instruction) (index : Nat) (kind : FieldKind) (digits : String)
            (limitation : Limitation),
          instruction.constant index = .ok (.field kind digits) →
            (instruction.constantElement field index = .error (.unimplemented limitation) ↔
              kind.modulus ≠ field.modulus ∧ limitation = .foreignConstant kind))
      ∧ ∀ (instruction : Instruction) (machine : Machine field) (kind : CurveKind)
            (limitation : Limitation),
          instruction.curveKind 0 = .ok kind →
          instruction.curveKind 1 = .ok kind →
            ((instruction.handleCurveAdd.run machine).1 =
                .error (.report (.unimplemented limitation)) ↔
              (kind = .curve25519 ∨ kind.baseField.modulus ≠ field.modulus)
                ∧ limitation =
                    .addition (decide (kind.baseField.modulus = field.modulus)) kind) :=
  ⟨fun _ _ => Numeral.normalHex_eq_iff,
    fun _ => isNative_iff,
    fun _ _ _ _ _ => Instruction.constantElement_unimplemented_iff,
    fun _ _ _ _ => Instruction.handleCurveAdd_unimplemented_iff⟩

/-- A modulus in upper case with idle zeros is native; other fields are not implemented. -/
theorem isNative_numeric_idleZeros :
    let padded := "0X0030644E72E131A029B85045B68181585D97816A916871CA8D3C208C16D87CFD47"
    let modulus := FieldKind.bn254Base.modulusText
    let scalar : Instruction := ⟨⟨0⟩, .friCosets, [.constant (.field .bn254Scalar "5")]⟩
    let sum : Instruction :=
      ⟨⟨2⟩, .curveAdd, [.value ⟨0⟩ (.curve .pallas), .value ⟨1⟩ (.curve .pallas)]⟩
    let machine : Machine .bn254Base := ⟨.standard, .empty, .empty, .empty, #[#[]], none⟩
    Numeral.IsHexNumber padded
      ∧ Numeral.normalHex padded = Numeral.normalHex modulus
      ∧ PrimeField.bn254Base.isNative padded
      ∧ scalar.constant 0 = .ok (.field .bn254Scalar "5")
      ∧ scalar.constantElement .bn254Base 0 =
          .error (.unimplemented (.foreignConstant .bn254Scalar))
      ∧ sum.curveKind 0 = .ok .pallas
      ∧ sum.curveKind 1 = .ok .pallas
      ∧ (sum.handleCurveAdd.run machine).1 =
          .error (.report (.unimplemented (.addition false .pallas))) := by
  intro padded modulus scalar sum machine
  obtain ⟨sameForm, native, constants, sums⟩ := isNative_numeric .bn254Base
  have spelled : Numeral.IsHexNumber padded
      ∧ Numeral.hexNumber padded = PrimeField.bn254Base.modulus := by
    decide +kernel
  obtain ⟨isNumber, isModulus⟩ := spelled
  obtain ⟨modulusNumber, sameModulus⟩ := PrimeField.bn254Base.modulusText_spells
  have foreignScalar : FieldKind.bn254Scalar.modulus ≠ PrimeField.bn254Base.modulus := by
    decide +kernel
  have foreignPallas : FieldKind.pallasBase.modulus ≠ PrimeField.bn254Base.modulus := by
    decide +kernel
  refine ⟨isNumber, (sameForm _ _ isNumber modulusNumber).mpr (isModulus.trans sameModulus.symm),
    (native _ isNumber).mpr isModulus, rfl,
    (constants scalar 0 _ _ _ rfl).mpr ⟨foreignScalar, rfl⟩, rfl, rfl, ?_⟩
  refine (sums sum machine .pallas _ rfl rfl).mpr ⟨.inr foreignPallas, ?_⟩
  exact congrArg (Limitation.addition · .pallas) (decide_eq_false foreignPallas).symm

end PrimeField

end Plonkish

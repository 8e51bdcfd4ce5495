import Mathlib.Logic.Basic

/-! The opcodes of the translator that an artifact may not hold or may hold under a rule of
their own. -/
namespace ILEmu.Dynarmic

/-- The opcodes that the checks of an artifact treat by name. -/
inductive OpcodeName where
  | void | identity | breakpoint | callHostFunction | vectorMultiplySignedWiden8
  | vectorMultiplySignedWiden16 | vectorMultiplySignedWiden32 | vectorMultiplyUnsignedWiden8
  | vectorMultiplyUnsignedWiden16 | vectorMultiplyUnsignedWiden32 | a32CoprocInternalOperation
  | a32CoprocSendOneWord | a32CoprocSendTwoWords | a32CoprocGetOneWord | a32CoprocGetTwoWords
  | a32CoprocLoadWords | a32CoprocStoreWords | mostSignificantWord | logicalShiftLeft32
  | logicalShiftRight32 | arithmeticShiftRight32 | rotateRight32 | rotateRightExtended | add32
  | add64 | sub32 | sub64 | signedSaturatedAddWithFlag32 | signedSaturatedSubWithFlag32
  | signedSaturation | unsignedSaturation | packedAddU8 | packedAddS8 | packedSubU8 | packedSubS8
  | packedAddU16 | packedAddS16 | packedSubU16 | packedSubS16 | packedAddSubU16 | packedAddSubS16
  | packedSubAddU16 | packedSubAddS16 | and32 | and64 | andNot32 | andNot64 | eor32 | eor64 | or32
  | or64 | not32 | not64 | vectorSignedMultiply16 | vectorSignedMultiply32
  | vectorUnsignedMultiply16 | vectorUnsignedMultiply32 | a32ReadMemory8 | a32ReadMemory16
  | a32ReadMemory32 | a32ReadMemory64 | a32ExclusiveReadMemory8 | a32ExclusiveReadMemory16
  | a32ExclusiveReadMemory32 | a32ExclusiveReadMemory64 | a32WriteMemory8 | a32WriteMemory16
  | a32WriteMemory32 | a32WriteMemory64 | a32SwapMemory8 | a32SwapMemory32
  | a32ExclusiveWriteMemory8 | a32ExclusiveWriteMemory16 | a32ExclusiveWriteMemory32
  | a32ExclusiveWriteMemory64 | fpVectorToUnsignedFixed64 | fpRoundInt16 | fpRoundInt32
  | fpRoundInt64 | fpVectorRoundInt16 | fpVectorRoundInt32 | fpVectorRoundInt64 | fpHalfToDouble
  | fpHalfToSingle | fpSingleToDouble | fpDoubleToHalf | fpDoubleToSingle | fpSingleToHalf
  | fpDoubleToFixedS16 | fpDoubleToFixedU16 | fpHalfToFixedS16 | fpHalfToFixedU16
  | fpSingleToFixedS16 | fpSingleToFixedU16 | fpDoubleToFixedS32 | fpDoubleToFixedU32
  | fpHalfToFixedS32 | fpHalfToFixedU32 | fpSingleToFixedS32 | fpSingleToFixedU32
  | fpDoubleToFixedS64 | fpDoubleToFixedU64 | fpHalfToFixedS64 | fpHalfToFixedU64
  | fpSingleToFixedS64 | fpSingleToFixedU64 | fpFixedU16ToSingle | fpFixedS16ToSingle
  | fpFixedU16ToDouble | fpFixedS16ToDouble | fpFixedU32ToSingle | fpFixedS32ToSingle
  | fpFixedU32ToDouble | fpFixedS32ToDouble | fpFixedU64ToDouble | fpFixedU64ToSingle
  | fpFixedS64ToDouble | fpFixedS64ToSingle | fpVectorFromSignedFixed32
  | fpVectorFromUnsignedFixed32 | fpVectorFromSignedFixed64 | fpVectorFromUnsignedFixed64
  | fpVectorToSignedFixed16 | fpVectorToUnsignedFixed16 | fpVectorToSignedFixed32
  | fpVectorToUnsignedFixed32 | fpVectorToSignedFixed64 | fpVectorFromHalf32 | fpVectorToHalf32
  | vectorGetElement8 | vectorSetElement8 | vectorBroadcastElementLower8 | vectorBroadcastElement8
  | vectorGetElement16 | vectorSetElement16 | vectorBroadcastElementLower16
  | vectorBroadcastElement16 | vectorGetElement32 | vectorSetElement32
  | vectorBroadcastElementLower32 | vectorBroadcastElement32 | vectorGetElement64
  | vectorSetElement64 | vectorBroadcastElement64 | vectorExtract | vectorExtractLower
  | vectorArithmeticShiftRight8 | vectorArithmeticShiftRight16 | vectorArithmeticShiftRight32
  | vectorArithmeticShiftRight64 | vectorLogicalShiftLeft8 | vectorLogicalShiftLeft16
  | vectorLogicalShiftLeft32 | vectorLogicalShiftLeft64 | vectorLogicalShiftRight8
  | vectorLogicalShiftRight16 | vectorLogicalShiftRight32 | vectorLogicalShiftRight64
  | vectorSignedSaturatedShiftLeftUnsigned8 | vectorSignedSaturatedShiftLeftUnsigned16
  | vectorSignedSaturatedShiftLeftUnsigned32 | vectorSignedSaturatedShiftLeftUnsigned64
  | vectorRotateWholeVectorRight | vectorTranspose8 | vectorTranspose16 | vectorTranspose32
  | vectorTranspose64 | sha256Hash | a32SetCpsrNZC | a32GetRegister | a32SetRegister
  | a32GetExtendedRegister32 | a32SetExtendedRegister32 | a32GetExtendedRegister64
  | a32SetExtendedRegister64 | a32GetVector | a32SetVector | pushRSB | testBit | extractRegister32
  | extractRegister64 | replicateBit32 | replicateBit64 | a32SetGEFlags | a32SetCpsrNZCV
  | a32SetCpsrNZ | a32SetFpscrNZCV | a32ExceptionRaised | a32SetCheckBit | getCarryFromOp
  | getOverflowFromOp | getGEFromOp | getUpperFromOp | getLowerFromOp | getNZCVFromOp | getNZFromOp
  | vectorTable | vectorTableLookup64 | vectorTableLookup128 | other
  deriving DecidableEq

namespace OpcodeName

/-- The first switch of `emitter_safe_opcode`. -/
def emitterUnsafe : OpcodeName → Bool
  | .void | .identity | .breakpoint | .callHostFunction | .vectorMultiplySignedWiden8
    | .vectorMultiplySignedWiden16 | .vectorMultiplySignedWiden32 | .vectorMultiplyUnsignedWiden8
    | .vectorMultiplyUnsignedWiden16 | .vectorMultiplyUnsignedWiden32 | .a32CoprocInternalOperation
    | .a32CoprocSendOneWord | .a32CoprocSendTwoWords | .a32CoprocGetOneWord | .a32CoprocGetTwoWords
    | .a32CoprocLoadWords | .a32CoprocStoreWords => true
  | _ => false

def carryParent : OpcodeName → Bool
  | .mostSignificantWord | .logicalShiftLeft32 | .logicalShiftRight32 | .arithmeticShiftRight32
    | .rotateRight32 | .rotateRightExtended | .add32 | .add64 | .sub32 | .sub64 => true
  | _ => false

def overflowParent : OpcodeName → Bool
  | .add32 | .add64 | .sub32 | .sub64 | .signedSaturatedAddWithFlag32
    | .signedSaturatedSubWithFlag32 | .signedSaturation | .unsignedSaturation => true
  | _ => false

def geParent : OpcodeName → Bool
  | .packedAddU8 | .packedAddS8 | .packedSubU8 | .packedSubS8 | .packedAddU16 | .packedAddS16
    | .packedSubU16 | .packedSubS16 | .packedAddSubU16 | .packedAddSubS16 | .packedSubAddU16
    | .packedSubAddS16 => true
  | _ => false

def nzcvParent : OpcodeName → Bool
  | .add32 | .add64 | .sub32 | .sub64 | .and32 | .and64 | .andNot32 | .andNot64 | .eor32 | .eor64
    | .or32 | .or64 | .not32 | .not64 => true
  | _ => false

def upperLowerParent : OpcodeName → Bool
  | .vectorSignedMultiply16 | .vectorSignedMultiply32 | .vectorUnsignedMultiply16
    | .vectorUnsignedMultiply32 => true
  | _ => false

/-- The pseudo-operations that a parent has at most one of each. -/
def associatedPseudo : OpcodeName → Bool
  | .getCarryFromOp | .getOverflowFromOp | .getGEFromOp | .getUpperFromOp | .getLowerFromOp => true
  | _ => false

def a32MemoryOpcode : OpcodeName → Bool
  | .a32ReadMemory8 | .a32ReadMemory16 | .a32ReadMemory32 | .a32ReadMemory64
    | .a32ExclusiveReadMemory8 | .a32ExclusiveReadMemory16 | .a32ExclusiveReadMemory32
    | .a32ExclusiveReadMemory64 | .a32WriteMemory8 | .a32WriteMemory16 | .a32WriteMemory32
    | .a32WriteMemory64 | .a32SwapMemory8 | .a32SwapMemory32 | .a32ExclusiveWriteMemory8
    | .a32ExclusiveWriteMemory16 | .a32ExclusiveWriteMemory32 | .a32ExclusiveWriteMemory64 => true
  | _ => false

end OpcodeName
end ILEmu.Dynarmic

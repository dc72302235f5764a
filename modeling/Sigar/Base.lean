/-
  Scalar types and constants of `include/sigar.h`, shared by every module.

  `sigar_uint64_t` is `UInt64`, `sigar_uint32_t` is `UInt32` and `sigar_pid_t` (a POSIX `pid_t`) is
  `Int32`, so that the arithmetic of the model wraps where the machine's does.  An `unsigned int`
  counter of the source is a `Nat` that every operation reduces by `u32`.
-/
import Mathlib.Data.List.Basic

namespace Sigar

/-- `sigar_pid_t`. -/
abbrev SigarPid := Int32

/-- The `int` that the functions of the library return. -/
abbrev Status := Int

/-- `SIGAR_OK`. -/
def sigarOk : Status := 0

/-- `SIGAR_ENOTIMPL`, that is `SIGAR_START_ERROR + 1`. -/
def sigarEnotimpl : Status := 20001

/-- `SIGAR_FIELD_NOTIMPL` (the `int` -1), converted to a `sigar_uint64_t`. -/
def sigarFieldNotImpl : UInt64 := 18446744073709551615

/-- `INT_MAX`. -/
def intMax : Nat := 2147483647

/-- The value of an `unsigned int` expression. -/
def u32 (n : Nat) : Nat := n % 4294967296

/-- A pid as the 64-bit key and operand that the C conversions make of it (sign extension). -/
def pidToUInt64 (pid : SigarPid) : UInt64 := pid.toInt64.toUInt64

theorem pidToUInt64_injective {p q : SigarPid} (h : pidToUInt64 p = pidToUInt64 q) : p = q := by
  have h64 : p.toInt64 = q.toInt64 := congrArg UInt64.toInt64 h
  have hint : p.toInt64.toInt = q.toInt64.toInt := by rw [h64]
  rw [Int32.toInt_toInt64, Int32.toInt_toInt64] at hint
  exact Int32.toInt_inj.mp hint

end Sigar

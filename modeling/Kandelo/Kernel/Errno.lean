import Mathlib.Algebra.Group.Int.Defs
import Mathlib.Algebra.GroupWithZero.Nat

/-!
# Kernel error codes and checked machine arithmetic

The error codes of `crates/shared/src/lib.rs` that the modelled
functions return, and the checked `i64` addition they are guarded by.
-/

namespace Kandelo.Kernel

/-- Error codes returned by the modelled kernel functions; `crates/shared/src/lib.rs`. -/
inductive Errno
  | E2BIG
  | EACCES
  | EADDRINUSE
  | EAFNOSUPPORT
  | EAGAIN
  | EBADF
  | EBUSY
  | EDEADLK
  | EEXIST
  | EFAULT
  | EFBIG
  | EINTR
  | EINVAL
  | EIo
  | EISDIR
  | ELOOP
  | EMFILE
  | EMSGSIZE
  | ENAMETOOLONG
  | ENOENT
  | ENOLCK
  | ENOMEM
  | ENOMSG
  | ENOSPC
  | ENOTCONN
  | ENOTDIR
  | ENxio
  | EOVERFLOW
  | EPERM
  | EPIPE
  | EPROTOTYPE
  | EROFS
  | ESPIPE
  | ESRCH
  deriving DecidableEq

/-- Add as `i64::checked_add` does: the sum, unless it leaves the signed 64-bit range. -/
def checkedAddI64 (a b : Int) : Option Int :=
  let sum := a + b
  if -2 ^ 63 ≤ sum ∧ sum < 2 ^ 63 then some sum else none

lemma checkedAddI64_eq_some {a b c : Int} (h : checkedAddI64 a b = some c) : c = a + b := by
  simp only [checkedAddI64] at h
  split at h
  · exact (Option.some.inj h).symm
  · cases h

end Kandelo.Kernel

/-!
# Spin locks

A `SpinLock` guards a value with one flag.  Whoever turns the flag from off to on
holds the lock, and gives it back by turning it off.  Whoever finds it on pauses
and tries again, for twice as many turns after each failure, up to a limit.

Such a repeated try is a weak one: it may fail although the flag is off.  A try that
is not repeated is never weak.
-/

namespace Workforce

/-- A value, and the flag that says whether someone holds it. -/
structure SpinLock (α : Type) where
  data : α
  locked : Bool := false
deriving DecidableEq, Inhabited

namespace SpinLock

variable {α : Type}

/-- The longest pause between two tries. -/
def maxBackoff : Nat := 32

/-- The pause after a failed try, by the pause before it. -/
def nextBackoff (pause : Nat) : Nat := if pause < maxBackoff then 2 * pause else pause

/-- Whether someone holds the lock. -/
def isLocked (lock : SpinLock α) : Bool := lock.locked

/-- Turns the flag on.  The answer is whether it was off, that is, whether the
caller holds the lock now. -/
def tryAcquire (lock : SpinLock α) : Bool × SpinLock α :=
  (!lock.locked, { lock with locked := true })

/-- The same as a weak try, which fails for no reason when it is `spurious`. -/
def tryAcquireWeakly (lock : SpinLock α) (spurious : Bool) : Bool × SpinLock α :=
  if spurious then (false, lock) else lock.tryAcquire

/-- Gives the lock back. -/
def release (lock : SpinLock α) : SpinLock α := { lock with locked := false }

/-- Writes the guarded value. -/
def write (lock : SpinLock α) (data : α) : SpinLock α := { lock with data }

@[simp]
theorem tryAcquire_fst (lock : SpinLock α) : lock.tryAcquire.1 = !lock.locked := rfl

@[simp]
theorem data_tryAcquire (lock : SpinLock α) : lock.tryAcquire.2.data = lock.data := rfl

@[simp]
theorem locked_tryAcquire (lock : SpinLock α) : lock.tryAcquire.2.locked = true := rfl

/-- A try that fails changes nothing. -/
theorem tryAcquire_of_locked (lock : SpinLock α) (h : lock.locked = true) :
    lock.tryAcquire = (false, lock) := by
  cases lock
  simp_all [tryAcquire]

theorem tryAcquire_of_free (lock : SpinLock α) (h : lock.locked = false) :
    lock.tryAcquire = (true, lock.tryAcquire.2) := by
  simp [tryAcquire, h]

@[simp]
theorem tryAcquireWeakly_true (lock : SpinLock α) :
    lock.tryAcquireWeakly true = (false, lock) := rfl

@[simp]
theorem tryAcquireWeakly_false (lock : SpinLock α) :
    lock.tryAcquireWeakly false = lock.tryAcquire := rfl

@[simp]
theorem data_release (lock : SpinLock α) : lock.release.data = lock.data := rfl

@[simp]
theorem locked_release (lock : SpinLock α) : lock.release.locked = false := rfl

@[simp]
theorem data_write (lock : SpinLock α) (data : α) : (lock.write data).data = data := rfl

@[simp]
theorem locked_write (lock : SpinLock α) (data : α) : (lock.write data).locked = lock.locked :=
  rfl

end SpinLock

end Workforce

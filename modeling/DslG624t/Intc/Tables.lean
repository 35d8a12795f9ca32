import Mathlib

/-!
# Interrupt numbers

The ranges that `avalanche_intc.h` cuts the interrupt numbers into, and what `request_irq`
registers for a number (`struct irqaction`).
-/

namespace DslG624t.Intc

def mipsExceptionOffset : ℕ := 8

def avalancheIntEndPrimary : ℕ := 40+mipsExceptionOffset

def avalancheIntEndSecondary : ℕ := 32+avalancheIntEndPrimary

def avalancheIntEndPrimaryReg2 : ℕ := 40

def avalancheIntcEnd : ℕ := avalancheIntEndSecondary

def avIntNum (x : ℕ) : ℕ := x-mipsExceptionOffset

def lnxIntNum (x : ℕ) : ℕ := x+mipsExceptionOffset

def avalancheUnifiedSecondaryInt : ℕ := 0

/-- `struct irqaction`, its functions and pointers as the numbers they are. -/
structure Irqaction where
  handler : ℕ
  flags : ℕ
  name : ℕ
  devId : ℕ
  deriving DecidableEq

end DslG624t.Intc

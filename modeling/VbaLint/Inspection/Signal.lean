/-!
# Cancellation signals

A pass can be cancelled from outside at any moment, and by a rule of its own. All that a pass can see
of this is the answer each time it looks at the signal: so a signal is the number of times that it
still looks clear, or clear for ever.
-/

namespace VbaLint

structure Signal where
  /-- How often the signal will still look clear; `none` stands for always. -/
  remaining : Option Nat
  deriving DecidableEq, Repr

namespace Signal

/-- The signal of a pass that nobody cancels from outside. -/
def clear : Signal := ⟨none⟩

def cancelled : Signal := ⟨some 0⟩

/-- The signal looks set from now on. -/
def isCancelled (signal : Signal) : Bool := signal.remaining == some 0

/-- The signal after it has been looked at and was clear. -/
def next (signal : Signal) : Signal := ⟨signal.remaining.map (· - 1)⟩

end Signal

end VbaLint

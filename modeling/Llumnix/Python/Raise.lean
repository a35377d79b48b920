import Mathlib.Logic.Basic

/-! Code that raises exceptions: when a sequence of calls or a `try` gives a value. -/
namespace Python

variable {ε α β : Type}

theorem bind_eq_ok {x : Except ε α} {f : α → Except ε β} {b : β} :
    (x >>= f) = .ok b ↔ ∃ a, x = .ok a ∧ f a = .ok b := by
  cases x with
  | ok a => simp [bind, Except.bind]
  | error e => simp [bind, Except.bind]

theorem bind_eq_error {x : Except ε α} {f : α → Except ε β} {e : ε} :
    (x >>= f) = .error e ↔ x = .error e ∨ ∃ a, x = .ok a ∧ f a = .error e := by
  cases x with
  | ok a => simp [bind, Except.bind]
  | error e => simp [bind, Except.bind]

theorem tryCatch_ok (a : α) (f : ε → Except ε α) : tryCatch (.ok a) f = .ok a := rfl

theorem tryCatch_error (e : ε) (f : ε → Except ε α) : tryCatch (.error e) f = f e := rfl

theorem tryCatch_eq_ok {x : Except ε α} {f : ε → Except ε α} {a : α} :
    tryCatch x f = .ok a ↔ x = .ok a ∨ ∃ e, x = .error e ∧ f e = .ok a := by
  cases x with
  | ok a => simp [tryCatch_ok]
  | error e => simp [tryCatch_error]

theorem tryCatch_eq_error {x : Except ε α} {f : ε → Except ε α} {e : ε} :
    tryCatch x f = .error e ↔ ∃ e', x = .error e' ∧ f e' = .error e := by
  cases x with
  | ok a => simp [tryCatch_ok]
  | error e => simp [tryCatch_error]

end Python

import Mathlib.Data.List.Nodup

/-!
# Go calls: returns, errors and panics

A modelled Go function either returns (a value, or an `error` value) or panics at run time.
A call is `Except (Fault ε) α`: `.ok a` is a normal return, `.error (.err e)` a returned
error `e`, and `.error (.panic p)` a run-time panic.  Go's fail-fast
`if err := f(); err != nil { return err }` is then the bind of `Except`, and a panic runs
through every caller just as it does in Go.

* `bind_eq_ok`, `fail_ne_ok`, `crash_ne_ok`: the simp set that takes a successful call apart.
* `checkEach`: a fail-fast loop, which passes exactly when every iteration does.
* `Returns`: a call that ends with a result or an error, not a panic; `Returns.bind`,
  `Returns.ite` and `returns_checkEach` carry it through a sequence of calls, a branch and a
  loop, so that a check's proof follows the check's own branches.
* `sliceGet`: Go's `s[i]`, which panics outside `[0, len s)`.
* `parseBigInt`: `new(big.Int).SetString(s, 10)`, an optional sign and at least one decimal
  digit, the whole string.
-/

namespace MeshSdk

/-- The run-time panics the modelled code can raise. -/
inductive Panic where
  | nilDereference
  | indexOutOfRange
  deriving DecidableEq, Repr

/-- How a Go call ends when it does not return normally. -/
inductive Fault (ε : Type) where
  | err (e : ε)
  | panic (p : Panic)
  deriving DecidableEq, Repr

section Except

variable {ε α β : Type}

/-- Return the error value `e`. -/
def fail (e : ε) : Except (Fault ε) α := .error (.err e)

/-- Panic at run time. -/
def crash (p : Panic) : Except (Fault ε) α := .error (.panic p)

@[simp] theorem fail_ne_ok {e : ε} {a : α} : (fail e : Except (Fault ε) α) ≠ .ok a := by
  simp [fail]

@[simp] theorem crash_ne_ok {p : Panic} {a : α} : (crash p : Except (Fault ε) α) ≠ .ok a := by
  simp [crash]

@[simp] theorem bind_eq_ok {x : Except ε α} {f : α → Except ε β} {b : β} :
    x >>= f = .ok b ↔ ∃ a, x = .ok a ∧ f a = .ok b := by
  cases x <;> simp [bind, Except.bind]

@[simp] theorem map_eq_ok {x : Except ε α} {f : α → β} {b : β} :
    f <$> x = .ok b ↔ ∃ a, x = .ok a ∧ f a = b := by
  cases x <;> simp [Functor.map, Except.map]

@[simp] theorem exists_unit_eq_ok {x : Except ε Unit} : (∃ u, x = .ok u) ↔ x = .ok () :=
  ⟨fun ⟨(), h⟩ => h, fun h => ⟨(), h⟩⟩

@[simp] theorem pure_eq_ok {a b : α} : (pure a : Except ε α) = .ok b ↔ a = b := by
  simp [pure, Except.pure]

@[simp] theorem fail_bind {e : ε} {f : α → Except (Fault ε) β} : fail e >>= f = fail e := rfl

@[simp] theorem crash_bind {p : Panic} {f : α → Except (Fault ε) β} :
    (crash p : Except (Fault ε) α) >>= f = crash p := rfl

@[simp] theorem ok_bind {a : α} {f : α → Except ε β} :
    (Except.ok a : Except ε α) >>= f = f a :=
  rfl

/-- Go's `for _, x := range xs { if err := f(x); err != nil { return err } }`. -/
def checkEach (f : α → Except ε Unit) : List α → Except ε Unit
  | [] => pure ()
  | x :: xs => do f x; checkEach f xs

@[simp] theorem checkEach_eq_ok {f : α → Except ε Unit} {xs : List α} :
    checkEach f xs = .ok () ↔ ∀ x ∈ xs, f x = .ok () := by
  induction xs with
  | nil => simp [checkEach]
  | cons x xs ih => simp [checkEach, ih]

/-- The call returns, with a result or an error: it does not panic. -/
def Returns (x : Except (Fault ε) α) : Prop := ∀ p, x ≠ crash p

theorem returns_ok {a : α} : Returns (.ok a : Except (Fault ε) α) := fun _ h => by cases h

theorem returns_fail {e : ε} : Returns (fail e : Except (Fault ε) α) := fun _ h => by cases h

theorem Returns.bind {x : Except (Fault ε) α} {f : α → Except (Fault ε) β} (hx : Returns x)
    (hf : ∀ a, x = .ok a → Returns (f a)) : Returns (x >>= f) := by
  rcases x with (e | q) | a
  · exact returns_fail
  · exact absurd rfl (hx q)
  · exact hf a rfl

/-- A branch returns when both of its arms do. -/
theorem Returns.ite {c : Prop} [Decidable c] {x y : Except (Fault ε) α} (hx : Returns x)
    (hy : Returns y) : Returns (if c then x else y) := by
  split_ifs <;> assumption

theorem returns_checkEach {f : α → Except (Fault ε) Unit} {xs : List α}
    (h : ∀ x ∈ xs, Returns (f x)) : Returns (checkEach f xs) := by
  induction xs with
  | nil => exact returns_ok
  | cons x xs ih =>
    exact (h x (List.mem_cons_self x xs)).bind fun _ _ =>
      ih fun y hy => h y (List.mem_cons_of_mem x hy)

end Except

/-! ## Slices -/

/-- Go's `s[i]` on a slice: the element, or a panic when `i` is outside `[0, len s)`. -/
def sliceGet {ε α : Type} (s : List α) (i : Int) : Except (Fault ε) α :=
  if h : 0 ≤ i ∧ i.toNat < s.length then .ok (s.get ⟨i.toNat, h.2⟩)
  else crash .indexOutOfRange

theorem sliceGet_of_neg {ε α : Type} (s : List α) {i : Int} (h : i < 0) :
    (sliceGet s i : Except (Fault ε) α) = crash .indexOutOfRange := by
  simp [sliceGet, show ¬ 0 ≤ i by omega]

theorem sliceGet_eq_ok {ε α : Type} {s : List α} {i : Int} {a : α} :
    (sliceGet s i : Except (Fault ε) α) = .ok a ↔ ∃ h : 0 ≤ i ∧ i.toNat < s.length,
      s.get ⟨i.toNat, h.2⟩ = a := by
  unfold sliceGet
  split <;> simp_all

/-! ## Strings -/

/-- Go's `len(s) == 0` is `s == ""`. -/
@[simp] theorem string_length_eq_zero {s : String} : s.length = 0 ↔ s = "" := by
  rcases s with ⟨_ | _⟩
  · simp
  · simp only [String.length, List.length_cons, Nat.add_one_ne_zero, false_iff]
    exact fun h => List.cons_ne_nil _ _ (congrArg String.data h)

/-! ## Big integers -/

/-- The value of a run of decimal digits, read after the digits `acc` already read. -/
def digitsFrom (acc : Nat) : List Char → Option Nat
  | [] => some acc
  | c :: cs => if c.isDigit then digitsFrom (10 * acc + (c.toNat - '0'.toNat)) cs else none

/-- A non-empty run of decimal digits. -/
def digitsValue : List Char → Option Nat
  | [] => none
  | c :: cs => if c.isDigit then digitsFrom (c.toNat - '0'.toNat) cs else none

/-- `new(big.Int).SetString(s, 10)`: an optional `+` or `-` and then one or more decimal digits,
making up the whole string; `none` where Go reports `ok == false`. -/
def parseBigInt (s : String) : Option Int :=
  match s.toList with
  | '-' :: ds => (digitsValue ds).map fun n => -(n : Int)
  | '+' :: ds => (digitsValue ds).map fun n => (n : Int)
  | ds => (digitsValue ds).map fun n => (n : Int)

theorem parseBigInt_empty : parseBigInt "" = none := rfl

example : parseBigInt "-5" = some (-5) ∧ parseBigInt "+0" = some 0 ∧ parseBigInt "1_0" = none :=
  by decide

end MeshSdk

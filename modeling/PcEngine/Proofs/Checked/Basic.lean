/-
PcEngine/Proofs/Checked/Basic.lean

Computations that fail instead of leaving a table or the width of a number.

The definitions of the machine are total.  Past the end of a table they give a
default, differences stop at zero, and numbers that count something have no
greatest value.  This is only right if it never happens, and to say that it never
does, the operations of the machine are written down once more in `Checked`: with
look-ups, divisions, sums, products and differences that fail with a `Violation`
when they have no proper result.

Each of them succeeds under its own side condition, with the result that the total
operation has (`get_ok`, `add_ok`, and so on).  A computation in `Checked` is then
equal to a total one if all side conditions hold on the way.
-/
import PcEngine.Word

namespace PcEngine

/-- What a checked computation can fail with.

* `index` — a look-up past the end of a table;
* `division` — a division by zero;
* `underflow` — a difference below zero;
* `overflow` — a sum or product that its number is too narrow for. -/
inductive Violation where
  | index
  | division
  | underflow
  | overflow
  deriving DecidableEq

/-- A computation that can fail. -/
abbrev Checked (α : Type) := Except Violation α

namespace Checked

variable {α β : Type} {n : Nat}

@[simp] theorem ok_bind (a : α) (f : α → Checked β) : (Except.ok a >>= f : Checked β) = f a := rfl

@[simp] theorem pure_eq_ok (a : α) : (pure a : Checked α) = .ok a := rfl

/-! ### Tables -/

/-- Entry `i` of a table. -/
def get (xs : Vector α n) (i : Nat) : Checked α :=
  if h : i < n then .ok (xs.get ⟨i, h⟩) else .error .index

/-- Replace entry `i` of a table. -/
def set (xs : Vector α n) (i : Nat) (x : α) : Checked (Vector α n) :=
  if h : i < n then .ok (xs.set i x h) else .error .index

variable {xs : Vector α n} {i : Nat}

theorem get_ok (h : i < n) : get xs i = .ok (xs.get ⟨i, h⟩) := dif_pos h

theorem set_ok (h : i < n) (x : α) : set xs i x = .ok (xs.set i x h) := dif_pos h

/-- Inside a table the total replacement is the same. -/
theorem set_eq_setIfInBounds (h : i < n) (x : α) : xs.set i x h = xs.setIfInBounds i x := by
  ext j hj
  rw [Vector.getElem_set, Vector.getElem_setIfInBounds]

theorem set_ok_setIfInBounds (h : i < n) (x : α) : set xs i x = .ok (xs.setIfInBounds i x) := by
  rw [set_ok h, set_eq_setIfInBounds h]

/-- A table of entries that do not fail. -/
theorem ofFnM_ok (f : Fin n → α) :
    (Vector.ofFnM fun i => (.ok (f i) : Checked α)) = .ok (Vector.ofFn f) :=
  Vector.ofFnM_pure

theorem mapM_ok (xs : Vector α n) (f : α → β) :
    (xs.mapM fun x => (.ok (f x) : Checked β)) = .ok (xs.map f) :=
  Vector.mapM_pure f

/-- The first `k` elements of an array. -/
def take (xs : Array α) (k : Nat) : Checked (Array α) :=
  if k ≤ xs.size then .ok (xs.extract 0 k) else .error .index

theorem take_ok {xs : Array α} {k : Nat} (h : k ≤ xs.size) : take xs k = .ok (xs.extract 0 k) :=
  if_pos h

/-! ### Numbers

A number of a given width is below `limit`. -/

def add (limit a b : Nat) : Checked Nat :=
  if a + b < limit then .ok (a + b) else .error .overflow

def mul (limit a b : Nat) : Checked Nat :=
  if a * b < limit then .ok (a * b) else .error .overflow

def sub (a b : Nat) : Checked Nat :=
  if b ≤ a then .ok (a - b) else .error .underflow

def div (a b : Nat) : Checked Nat :=
  if b = 0 then .error .division else .ok (a / b)

def mod (a b : Nat) : Checked Nat :=
  if b = 0 then .error .division else .ok (a % b)

/-- A difference of bytes. -/
def subByte (a b : Byte) : Checked Byte :=
  if b ≤ a then .ok (a - b) else .error .underflow

variable {limit a b : Nat}

theorem add_ok (h : a + b < limit) : add limit a b = .ok (a + b) := if_pos h

theorem mul_ok (h : a * b < limit) : mul limit a b = .ok (a * b) := if_pos h

theorem sub_ok (h : b ≤ a) : sub a b = .ok (a - b) := if_pos h

theorem div_ok (h : 0 < b) : div a b = .ok (a / b) := if_neg (Nat.ne_of_gt h)

theorem mod_ok (h : 0 < b) : mod a b = .ok (a % b) := if_neg (Nat.ne_of_gt h)

theorem subByte_ok {a b : Byte} (h : b ≤ a) : subByte a b = .ok (a - b) := if_pos h

end Checked

/-! ### Registers narrower than a word

A register whose high byte is below `n` is itself below `n * 256`. -/

namespace Word

variable {w : Word} {n : Nat}

theorem setLow_lt (h : w.toNat < n * 256) (lo : Byte) : (setLow w lo).toNat < n * 256 := by
  have hlo := lo.toNat_lt
  rw [setLow, toNat_ofBytes, toNat_high]
  omega

theorem setHigh_lt {hi : Byte} (h : hi.toNat < n) : (setHigh w hi).toNat < n * 256 := by
  have hmod := Nat.mod_lt w.toNat (y := 256) (by decide)
  rw [setHigh, toNat_ofBytes, toNat_low]
  omega

end Word

end PcEngine

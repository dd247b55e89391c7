/-
Arithmetic on machine words that never wraps.

A word stands for an exact integer, its `toInt`.  An operation computes over the
integers and then asks whether a word can hold the result; where none can, it has
no value.

* **`int64?_eq_some_iff`**, **`int32?_eq_some_iff`**, **`uint32?_eq_some_iff`**: a
  word is returned exactly when it stands for the given integer, so nothing that
  fits is refused and nothing that wraps is returned;
* **`add?_eq_some_iff`**, **`sub?_eq_some_iff`**, **`mul?_eq_some_iff`**: the same
  for sums, differences and products;
* **`add?_bind_int32?`**: a sum that is to be a short word needs no check of its own;
* **`days?_eq_some_iff`**: how many days a length of time can be.
-/

namespace SpokenDate.Checked

/-- The signed 64-bit word that stands for `n`, if there is one. -/
def int64? (n : Int) : Option Int64 :=
  if -0x8000000000000000 ≤ n ∧ n < 0x8000000000000000 then some (Int64.ofInt n) else none

/-- The signed 32-bit word that stands for `n`, if there is one. -/
def int32? (n : Int) : Option Int32 :=
  if -0x80000000 ≤ n ∧ n < 0x80000000 then some (Int32.ofInt n) else none

/-- The unsigned 32-bit word that stands for `n`, if there is one. -/
def uint32? (n : Int) : Option UInt32 :=
  if 0 ≤ n ∧ n < 0x100000000 then some (UInt32.ofNat n.toNat) else none

/-- The exact sum, if a word can hold it. -/
def add? (a b : Int64) : Option Int64 := int64? (a.toInt + b.toInt)

/-- The exact difference, if a word can hold it. -/
def sub? (a b : Int64) : Option Int64 := int64? (a.toInt - b.toInt)

/-- The exact product, if a word can hold it. -/
def mul? (a b : Int64) : Option Int64 := int64? (a.toInt * b.toInt)

/-- The number of days, if a length of time can be so many.  Lengths of time are counted in
milliseconds and reach back as far as ahead. -/
def days? (n : Int64) : Option Int64 :=
  if (86400000 * n.toInt).natAbs < 0x8000000000000000 then some n else none

variable {n : Int}

theorem int64?_eq_some_iff {w : Int64} : int64? n = some w ↔ w.toInt = n := by
  have lo := w.le_toInt
  have hi := w.toInt_lt
  rw [int64?]
  split
  · rename_i h
    rw [Option.some_inj, ← Int64.toInt_inj, Int64.toInt_ofInt_of_le h.1 h.2]
    exact eq_comm
  · simp only [reduceCtorEq, false_iff]
    omega

theorem int64?_eq_none_iff :
    int64? n = none ↔ n < -0x8000000000000000 ∨ 0x8000000000000000 ≤ n := by
  rw [int64?]
  split <;> simp only [reduceCtorEq, false_iff, true_iff] <;> omega

/-- A word holds whatever lies in its range. -/
theorem exists_int64? (h : -0x8000000000000000 ≤ n ∧ n < 0x8000000000000000) :
    ∃ w, int64? n = some w ∧ w.toInt = n :=
  ⟨_, if_pos h, Int64.toInt_ofInt_of_le h.1 h.2⟩

@[simp] theorem int64?_toInt (w : Int64) : int64? w.toInt = some w :=
  int64?_eq_some_iff.2 rfl

theorem int32?_eq_some_iff {w : Int32} : int32? n = some w ↔ w.toInt = n := by
  have lo := w.le_toInt
  have hi := w.toInt_lt
  rw [int32?]
  split
  · rename_i h
    rw [Option.some_inj, ← Int32.toInt_inj, Int32.toInt_ofInt_of_le h.1 h.2]
    exact eq_comm
  · simp only [reduceCtorEq, false_iff]
    omega

theorem int32?_eq_none_iff : int32? n = none ↔ n < -0x80000000 ∨ 0x80000000 ≤ n := by
  rw [int32?]
  split <;> simp only [reduceCtorEq, false_iff, true_iff] <;> omega

@[simp] theorem int32?_toInt (w : Int32) : int32? w.toInt = some w :=
  int32?_eq_some_iff.2 rfl

theorem uint32?_eq_some_iff {w : UInt32} : uint32? n = some w ↔ (w.toNat : Int) = n := by
  have hi := w.toNat_lt
  rw [uint32?]
  split
  · rename_i h
    have fits : n.toNat < UInt32.size := by
      have : UInt32.size = 2 ^ 32 := rfl
      omega
    rw [Option.some_inj, ← UInt32.toNat_inj, UInt32.toNat_ofNat_of_lt' fits]
    omega
  · simp only [reduceCtorEq, false_iff]
    omega

theorem uint32?_eq_none_iff : uint32? n = none ↔ n < 0 ∨ 0x100000000 ≤ n := by
  rw [uint32?]
  split <;> simp only [reduceCtorEq, false_iff, true_iff] <;> omega

@[simp] theorem uint32?_toNat (w : UInt32) : uint32? w.toNat = some w :=
  uint32?_eq_some_iff.2 rfl

variable {a b c : Int64}

theorem add?_eq_some_iff : add? a b = some c ↔ c.toInt = a.toInt + b.toInt :=
  int64?_eq_some_iff

theorem sub?_eq_some_iff : sub? a b = some c ↔ c.toInt = a.toInt - b.toInt :=
  int64?_eq_some_iff

theorem mul?_eq_some_iff : mul? a b = some c ↔ c.toInt = a.toInt * b.toInt :=
  int64?_eq_some_iff

theorem mul?_eq_none_iff :
    mul? a b = none ↔
      a.toInt * b.toInt < -0x8000000000000000 ∨ 0x8000000000000000 ≤ a.toInt * b.toInt :=
  int64?_eq_none_iff

theorem add?_eq_none_iff :
    add? a b = none ↔
      a.toInt + b.toInt < -0x8000000000000000 ∨ 0x8000000000000000 ≤ a.toInt + b.toInt :=
  int64?_eq_none_iff

/-- A sum that no word of 64 bits can hold is too large for one of 32 bits as well. -/
theorem add?_bind_int32? (a b : Int64) :
    ((add? a b).bind fun sum => int32? sum.toInt) = int32? (a.toInt + b.toInt) := by
  cases hsum : add? a b with
  | none =>
    rw [add?_eq_none_iff] at hsum
    exact (int32?_eq_none_iff.2 (by omega)).symm
  | some sum => rw [Option.bind_some, add?_eq_some_iff.1 hsum]

theorem days?_eq_some_iff :
    days? a = some b ↔ b = a ∧ (86400000 * a.toInt).natAbs < 0x8000000000000000 := by
  rw [days?, Option.ite_none_right_eq_some, Option.some_inj, and_comm]
  exact and_congr_left fun _ => eq_comm

theorem days?_eq_none_iff : days? a = none ↔ 0x8000000000000000 ≤ (86400000 * a.toInt).natAbs := by
  rw [days?, ite_eq_right_iff]
  simp only [reduceCtorEq, imp_false, Nat.not_lt]

end SpokenDate.Checked

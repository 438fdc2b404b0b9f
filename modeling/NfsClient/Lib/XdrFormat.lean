import NfsClient.Lib.Reader

/-!
# The external data representation (RFC 4506)

The wire format in its own terms, over natural-number arithmetic: a word is four big-endian
bytes, a hyper is eight, an opaque is its bytes followed by zero to three zero bytes that bring
it to a multiple of four, and a variable-length item is preceded by a word that counts it.

`beBytes` / `beVal` are the big-endian digits and their value. The encodings are total: the
count word of an over-long item is the count modulo `2 ^ 32`, which is what any writer that
narrows the count puts on the wire.
-/

namespace Xdr

open Reader

/-- A string of octets. -/
abbrev Bytes : Type := List UInt8

/-- A string of exactly `n` octets. -/
def Octets (n : ℕ) : Type := { bs : Bytes // bs.length = n }

instance (n : ℕ) : DecidableEq (Octets n) :=
  inferInstanceAs (DecidableEq { bs : Bytes // bs.length = n })

/-- The `n` zero octets. -/
def Octets.zero (n : ℕ) : Octets n := ⟨List.replicate n 0, List.length_replicate⟩

/-! ### Big-endian digits -/

/-- The `k` low base-256 digits of `n`, most significant first. -/
def beBytes : ℕ → ℕ → Bytes
  | 0, _ => []
  | k + 1, n => UInt8.ofNat (n / 256 ^ k) :: beBytes k n

/-- The number that a string of base-256 digits stands for. -/
def beVal : Bytes → ℕ
  | [] => 0
  | b :: bs => b.toNat * 256 ^ bs.length + beVal bs

@[simp] theorem length_beBytes (k n : ℕ) : (beBytes k n).length = k := by
  induction k with
  | zero => rfl
  | succ k ih => simp [beBytes, ih]

theorem beVal_lt (bs : Bytes) : beVal bs < 256 ^ bs.length := by
  induction bs with
  | nil => simp [beVal]
  | cons b bs ih =>
    have hb : b.toNat < 256 := b.toNat_lt
    simp only [beVal, List.length_cons, pow_succ]
    nlinarith

theorem beVal_beBytes (k n : ℕ) : beVal (beBytes k n) = n % 256 ^ k := by
  induction k with
  | zero => simp [beBytes, beVal, Nat.mod_one]
  | succ k ih =>
    have hdigit : (UInt8.ofNat (n / 256 ^ k)).toNat = n / 256 ^ k % 256 := by simp
    rw [beBytes, beVal, length_beBytes, hdigit, ih, pow_succ, Nat.mod_mul, mul_comm]
    omega

/-- The digits of the value of a digit string are the string. -/
theorem beBytes_beVal (bs : Bytes) : beBytes bs.length (beVal bs) = bs := by
  -- what is above the digits is a carry that the induction has to pass on
  have key : ∀ (bs : Bytes) (m : ℕ), beBytes bs.length (m * 256 ^ bs.length + beVal bs) = bs := by
    intro bs
    induction bs with
    | nil => intro m; rfl
    | cons b bs ih =>
      intro m
      -- the leading digit joins the carry
      have hdiv : (m * 256 ^ (bs.length + 1) + (b.toNat * 256 ^ bs.length + beVal bs))
          / 256 ^ bs.length = m * 256 + b.toNat := by
        rw [show m * 256 ^ (bs.length + 1) + (b.toNat * 256 ^ bs.length + beVal bs)
            = beVal bs + (m * 256 + b.toNat) * 256 ^ bs.length by ring,
          Nat.add_mul_div_right _ _ (by positivity), Nat.div_eq_of_lt (beVal_lt bs), zero_add]
      have hrest : m * 256 ^ (bs.length + 1) + (b.toNat * 256 ^ bs.length + beVal bs)
          = (m * 256 + b.toNat) * 256 ^ bs.length + beVal bs := by ring
      rw [List.length_cons, beBytes, beVal, hdiv, hrest, ih]
      congr 1
      apply UInt8.toNat_inj.mp
      simp
  simpa using key bs 0

/-! ### Encodings -/

/-- An unsigned integer: four bytes. -/
def word (v : UInt32) : Bytes := beBytes 4 v.toNat

/-- An unsigned hyper integer: eight bytes. -/
def hyper (v : UInt64) : Bytes := beBytes 8 v.toNat

/-- A boolean: the word `0` or `1`. -/
def bool (b : Bool) : Bytes := word (if b then 1 else 0)

/-- How many bytes bring `len` bytes to a multiple of four. -/
def padLen (len : ℕ) : ℕ := (4 - len % 4) % 4

/-- Fixed-length opaque data: the bytes and their padding. -/
def fixedOpaque (bs : Bytes) : Bytes := bs ++ List.replicate (padLen bs.length) 0

/-- Variable-length opaque data or a string: count, bytes, padding. -/
def varOpaque (bs : Bytes) : Bytes := word (UInt32.ofNat bs.length) ++ fixedOpaque bs

/-- A variable-length array: count, then the elements. -/
def array {α : Type} (elem : α → Bytes) (xs : List α) : Bytes :=
  word (UInt32.ofNat xs.length) ++ xs.flatMap elem

@[simp] theorem length_word (v : UInt32) : (word v).length = 4 := length_beBytes 4 _

@[simp] theorem length_hyper (v : UInt64) : (hyper v).length = 8 := length_beBytes 8 _

@[simp] theorem length_bool (b : Bool) : (bool b).length = 4 := length_word _

theorem length_add_padLen (n : ℕ) : 4 ∣ n + padLen n := by
  unfold padLen
  omega

theorem length_fixedOpaque (bs : Bytes) :
    (fixedOpaque bs).length = bs.length + padLen bs.length := by
  simp [fixedOpaque]

theorem length_varOpaque (bs : Bytes) :
    (varOpaque bs).length = 4 + (bs.length + padLen bs.length) := by
  simp [varOpaque, length_fixedOpaque]

theorem toNat_ofNat_of_lt {n : ℕ} (h : n < 2 ^ 32) : (UInt32.ofNat n).toNat = n := by
  rw [UInt32.toNat_ofNat', Nat.mod_eq_of_lt h]

end Xdr

import NfsClient.Lib.XdrFormat

/-!
# XdrEncoder and XdrDecoder

The two classes of `src/xdr`. An encoder is modelled by the bytes it appends to `buf_`, so that a
sequence of `put_*` calls on one encoder is the concatenation of their bytes. A decoder is
modelled by the bytes from `offset_` on; `require(n)` compares `n` with their number.

Shifts and masks are those of the source. `putUint32_eq` and its companions state that they
compute the digits of the format in `Lib/XdrFormat`; nothing above this module looks at a shift
again.
-/

namespace NfsClient

open Xdr Reader

/-- The C++ exceptions of the program: `std::runtime_error` with its text, `NfsError` with the
status and the procedure it names, `Nfs4Error` with the status and the operation it names. -/
inductive Exn
  | runtimeError (what : String)
  | nfsError (status : UInt32) (proc : String)
  | nfs4Error (status : UInt32) (op : String)
  deriving DecidableEq, Repr

/-- The bytes of an ASCII string literal. -/
def ascii (s : String) : Bytes := s.toList.map fun c => UInt8.ofNat c.toNat

/-! ### Encoder -/

def putUint32 (v : UInt32) : Bytes :=
  [((v >>> 24) &&& 0xFF).toUInt8, ((v >>> 16) &&& 0xFF).toUInt8,
    ((v >>> 8) &&& 0xFF).toUInt8, (v &&& 0xFF).toUInt8]

def putUint64 (v : UInt64) : Bytes :=
  putUint32 (v >>> 32).toUInt32 ++ putUint32 (v &&& 0xFFFFFFFF).toUInt32

/-- `size_t` to `uint32_t`: the count of an over-long item is reduced modulo `2 ^ 32`. -/
def sizeToUint32 (size : ℕ) : UInt32 := UInt32.ofNat size

/-- Data and alignment padding, without a length prefix. -/
def putFixedOpaque (data : Bytes) : Bytes :=
  let pad := (4 - data.length % 4) % 4
  data ++ List.replicate pad 0

/-- A 4-byte length prefix, data and alignment padding. -/
def putOpaque (data : Bytes) : Bytes :=
  let pad := (4 - data.length % 4) % 4
  putUint32 (sizeToUint32 data.length) ++ (data ++ List.replicate pad 0)

/-- The wire encoding of a string is that of an opaque. -/
def putString (s : Bytes) : Bytes := putOpaque s

/-! ### Decoder -/

/-- A decoder over the bytes that are left. -/
abbrev XdrDecoder (α : Type) : Type := Reader UInt8 Exn α

def underflow : Exn := .runtimeError "XdrDecoder: buffer underflow"

def require (n : ℕ) : XdrDecoder Unit := fun bs =>
  if n > bs.length then .error underflow else .ok ((), bs)

/-- Copy the next `n` bytes and move the cursor past them. -/
def advance (n : ℕ) : XdrDecoder Bytes := fun bs => .ok (bs.take n, bs.drop n)

/-- The four bytes at the cursor, assembled big-endian. -/
def assemble32 : Bytes → UInt32
  | [b₀, b₁, b₂, b₃] =>
    (b₀.toUInt32 <<< 24) ||| (b₁.toUInt32 <<< 16) ||| (b₂.toUInt32 <<< 8) ||| b₃.toUInt32
  | _ => 0

def getUint32 : XdrDecoder UInt32 := do
  require 4
  let b ← advance 4
  return assemble32 b

def getUint64 : XdrDecoder UInt64 := do
  let hi ← getUint32
  let lo ← getUint32
  return (hi.toUInt64 <<< 32) ||| lo.toUInt64

def getFixedOpaque (n : ℕ) : XdrDecoder Bytes := do
  require n
  let result ← advance n
  let pad := (4 - n % 4) % 4
  require pad
  let _ ← advance pad
  return result

def getOpaque : XdrDecoder Bytes := do
  let len ← getUint32
  require len.toNat
  let result ← advance len.toNat
  -- the pad bytes have to be there, whatever they are
  let pad := (4 - len.toNat % 4) % 4
  require pad
  let _ ← advance pad
  return result

def getString : XdrDecoder Bytes := getOpaque

/-- `std::copy` into a zero-initialised `std::array` of `n` bytes. -/
def copyInto (n : ℕ) (raw : Bytes) : Octets n :=
  ⟨(raw ++ List.replicate n 0).take n, by simp⟩

/-- `get_fixed_opaque(n)`, copied into a `std::array`. -/
def getArray (n : ℕ) : XdrDecoder (Octets n) := copyInto n <$> getFixedOpaque n

/-- The bytes that are left; the cursor moves to the end. -/
def getRemaining : XdrDecoder Bytes := fun bs => .ok (bs, [])

/-- `size_ - offset_`. -/
def remaining : XdrDecoder ℕ := fun bs => .ok (bs.length, bs)

/-- `if (c) throw e;` -/
def throwIf (c : Prop) [Decidable c] (e : Exn) : XdrDecoder Unit :=
  if c then throw e else return ()

/-! ### The encoder writes the format -/

/-- The low byte of a word. -/
private theorem toUInt8_and_mask (w : UInt32) : (w &&& 0xFF).toUInt8 = UInt8.ofNat w.toNat := by
  apply UInt8.toNat_inj.mp
  have hand : (w &&& 0xFF).toNat = w.toNat % 2 ^ 8 := by
    rw [UInt32.toNat_and]
    exact Nat.and_two_pow_sub_one_eq_mod w.toNat 8
  rw [UInt32.toNat_toUInt8, hand, UInt8.toNat_ofNat', Nat.mod_mod]

/-- A logical shift divides. -/
private theorem toNat_shiftRight_lit {v : UInt32} {n : ℕ} (h : n < 32) :
    (v >>> UInt32.ofNat n).toNat = v.toNat / 2 ^ n := by
  have hn : (UInt32.ofNat n).toNat % 32 = n := by
    rw [UInt32.toNat_ofNat']
    omega
  rw [UInt32.toNat_shiftRight, hn, Nat.shiftRight_eq_div_pow]

theorem putUint32_eq (v : UInt32) : putUint32 v = word v := by
  have h24 : (v >>> 24).toNat = v.toNat / 256 ^ 3 := toNat_shiftRight_lit (n := 24) (by decide)
  have h16 : (v >>> 16).toNat = v.toNat / 256 ^ 2 := toNat_shiftRight_lit (n := 16) (by decide)
  have h8 : (v >>> 8).toNat = v.toNat / 256 ^ 1 := toNat_shiftRight_lit (n := 8) (by decide)
  simp only [putUint32, toUInt8_and_mask, h24, h16, h8, word, beBytes, pow_zero, Nat.div_one]

theorem putUint64_eq (v : UInt64) : putUint64 v = hyper v := by
  have hv := v.toNat_lt
  -- the two halves of the value, as numbers
  have hhi : (v >>> 32).toUInt32.toNat = v.toNat / 2 ^ 32 := by
    have hshift : (v >>> 32).toNat = v.toNat / 2 ^ 32 := by
      rw [UInt64.toNat_shiftRight, Nat.shiftRight_eq_div_pow]
      rfl
    rw [UInt64.toNat_toUInt32, hshift]
    omega
  have hlo : (v &&& 0xFFFFFFFF).toUInt32.toNat = v.toNat % 2 ^ 32 := by
    have hand : (v &&& 0xFFFFFFFF).toNat = v.toNat % 2 ^ 32 := by
      rw [UInt64.toNat_and]
      exact Nat.and_two_pow_sub_one_eq_mod v.toNat 32
    rw [UInt64.toNat_toUInt32, hand, Nat.mod_mod]
  rw [putUint64, putUint32_eq, putUint32_eq, word, word, hhi, hlo]
  simp only [hyper, beBytes, List.cons_append, List.nil_append, List.cons.injEq, and_true]
  -- eight digits to the base 256
  refine ⟨?_, ?_, ?_, ?_, ?_, ?_, ?_, ?_⟩ <;>
    (apply UInt8.toNat_inj.mp; simp only [UInt8.toNat_ofNat']; omega)

theorem putFixedOpaque_eq (data : Bytes) : putFixedOpaque data = fixedOpaque data := rfl

theorem putOpaque_eq (data : Bytes) : putOpaque data = varOpaque data := by
  rw [varOpaque, ← putUint32_eq]
  rfl

theorem putString_eq (s : Bytes) : putString s = varOpaque s := putOpaque_eq s

/-! ### The decoder reads the format

Each `get_*` is characterised by the byte strings it accepts: `get*_ok` says which they are and
what is left, `get*_reads` is the instance a well-formed message needs. The decoder skips pad
bytes without looking at them. -/

/-- Disjoint bytes are combined by `|||` as by addition. -/
private theorem or_eq_add {a b i : ℕ} (h : b < 2 ^ i) : a * 2 ^ i ||| b = a * 2 ^ i + b := by
  rw [mul_comm, ← Nat.two_pow_add_eq_or_of_lt h]

private theorem toNat_byte_shiftLeft (b : UInt8) {n : ℕ} (h : n ≤ 24) :
    (b.toUInt32 <<< UInt32.ofNat n).toNat = b.toNat * 2 ^ n := by
  have hb := b.toNat_lt
  have hn : (UInt32.ofNat n).toNat % 32 = n := by
    rw [UInt32.toNat_ofNat']
    omega
  have hlt : b.toNat * 2 ^ n < 2 ^ 32 :=
    calc b.toNat * 2 ^ n ≤ b.toNat * 2 ^ 24 :=
          Nat.mul_le_mul_left _ (Nat.pow_le_pow_right (by decide) h)
      _ < 2 ^ 32 := by omega
  rw [UInt32.toNat_shiftLeft, hn, UInt8.toNat_toUInt32, Nat.shiftLeft_eq, Nat.mod_eq_of_lt hlt]

theorem assemble32_eq (bs : Bytes) (h : bs.length = 4) : assemble32 bs = UInt32.ofNat (beVal bs) := by
  match bs, h with
  | [b₀, b₁, b₂, b₃], _ =>
    have h₁ := b₁.toNat_lt
    have h₂ := b₂.toNat_lt
    have h₃ := b₃.toNat_lt
    -- the shifted bytes do not overlap, so that the `or` of them is their sum
    have s₀ : (b₀.toUInt32 <<< 24).toNat = b₀.toNat * 2 ^ 24 :=
      toNat_byte_shiftLeft b₀ (n := 24) (by decide)
    have s₁ : (b₁.toUInt32 <<< 16).toNat = b₁.toNat * 2 ^ 16 :=
      toNat_byte_shiftLeft b₁ (n := 16) (by decide)
    have s₂ : (b₂.toUInt32 <<< 8).toNat = b₂.toNat * 2 ^ 8 :=
      toNat_byte_shiftLeft b₂ (n := 8) (by decide)
    have hval : beVal [b₀, b₁, b₂, b₃]
        = ((b₀.toNat * 2 ^ 8 + b₁.toNat) * 2 ^ 8 + b₂.toNat) * 2 ^ 8 + b₃.toNat := by
      simp only [beVal, List.length_cons, List.length_nil]
      ring
    have hlt := beVal_lt [b₀, b₁, b₂, b₃]
    apply UInt32.toNat_inj.mp
    rw [assemble32, UInt32.toNat_or, UInt32.toNat_or, UInt32.toNat_or, s₀, s₁, s₂,
      UInt8.toNat_toUInt32, or_eq_add (i := 24) (by omega),
      show b₀.toNat * 2 ^ 24 + b₁.toNat * 2 ^ 16 = (b₀.toNat * 2 ^ 8 + b₁.toNat) * 2 ^ 16 by ring,
      or_eq_add (i := 16) (by omega),
      show (b₀.toNat * 2 ^ 8 + b₁.toNat) * 2 ^ 16 + b₂.toNat * 2 ^ 8
        = ((b₀.toNat * 2 ^ 8 + b₁.toNat) * 2 ^ 8 + b₂.toNat) * 2 ^ 8 by ring,
      or_eq_add (i := 8) (by omega), ← hval, UInt32.toNat_ofNat', Nat.mod_eq_of_lt]
    simpa using hlt

/-- `require` and the copy that follows it take exactly `n` bytes. -/
theorem require_advance_ok {α : Type} {n : ℕ} {f : Bytes → XdrDecoder α} {bs rest : Bytes}
    {b : α} :
    (do require n; let x ← advance n; f x : XdrDecoder α) bs = .ok (b, rest) ↔
      ∃ x mid, x.length = n ∧ bs = x ++ mid ∧ f x mid = .ok (b, rest) := by
  rw [bind_ok]
  constructor
  · rintro ⟨u, mid, h₁, h₂⟩
    unfold require at h₁
    -- `require` has let the call through, so the bytes are there
    split at h₁
    · cases h₁
    · next hlen =>
      cases h₁
      exact ⟨bs.take n, bs.drop n, by simp; omega, (List.take_append_drop n bs).symm, h₂⟩
  · rintro ⟨x, mid, rfl, rfl, h⟩
    refine ⟨(), x ++ mid, ?_, ?_⟩
    · unfold require
      rw [if_neg (by simp)]
    · rw [bind_ok]
      exact ⟨x, mid, by simp [advance], h⟩

theorem getUint32_ok {bs rest : Bytes} {v : UInt32} :
    getUint32 bs = .ok (v, rest) ↔ bs = word v ++ rest := by
  unfold getUint32
  rw [require_advance_ok]
  constructor
  · rintro ⟨x, mid, hx, rfl, h⟩
    obtain ⟨rfl, rfl⟩ := pure_ok.mp h
    have hlt := beVal_lt x
    rw [hx] at hlt
    rw [assemble32_eq x hx, word, toNat_ofNat_of_lt (by omega), ← hx, beBytes_beVal]
  · rintro rfl
    refine ⟨word v, rest, length_word v, rfl, pure_ok.mpr ⟨?_, rfl⟩⟩
    have hlt := v.toNat_lt
    rw [assemble32_eq _ (length_word v), word, beVal_beBytes, Nat.mod_eq_of_lt (by omega),
      UInt32.ofNat_toNat]

theorem getUint32_reads (v : UInt32) : Reads getUint32 (word v) v :=
  fun _ => getUint32_ok.mpr rfl

theorem word_injective {v w : UInt32} (h : word v = word w) : v = w := by
  have hread := getUint32_reads v []
  rw [h, getUint32_reads w []] at hread
  exact (Prod.ext_iff.mp (Except.ok.inj hread)).1.symm

/-- A counted loop over words. -/
theorem times_getUint32_reads (ws : List UInt32) :
    Reads (times getUint32 ws.length) (ws.flatMap word) ws := by
  have h : Reads (times getUint32 ws.length) (ws.flatMap word) (ws.map id) :=
    Reads.times fun w _ => getUint32_reads w
  rwa [List.map_id] at h

/-- Two words are the eight bytes of a hyper. -/
theorem word_append_word (hi lo : UInt32) :
    word hi ++ word lo = hyper ((hi.toUInt64 <<< 32) ||| lo.toUInt64) := by
  have hhi := hi.toNat_lt
  have hlo := lo.toNat_lt
  have hval : ((hi.toUInt64 <<< 32) ||| lo.toUInt64).toNat = hi.toNat * 2 ^ 32 + lo.toNat := by
    have hshift : (hi.toUInt64 <<< 32).toNat = hi.toNat * 2 ^ 32 := by
      rw [UInt64.toNat_shiftLeft, UInt32.toNat_toUInt64, Nat.shiftLeft_eq]
      exact Nat.mod_eq_of_lt (by change hi.toNat * 2 ^ 32 < 2 ^ 64; omega)
    rw [UInt64.toNat_or, hshift, UInt32.toNat_toUInt64, or_eq_add (i := 32) hlo]
  rw [hyper, hval]
  simp only [word, beBytes, List.cons_append, List.nil_append, List.cons.injEq, and_true]
  refine ⟨?_, ?_, ?_, ?_, ?_, ?_, ?_, ?_⟩ <;>
    (apply UInt8.toNat_inj.mp; simp only [UInt8.toNat_ofNat']; omega)

theorem hyper_injective {v w : UInt64} (h : hyper v = hyper w) : v = w := by
  have hv := v.toNat_lt
  have hw := w.toNat_lt
  have hval := congrArg beVal h
  rw [hyper, hyper, beVal_beBytes, beVal_beBytes, Nat.mod_eq_of_lt (by omega),
    Nat.mod_eq_of_lt (by omega)] at hval
  exact UInt64.toNat_inj.mp hval

/-- Every hyper is two words. -/
theorem exists_words_hyper (v : UInt64) :
    ∃ hi lo : UInt32, hyper v = word hi ++ word lo ∧
      (hi.toUInt64 <<< 32) ||| lo.toUInt64 = v := by
  refine ⟨(v >>> 32).toUInt32, (v &&& 0xFFFFFFFF).toUInt32, ?_, ?_⟩
  · rw [← putUint64_eq, putUint64, putUint32_eq, putUint32_eq]
  · apply hyper_injective
    rw [← word_append_word, ← putUint64_eq, putUint64, putUint32_eq, putUint32_eq]

theorem getUint64_ok {bs rest : Bytes} {v : UInt64} :
    getUint64 bs = .ok (v, rest) ↔ bs = hyper v ++ rest := by
  unfold getUint64
  rw [bind_ok]
  constructor
  · rintro ⟨hi, mid, h₁, h₂⟩
    obtain ⟨lo, mid', h₃, h₄⟩ := bind_ok.mp h₂
    obtain ⟨rfl, rfl⟩ := pure_ok.mp h₄
    rw [getUint32_ok.mp h₁, getUint32_ok.mp h₃, ← word_append_word, List.append_assoc]
  · rintro rfl
    obtain ⟨hi, lo, hw, hv⟩ := exists_words_hyper v
    refine ⟨hi, word lo ++ rest, getUint32_ok.mpr (by rw [hw, List.append_assoc]), ?_⟩
    rw [bind_of_ok (getUint32_reads lo rest)]
    exact pure_ok.mpr ⟨hv, rfl⟩

theorem getUint64_reads (v : UInt64) : Reads getUint64 (hyper v) v :=
  fun _ => getUint64_ok.mpr rfl

theorem getFixedOpaque_ok {n : ℕ} {bs rest x : Bytes} :
    getFixedOpaque n bs = .ok (x, rest) ↔
      ∃ pad : Bytes, x.length = n ∧ pad.length = padLen n ∧ bs = x ++ (pad ++ rest) := by
  unfold getFixedOpaque
  rw [require_advance_ok]
  constructor
  · rintro ⟨y, mid, hy, rfl, h⟩
    obtain ⟨pad, mid', hpad, rfl, h'⟩ := require_advance_ok.mp h
    obtain ⟨rfl, rfl⟩ := pure_ok.mp h'
    exact ⟨pad, hy, hpad, rfl⟩
  · rintro ⟨pad, hx, hpad, rfl⟩
    exact ⟨x, pad ++ rest, hx, rfl,
      require_advance_ok.mpr ⟨pad, rest, hpad, rfl, pure_ok.mpr ⟨rfl, rfl⟩⟩⟩

theorem getFixedOpaque_reads {n : ℕ} {bs : Bytes} (h : bs.length = n) :
    Reads (getFixedOpaque n) (fixedOpaque bs) bs := by
  subst h
  intro rest
  refine getFixedOpaque_ok.mpr ⟨List.replicate (padLen bs.length) 0, rfl, by simp, ?_⟩
  rw [fixedOpaque, List.append_assoc]

theorem copyInto_self {n : ℕ} (a : Octets n) : copyInto n a.1 = a := by
  apply Subtype.ext
  exact List.take_left' a.2

theorem getArray_reads {n : ℕ} (a : Octets n) : Reads (getArray n) (fixedOpaque a.1) a := by
  have h := (getFixedOpaque_reads a.2).map (copyInto n)
  rwa [copyInto_self] at h

/-- `get_opaque` repeats the body of `get_fixed_opaque` after the length. -/
theorem getOpaque_eq : getOpaque = (do let len ← getUint32; getFixedOpaque len.toNat) := rfl

theorem getOpaque_ok {bs rest x : Bytes} :
    getOpaque bs = .ok (x, rest) ↔
      ∃ pad : Bytes, x.length < 2 ^ 32 ∧ pad.length = padLen x.length ∧
        bs = word (UInt32.ofNat x.length) ++ (x ++ (pad ++ rest)) := by
  rw [getOpaque_eq, bind_ok]
  constructor
  · rintro ⟨len, mid, h₁, h₂⟩
    obtain ⟨pad, hx, hpad, rfl⟩ := getFixedOpaque_ok.mp h₂
    refine ⟨pad, hx ▸ len.toNat_lt, hx ▸ hpad, ?_⟩
    rw [getUint32_ok.mp h₁, hx, UInt32.ofNat_toNat]
  · rintro ⟨pad, hx, hpad, rfl⟩
    refine ⟨UInt32.ofNat x.length, x ++ (pad ++ rest), getUint32_ok.mpr rfl, ?_⟩
    rw [toNat_ofNat_of_lt hx]
    exact getFixedOpaque_ok.mpr ⟨pad, rfl, hpad, rfl⟩

theorem getOpaque_reads {bs : Bytes} (h : bs.length < 2 ^ 32) :
    Reads getOpaque (varOpaque bs) bs := by
  intro rest
  refine getOpaque_ok.mpr ⟨List.replicate (padLen bs.length) 0, h, by simp, ?_⟩
  rw [varOpaque, fixedOpaque, List.append_assoc, List.append_assoc]

theorem throwIf_ok {c : Prop} [Decidable c] {e : Exn} {bs rest : Bytes} {u : Unit} :
    throwIf c e bs = .ok (u, rest) ↔ ¬ c ∧ bs = rest := by
  unfold throwIf
  split
  · next hc => exact ⟨fun h => absurd h throw_ok, fun h => absurd hc h.1⟩
  · next hc => exact ⟨fun h => ⟨hc, (pure_ok.mp h).2⟩, fun h => pure_ok.mpr ⟨rfl, h.2⟩⟩

theorem throwIf_reads {c : Prop} [Decidable c] {e : Exn} (hc : ¬ c) : Reads (throwIf c e) [] () :=
  fun _ => throwIf_ok.mpr ⟨hc, rfl⟩

/-- A guard that passes is transparent. -/
theorem throwIf_bind_reads {α : Type} {c : Prop} [Decidable c] {e : Exn} {f : Unit → XdrDecoder α}
    {bs : Bytes} {a : α} (hc : ¬ c) (hf : Reads (f ()) bs a) :
    Reads (throwIf c e >>= f) bs a := by
  simpa using (throwIf_reads (e := e) hc).bind hf

section

variable {α : Type} {c : Prop} [Decidable c] {e : Exn} {g : Unit → XdrDecoder α} {bs : Bytes}

theorem throwIf_error (hc : c) : throwIf c e bs = .error e := by
  unfold throwIf
  rw [if_pos hc]
  rfl

/-- A guard that fails throws, whatever follows. -/
theorem throwIf_bind_error (hc : c) : (throwIf c e >>= g) bs = .error e := by
  unfold throwIf
  rw [if_pos hc]
  rfl

/-- A guard that passes is transparent. -/
theorem throwIf_bind_pass (hc : ¬ c) : (throwIf c e >>= g) bs = g () bs := by
  unfold throwIf
  rw [if_neg hc]
  rfl

end

/-! ### Locality -/

theorem getUint32_local : Local getUint32 :=
  fun _ v _ h => ⟨word v, getUint32_ok.mp h, getUint32_reads v⟩

theorem getUint64_local : Local getUint64 :=
  fun _ v _ h => ⟨hyper v, getUint64_ok.mp h, getUint64_reads v⟩

theorem getFixedOpaque_local (n : ℕ) : Local (getFixedOpaque n) := by
  intro bs x rest h
  obtain ⟨pad, hx, hpad, rfl⟩ := getFixedOpaque_ok.mp h
  exact ⟨x ++ pad, (List.append_assoc x pad rest).symm, fun rest' =>
    getFixedOpaque_ok.mpr ⟨pad, hx, hpad, List.append_assoc x pad rest'⟩⟩

theorem getOpaque_local : Local getOpaque :=
  getUint32_local.bind fun len => getFixedOpaque_local len.toNat

theorem getString_local : Local getString := getOpaque_local

theorem getArray_local (n : ℕ) : Local (getArray n) := (getFixedOpaque_local n).map _

theorem throwIf_local {c : Prop} [Decidable c] {e : Exn} : Local (throwIf c e) :=
  (Local.throw e).ite (.pure ())

/-! ### Short input -/

/-- The calls that read words and strings fail on short input alone. -/
theorem require_throws (n : ℕ) : Throws (require n) (· = underflow) := by
  intro bs e h
  unfold require at h
  split at h
  · cases h
    rfl
  · cases h

theorem advance_throws (n : ℕ) : Throws (advance n) (· = underflow) := fun _ _ h => nomatch h

theorem getUint32_throws : Throws getUint32 (· = underflow) :=
  (require_throws 4).bind fun _ => (advance_throws 4).bind fun _ => .pure _

theorem getString_throws : Throws getString (· = underflow) :=
  getUint32_throws.bind fun _ => (require_throws _).bind fun _ => (advance_throws _).bind fun _ =>
    (require_throws _).bind fun _ => (advance_throws _).bind fun _ => .pure _

end NfsClient

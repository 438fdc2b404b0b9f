import NfsClient.Xdr.Codec

/-!
# The cursor of an XdrDecoder

`Xdr/Codec` models a decoder by the bytes that are left. The class itself has a buffer, its size and
an offset into it, all arithmetic on which is that of `size_t`, and a call that throws leaves the
offset where it happened to be: behind the length of an opaque whose data is missing, behind the data
whose padding is missing, behind the first half of a hyper.

`Cursor` is that object. Beside the members of the class it keeps what the claim of memory safety is
about: every index at which the buffer was read, and every value that `offset_` has had. The
invariant is `Cursor.Safe`. No call can break it, whether it throws or not, since a read or a move by
`n` always stands behind a `require(n)` that passed, and for `n` below `2 ^ 63` the sum in `require`
does not wrap around (`require_refines`).

`Refines` joins the two models: from a safe cursor a call comes to what the reader of `Xdr/Codec`
comes to on the bytes from `offset_` on.
-/

namespace NfsClient

open Xdr Reader

/-- The members of `XdrDecoder`, with the indices read and the values `offset_` has had. -/
structure Cursor where
  data_ : Bytes
  size_ : UInt64
  offset_ : UInt64
  reads : List ℕ
  trail : List UInt64
  deriving DecidableEq, Repr

/-- A method of the decoder: it returns or throws, and the cursor stays moved when it throws. -/
def CursorM (α : Type) : Type := Cursor → Except Exn α × Cursor

namespace CursorM

variable {α β : Type}

/-- `return a;` -/
protected def pure (a : α) : CursorM α := fun c => (.ok a, c)

/-- Statements in sequence: an exception leaves the method. -/
protected def bind (m : CursorM α) (f : α → CursorM β) : CursorM β := fun c =>
  match m c with
  | (.ok a, c') => f a c'
  | (.error e, c') => (.error e, c')

instance : Monad CursorM where
  pure := CursorM.pure
  bind := CursorM.bind

variable {m : CursorM α} {f : α → CursorM β} {c c' : Cursor}

theorem bind_of_ok {a : α} (h : m c = (.ok a, c')) : (m >>= f) c = f a c' := by
  simp only [Bind.bind, CursorM.bind, h]

theorem bind_of_error {e : Exn} (h : m c = (.error e, c')) : (m >>= f) c = (.error e, c') := by
  simp only [Bind.bind, CursorM.bind, h]

end CursorM

namespace Cursor

/-- `XdrDecoder dec(data, size);` -/
def ofBuffer (data : Bytes) : Cursor := ⟨data, UInt64.ofNat data.length, 0, [], [0]⟩

/-! ### The calls -/

def require (n : UInt64) : CursorM Unit := fun c =>
  if c.offset_ + n > c.size_ then (.error underflow, c) else (.ok (), c)

/-- `data_[offset_ + i]` -/
def byteAt (i : UInt64) : CursorM UInt8 := fun c =>
  let index := (c.offset_ + i).toNat
  (.ok (c.data_.getD index 0), { c with reads := c.reads ++ [index] })

/-- `std::vector<uint8_t> result(data_ + offset_, data_ + offset_ + n);` -/
def copy (n : UInt64) : CursorM Bytes := fun c =>
  let first := c.offset_.toNat
  (.ok ((c.data_.drop first).take n.toNat),
    { c with reads := c.reads ++ List.range' first n.toNat })

/-- `offset_ = offset;` -/
def moveTo (offset : UInt64) (c : Cursor) : Cursor :=
  { c with offset_ := offset, trail := c.trail ++ [offset] }

/-- `offset_ += n;` -/
def move (n : UInt64) : CursorM Unit := fun c => (.ok (), c.moveTo (c.offset_ + n))

def getUint32 : CursorM UInt32 := do
  require 4
  let b₀ ← byteAt 0
  let b₁ ← byteAt 1
  let b₂ ← byteAt 2
  let b₃ ← byteAt 3
  move 4
  return (b₀.toUInt32 <<< 24) ||| (b₁.toUInt32 <<< 16) ||| (b₂.toUInt32 <<< 8) ||| b₃.toUInt32

def getUint64 : CursorM UInt64 := do
  let hi ← getUint32
  let lo ← getUint32
  return (hi.toUInt64 <<< 32) ||| lo.toUInt64

/-- The pad is computed in `uint32_t`, like the length. -/
def getOpaque : CursorM Bytes := do
  let len ← getUint32
  require len.toUInt64
  let result ← copy len.toUInt64
  move len.toUInt64
  let pad := ((4 - len % 4) % 4).toUInt64
  require pad
  move pad
  return result

def getString : CursorM Bytes := getOpaque

def getFixedOpaque (n : UInt64) : CursorM Bytes := do
  require n
  let result ← copy n
  move n
  let pad := (4 - n % 4) % 4
  require pad
  move pad
  return result

/-- The copy ends at `data_ + size_`. -/
def getRemaining : CursorM Bytes := fun c =>
  let (result, c') := copy (c.size_ - c.offset_) c
  (result, c'.moveTo c'.size_)

def remaining : CursorM UInt64 := fun c => (.ok (c.size_ - c.offset_), c)

end Cursor

/-- A call on a decoder. -/
inductive DecoderCall
  | getUint32
  | getUint64
  | getOpaque
  | getString
  | getFixedOpaque (n : UInt64)
  | getRemaining
  | remaining
  deriving DecidableEq, Repr

/-- What a call returns. -/
inductive DecoderValue
  | uint32 (v : UInt32)
  | uint64 (v : UInt64)
  | bytes (bs : Bytes)
  | size (n : UInt64)
  deriving DecidableEq, Repr

namespace DecoderCall

/-- The call on the cursor. -/
def perform : DecoderCall → CursorM DecoderValue
  | .getUint32 => .uint32 <$> Cursor.getUint32
  | .getUint64 => .uint64 <$> Cursor.getUint64
  | .getOpaque => .bytes <$> Cursor.getOpaque
  | .getString => .bytes <$> Cursor.getString
  | .getFixedOpaque n => .bytes <$> Cursor.getFixedOpaque n
  | .getRemaining => .bytes <$> Cursor.getRemaining
  | .remaining => .size <$> Cursor.remaining

/-- The cursor after a sequence of calls, each of which is made whatever the ones before it came
to. -/
def performAll : List DecoderCall → Cursor → Cursor
  | [], c => c
  | d :: ds, c => performAll ds (d.perform c).2

end DecoderCall

/-! ### The invariant -/

namespace Cursor

/-- The bytes from `offset_` on. -/
def left (c : Cursor) : Bytes := c.data_.drop c.offset_.toNat

/-- The offset is, and has always been, inside the buffer, and nothing was read outside of it. -/
structure Safe (c : Cursor) : Prop where
  size : c.size_.toNat = c.data_.length
  /-- An object has less than `2 ^ 63` bytes. -/
  small : c.data_.length < 2 ^ 63
  inside : c.offset_ ≤ c.size_
  reads : ∀ i ∈ c.reads, i < c.data_.length
  trail : ∀ o ∈ c.trail, o ≤ c.size_

theorem safe_ofBuffer {data : Bytes} (h : data.length < 2 ^ 63) : (ofBuffer data).Safe where
  size := by
    change (UInt64.ofNat data.length).toNat = data.length
    rw [UInt64.toNat_ofNat']
    omega
  small := h
  inside := UInt64.le_iff_toNat_le.mpr (Nat.zero_le _)
  reads := fun _ hi => nomatch hi
  trail := by
    intro o ho
    rw [List.mem_singleton.mp ho]
    exact UInt64.le_iff_toNat_le.mpr (Nat.zero_le _)

variable {c : Cursor}

theorem Safe.offset_le (h : c.Safe) : c.offset_.toNat ≤ c.data_.length := by
  rw [← h.size]
  exact UInt64.le_iff_toNat_le.mp h.inside

theorem Safe.length_left (h : c.Safe) : c.left.length + c.offset_.toNat = c.data_.length := by
  have hoffset := h.offset_le
  rw [left, List.length_drop]
  omega

/-- The sum of the offset and an amount that is left does not wrap around. -/
theorem Safe.toNat_add (h : c.Safe) {n : UInt64} (hn : n.toNat ≤ c.left.length) :
    (c.offset_ + n).toNat = c.offset_.toNat + n.toNat := by
  have hleft := h.length_left
  have hsmall := h.small
  rw [UInt64.toNat_add, Nat.mod_eq_of_lt (by omega)]

/-- **The step of every call.** After a copy of bytes that are left and a move over them the cursor
is safe again. -/
theorem Safe.take (h : c.Safe) {n : UInt64} (hn : n.toNat ≤ c.left.length) {indices : List ℕ}
    (hindices : ∀ i ∈ indices, i < c.offset_.toNat + n.toNat) :
    (moveTo (c.offset_ + n) { c with reads := c.reads ++ indices }).Safe := by
  have hleft := h.length_left
  have hsum := h.toNat_add hn
  -- the move ends inside the buffer, since the bytes are left
  have hinside : c.offset_ + n ≤ c.size_ := by
    rw [UInt64.le_iff_toNat_le, hsum, h.size]
    omega
  refine ⟨h.size, h.small, hinside, fun i hi => ?_, fun o ho => ?_⟩
  · rcases List.mem_append.mp hi with hi | hi
    · exact h.reads i hi
    · have hbound := hindices i hi
      change i < c.data_.length
      omega
  · rcases List.mem_append.mp ho with ho | ho
    · exact h.trail o ho
    · rw [List.mem_singleton.mp ho]
      exact hinside

theorem Safe.left_take (h : c.Safe) {n : UInt64} (hn : n.toNat ≤ c.left.length)
    (indices : List ℕ) :
    (moveTo (c.offset_ + n) { c with reads := c.reads ++ indices }).left
      = c.left.drop n.toNat := by
  change c.data_.drop (c.offset_ + n).toNat = (c.data_.drop c.offset_.toNat).drop n.toNat
  rw [h.toNat_add hn, List.drop_drop]

/-! ### Refinement -/

/-- From the cursor `c`, the call `m` comes to what the reader `r` comes to on the bytes that are
left, and the cursor stays safe in either case. -/
structure Refines {α : Type} (c : Cursor) (m : CursorM α) (r : XdrDecoder α) : Prop where
  safe : (m c).2.Safe
  buffer : (m c).2.data_ = c.data_
  result : (m c).1 = (r c.left).map Prod.fst
  left : ∀ a rest, r c.left = .ok (a, rest) → (m c).2.left = rest

variable {α β : Type}

/-- A call that returns, where the reader does. -/
theorem Refines.of_ok {m : CursorM α} {r : XdrDecoder α} {a : α} {c' : Cursor} {rest : Bytes}
    (hm : m c = (.ok a, c')) (hr : r c.left = .ok (a, rest)) (hsafe : c'.Safe)
    (hbuffer : c'.data_ = c.data_) (hleft : c'.left = rest) : Refines c m r where
  safe := by
    rw [hm]
    exact hsafe
  buffer := by
    rw [hm]
    exact hbuffer
  result := by
    rw [hm, hr]
    rfl
  left := by
    intro b rest' hb
    rw [hr] at hb
    cases hb
    rw [hm]
    exact hleft

/-- A call that throws, where the reader does. -/
theorem Refines.of_error {m : CursorM α} {r : XdrDecoder α} {e : Exn} {c' : Cursor}
    (hm : m c = (.error e, c')) (hr : r c.left = .error e) (hsafe : c'.Safe)
    (hbuffer : c'.data_ = c.data_) : Refines c m r where
  safe := by
    rw [hm]
    exact hsafe
  buffer := by
    rw [hm]
    exact hbuffer
  result := by
    rw [hm, hr]
    rfl
  left := by
    intro b rest hb
    rw [hr] at hb
    cases hb

/-- A call that comes to what another one does from a later place in the buffer. -/
theorem Refines.congr {m m' : CursorM α} {r r' : XdrDecoder α} {c' : Cursor} (h : Refines c' m' r')
    (hm : m c = m' c') (hr : r c.left = r' c'.left) (hbuffer : c'.data_ = c.data_) :
    Refines c m r where
  safe := by
    rw [hm]
    exact h.safe
  buffer := by
    rw [hm, h.buffer, hbuffer]
  result := by
    rw [hm, hr, h.result]
  left := by
    rw [hm, hr]
    exact h.left

theorem refines_pure (h : c.Safe) (a : α) : Refines c (pure a) (pure a) :=
  .of_ok rfl rfl h rfl rfl

theorem Refines.bind {m : CursorM α} {r : XdrDecoder α} {f : α → CursorM β}
    {g : α → XdrDecoder β} (h : Refines c m r)
    (hf : ∀ a c', c'.Safe → r c.left = .ok (a, c'.left) → Refines c' (f a) (g a)) :
    Refines c (m >>= f) (r >>= g) := by
  obtain ⟨hsafe, hbuffer, hresult, hleft⟩ := h
  cases hr : r c.left with
  | error e =>
    rw [hr] at hresult
    have hm : m c = (.error e, (m c).2) := Prod.ext hresult rfl
    exact .of_error (CursorM.bind_of_error hm) (bind_error.mpr (Or.inl hr)) hsafe hbuffer
  | ok x =>
    obtain ⟨a, rest⟩ := x
    rw [hr] at hresult
    have hm : m c = (.ok a, (m c).2) := Prod.ext hresult rfl
    -- the reader goes on with the bytes that the cursor has left
    obtain rfl := hleft a rest hr
    exact (hf a (m c).2 hsafe hr).congr (CursorM.bind_of_ok hm) (bind_of_ok hr) hbuffer

/-- `require(n)` compares `n` with the bytes that are left, as long as the sum does not wrap
around. -/
theorem require_refines (h : c.Safe) {n : UInt64} (hn : n.toNat < 2 ^ 63) :
    Refines c (require n) (NfsClient.require n.toNat) := by
  have hleft := h.length_left
  have hsmall := h.small
  -- both summands are below `2 ^ 63`
  have hsum : (c.offset_ + n).toNat = c.offset_.toNat + n.toNat := by
    rw [UInt64.toNat_add, Nat.mod_eq_of_lt (by omega)]
  have hcond : c.offset_ + n > c.size_ ↔ n.toNat > c.left.length := by
    rw [gt_iff_lt, UInt64.lt_iff_toNat_lt, hsum, h.size]
    omega
  by_cases hc : c.offset_ + n > c.size_
  · exact .of_error (if_pos hc) (if_pos (hcond.mp hc)) h rfl
  · have hc' : ¬ n.toNat > c.left.length := fun hn' => hc (hcond.mpr hn')
    exact .of_ok (if_neg hc) (if_neg hc') h rfl rfl

theorem le_left_of_require {n : ℕ} {bs rest : Bytes} {u : Unit}
    (h : NfsClient.require n bs = .ok (u, rest)) : n ≤ rest.length := by
  unfold NfsClient.require at h
  split at h
  · cases h
  · next hn =>
    cases h
    exact Nat.le_of_not_lt hn

/-- A copy of bytes that are left and a move over them. -/
theorem take_refines (h : c.Safe) {n : UInt64} (hn : n.toNat ≤ c.left.length) :
    Refines c (do let x ← copy n; move n; return x) (advance n.toNat) :=
  .of_ok rfl rfl (h.take hn fun _ hi => (List.mem_range'_1.mp hi).2) rfl (h.left_take hn _)

/-- A move over bytes that are left, without a look at them. -/
theorem skip_refines (h : c.Safe) {n : UInt64} (hn : n.toNat ≤ c.left.length) (a : α) :
    Refines c (do move n; return a) (do let _ ← advance n.toNat; return a) := by
  have hmove : (move n c).2 = moveTo (c.offset_ + n) { c with reads := c.reads ++ [] } := by
    rw [List.append_nil]
    rfl
  have hskip : (do move n; return a : CursorM α) c = (.ok a, (move n c).2) := rfl
  refine .of_ok hskip rfl ?_ rfl ?_
  · rw [hmove]
    exact h.take hn fun i hi => nomatch hi
  · rw [hmove]
    exact h.left_take hn _

/-- A byte that is left, by its place in the buffer. -/
theorem Safe.getD_left (h : c.Safe) {i : UInt64} (hi : i.toNat ≤ c.left.length) :
    c.data_.getD (c.offset_ + i).toNat 0 = c.left.getD i.toNat 0 := by
  rw [h.toNat_add hi, left, List.getD_eq_getElem?_getD, List.getD_eq_getElem?_getD,
    List.getElem?_drop]

theorem assemble_refines (h : c.Safe) (h₄ : 4 ≤ c.left.length) :
    Refines c
      (do
        let b₀ ← byteAt 0
        let b₁ ← byteAt 1
        let b₂ ← byteAt 2
        let b₃ ← byteAt 3
        move 4
        return (b₀.toUInt32 <<< 24) ||| (b₁.toUInt32 <<< 16) ||| (b₂.toUInt32 <<< 8) |||
          b₃.toUInt32)
      (do
        let b ← advance 4
        return assemble32 b) := by
  have hindex : ∀ k : UInt64, k.toNat < 4 → (c.offset_ + k).toNat = c.offset_.toNat + k.toNat :=
    fun k hk => h.toNat_add (by omega)
  have hbyte : ∀ k : UInt64, k.toNat < 4 → c.data_.getD (c.offset_ + k).toNat 0
      = c.left.getD k.toNat 0 := fun k hk => h.getD_left (by omega)
  -- what the cursor makes of it: the four bytes at the offset, and their indices in `reads`
  have hcursor : (do
        let b₀ ← byteAt 0
        let b₁ ← byteAt 1
        let b₂ ← byteAt 2
        let b₃ ← byteAt 3
        move 4
        return (b₀.toUInt32 <<< 24) ||| (b₁.toUInt32 <<< 16) ||| (b₂.toUInt32 <<< 8) |||
          b₃.toUInt32 : CursorM UInt32) c
      = (.ok (assemble32 [c.left.getD 0 0, c.left.getD 1 0, c.left.getD 2 0, c.left.getD 3 0]),
          moveTo (c.offset_ + 4) { c with reads := c.reads ++ [(c.offset_ + 0).toNat,
            (c.offset_ + 1).toNat, (c.offset_ + 2).toNat, (c.offset_ + 3).toNat] }) := by
    have h₀ := hbyte 0 (by decide)
    have h₁ := hbyte 1 (by decide)
    have h₂ := hbyte 2 (by decide)
    have h₃ := hbyte 3 (by decide)
    refine Prod.ext ?_ ?_
    · change Except.ok (assemble32 [c.data_.getD (c.offset_ + 0).toNat 0,
        c.data_.getD (c.offset_ + 1).toNat 0, c.data_.getD (c.offset_ + 2).toNat 0,
        c.data_.getD (c.offset_ + 3).toNat 0]) = _
      rw [h₀, h₁, h₂, h₃]
      rfl
    · change moveTo (c.offset_ + 4) { c with reads := (((c.reads ++ [_]) ++ [_]) ++ [_]) ++ [_] } = _
      simp only [List.append_assoc, List.cons_append, List.nil_append]
  -- and what the reader makes of it
  have htake : c.left.take 4
      = [c.left.getD 0 0, c.left.getD 1 0, c.left.getD 2 0, c.left.getD 3 0] := by
    match c.left, h₄ with
    | _ :: _ :: _ :: _ :: _, _ => rfl
  refine .of_ok hcursor ?_ ?_ rfl (h.left_take (n := 4) h₄ _)
  · rw [← htake]
    rfl
  · refine h.take (n := 4) h₄ fun i hi => ?_
    simp only [List.mem_cons, List.not_mem_nil, or_false] at hi
    change i < c.offset_.toNat + 4
    rcases hi with rfl | rfl | rfl | rfl
    · exact (hindex 0 (by decide)).trans_lt (Nat.add_lt_add_left (by decide) _)
    · exact (hindex 1 (by decide)).trans_lt (Nat.add_lt_add_left (by decide) _)
    · exact (hindex 2 (by decide)).trans_lt (Nat.add_lt_add_left (by decide) _)
    · exact (hindex 3 (by decide)).trans_lt (Nat.add_lt_add_left (by decide) _)

theorem getUint32_refines (h : c.Safe) : Refines c getUint32 NfsClient.getUint32 :=
  (require_refines h (n := 4) (by decide)).bind fun _ _ h' hr =>
    assemble_refines h' (le_left_of_require hr)

theorem getUint64_refines (h : c.Safe) : Refines c getUint64 NfsClient.getUint64 :=
  (getUint32_refines h).bind fun _ _ h₁ _ => (getUint32_refines h₁).bind fun _ _ h₂ _ =>
    refines_pure h₂ _

/-- The pad of a `size_t` length. -/
theorem toNat_pad (n : UInt64) : ((4 - n % 4) % 4).toNat = padLen n.toNat := by
  have hmod : (n % 4).toNat = n.toNat % 4 := UInt64.toNat_mod n 4
  have hle : n % 4 ≤ 4 := by
    rw [UInt64.le_iff_toNat_le, hmod]
    exact (Nat.mod_lt _ (by decide)).le
  rw [UInt64.toNat_mod, UInt64.toNat_sub_of_le _ _ hle, hmod]
  rfl

/-- The pad of a `uint32_t` length. -/
theorem toNat_pad32 (n : UInt32) : ((4 - n % 4) % 4).toUInt64.toNat = padLen n.toNat := by
  have hmod : (n % 4).toNat = n.toNat % 4 := UInt32.toNat_mod n 4
  have hle : n % 4 ≤ 4 := by
    rw [UInt32.le_iff_toNat_le, hmod]
    exact (Nat.mod_lt _ (by decide)).le
  rw [UInt32.toNat_toUInt64, UInt32.toNat_mod, UInt32.toNat_sub_of_le _ _ hle, hmod]
  rfl

theorem padLen_lt (n : ℕ) : padLen n < 4 := Nat.mod_lt _ (by decide)

/-- Data and padding: what `get_opaque` and `get_fixed_opaque` have in common. -/
theorem data_refines (h : c.Safe) {n pad : UInt64} (hn : n.toNat < 2 ^ 63)
    (hpad : pad.toNat = padLen n.toNat) :
    Refines c
      (do
        require n
        let result ← copy n
        move n
        require pad
        move pad
        return result)
      (NfsClient.getFixedOpaque n.toNat) := by
  have hlt := padLen_lt n.toNat
  -- the data, then the padding; each `require` says that what follows it is left
  refine (require_refines h hn).bind fun _ c₁ h₁ hr₁ => ?_
  have htake := take_refines h₁ (le_left_of_require hr₁)
  refine htake.bind (f := fun result => do require pad; move pad; return result)
    fun result c₂ h₂ _ => ?_
  change Refines c₂ _ (do
    NfsClient.require (padLen n.toNat)
    let _ ← advance (padLen n.toNat)
    return result)
  rw [← hpad]
  exact (require_refines h₂ (by omega)).bind fun _ c₃ h₃ hr₃ =>
    skip_refines h₃ (le_left_of_require hr₃) result

theorem getFixedOpaque_refines (h : c.Safe) {n : UInt64} (hn : n.toNat < 2 ^ 63) :
    Refines c (getFixedOpaque n) (NfsClient.getFixedOpaque n.toNat) :=
  data_refines h hn (toNat_pad n)

theorem getOpaque_refines (h : c.Safe) : Refines c getOpaque NfsClient.getOpaque := by
  rw [NfsClient.getOpaque_eq]
  refine (getUint32_refines h).bind fun len c' h' _ => ?_
  have hlen := len.toNat_lt
  exact data_refines h' (n := len.toUInt64) (by rw [UInt32.toNat_toUInt64]; omega)
    (toNat_pad32 len)

/-- `size_ - offset_` is the number of bytes that are left. -/
theorem Safe.toNat_remaining (h : c.Safe) : (c.size_ - c.offset_).toNat = c.left.length := by
  have hleft := h.length_left
  rw [UInt64.toNat_sub_of_le _ _ h.inside, h.size]
  omega

theorem getRemaining_refines (h : c.Safe) : Refines c getRemaining NfsClient.getRemaining := by
  have hn := h.toNat_remaining
  -- the move ends at the end of the buffer
  have hend : c.size_ = c.offset_ + (c.size_ - c.offset_) := by
    apply UInt64.toNat_inj.mp
    have hleft := h.length_left
    rw [h.toNat_add hn.le, hn, h.size]
    omega
  have hcursor : getRemaining c = (.ok (c.left.take (c.size_ - c.offset_).toNat),
      moveTo (c.offset_ + (c.size_ - c.offset_)) { c with
        reads := c.reads ++ (List.range' c.offset_.toNat (c.size_ - c.offset_).toNat) }) := by
    rw [← hend]
    rfl
  rw [hn, List.take_length] at hcursor
  refine .of_ok hcursor rfl (h.take hn.le fun i hi => ?_) rfl ?_
  · exact hn ▸ (List.mem_range'_1.mp hi).2
  · rw [h.left_take hn.le, hn, List.drop_length]

theorem remaining_refines (h : c.Safe) :
    Refines c remaining (UInt64.ofNat <$> NfsClient.remaining) := by
  have hn : c.size_ - c.offset_ = UInt64.ofNat c.left.length := by
    rw [← h.toNat_remaining, UInt64.ofNat_toNat]
  have hcursor : remaining c = (.ok (UInt64.ofNat c.left.length), c) := hn ▸ rfl
  exact .of_ok hcursor rfl h rfl rfl

theorem Refines.map {m : CursorM α} {r : XdrDecoder α} (h : Refines c m r) (f : α → β) :
    Refines c (f <$> m) (f <$> r) :=
  h.bind fun a _ h' _ => refines_pure h' (f a)

end Cursor

/-! ### Sequences of calls -/

namespace DecoderCall

/-- The lengths that the parsers ask for. -/
def InRange : DecoderCall → Prop
  | .getFixedOpaque n => n.toNat < 2 ^ 32
  | _ => True

/-- The call on the bytes that are left. -/
def read : DecoderCall → XdrDecoder DecoderValue
  | .getUint32 => .uint32 <$> NfsClient.getUint32
  | .getUint64 => .uint64 <$> NfsClient.getUint64
  | .getOpaque => .bytes <$> NfsClient.getOpaque
  | .getString => .bytes <$> NfsClient.getString
  | .getFixedOpaque n => .bytes <$> NfsClient.getFixedOpaque n.toNat
  | .getRemaining => .bytes <$> NfsClient.getRemaining
  | .remaining => .size <$> UInt64.ofNat <$> NfsClient.remaining

/-- The bytes of the item that a call has returned, with its padding. -/
def itemSize : DecoderCall → DecoderValue → ℕ
  | .getUint32, _ => 4
  | .getUint64, _ => 8
  | .getOpaque, .bytes bs => 4 + (bs.length + padLen bs.length)
  | .getString, .bytes bs => 4 + (bs.length + padLen bs.length)
  | .getFixedOpaque n, _ => n.toNat + padLen n.toNat
  | _, _ => 0

theorem perform_refines {c : Cursor} (h : c.Safe) {d : DecoderCall} (hd : d.InRange) :
    c.Refines d.perform d.read := by
  cases d with
  | getUint32 => exact (Cursor.getUint32_refines h).map _
  | getUint64 => exact (Cursor.getUint64_refines h).map _
  | getOpaque => exact (Cursor.getOpaque_refines h).map _
  | getString => exact (Cursor.getOpaque_refines h).map _
  | getFixedOpaque n =>
    exact (Cursor.getFixedOpaque_refines h (Nat.lt_trans hd (by decide))).map _
  | getRemaining => exact (Cursor.getRemaining_refines h).map _
  | remaining => exact (Cursor.remaining_refines h).map _

/-- The reader takes the item and its padding, no more and no less. -/
theorem length_of_read {d : DecoderCall} (hd : d ≠ .getRemaining) {bs rest : Bytes}
    {v : DecoderValue} (h : d.read bs = .ok (v, rest)) :
    bs.length = d.itemSize v + rest.length := by
  cases d with
  | getUint32 =>
    -- one case for each call, by what its reader is known to take
    obtain ⟨w, hw, -⟩ := map_ok.mp h
    rw [getUint32_ok.mp hw, List.length_append, length_word]
    rfl
  | getUint64 =>
    obtain ⟨w, hw, -⟩ := map_ok.mp h
    rw [getUint64_ok.mp hw, List.length_append, length_hyper]
    rfl
  | getOpaque | getString =>
    obtain ⟨x, hx, rfl⟩ := map_ok.mp h
    obtain ⟨pad, -, hpad, rfl⟩ := getOpaque_ok.mp hx
    rw [List.length_append, List.length_append, List.length_append, length_word, hpad]
    change _ = 4 + (x.length + padLen x.length) + rest.length
    rw [Nat.add_assoc, Nat.add_assoc]
  | getFixedOpaque n =>
    obtain ⟨x, hx, rfl⟩ := map_ok.mp h
    obtain ⟨pad, hlen, hpad, rfl⟩ := getFixedOpaque_ok.mp hx
    rw [List.length_append, List.length_append, hlen, hpad, ← Nat.add_assoc]
    rfl
  | getRemaining => exact absurd rfl hd
  | remaining =>
    obtain ⟨n, hn, -⟩ := map_ok.mp h
    obtain ⟨m, hm, -⟩ := map_ok.mp hn
    cases hm
    exact (Nat.zero_add _).symm

/-- A call that returns has moved the cursor over its item. -/
theorem offset_of_perform {c c' : Cursor} (h : c.Safe) {d : DecoderCall} (hd : d.InRange)
    (hne : d ≠ .getRemaining) {v : DecoderValue} (hv : d.perform c = (.ok v, c')) :
    c'.offset_.toNat = c.offset_.toNat + d.itemSize v := by
  obtain ⟨hsafe, hbuffer, hresult, hleft⟩ := perform_refines h hd
  rw [hv] at hsafe hbuffer hresult hleft
  cases hread : d.read c.left with
  | error e =>
    rw [hread] at hresult
    cases hresult
  | ok x =>
    obtain ⟨v', rest⟩ := x
    rw [hread] at hresult
    obtain rfl := Except.ok.inj hresult
    -- offset and rest add up to the buffer, before and after
    have hsize := length_of_read hne hread
    have hbefore := h.length_left
    have hafter := hsafe.length_left
    rw [hbuffer, hleft v rest hread] at hafter
    change rest.length + c'.offset_.toNat = c.data_.length at hafter
    omega

/-- **The run of a sequence of calls**: whichever of them throw, the cursor stays safe. -/
theorem performAll_safe {calls : List DecoderCall} (hcalls : ∀ d ∈ calls, d.InRange) {c : Cursor}
    (h : c.Safe) : (performAll calls c).Safe ∧ (performAll calls c).data_ = c.data_ := by
  induction calls generalizing c with
  | nil => exact ⟨h, rfl⟩
  | cons d ds ih =>
    have hstep := perform_refines h (hcalls d List.mem_cons_self)
    obtain ⟨hsafe, hdata⟩ := ih (fun d' hd' => hcalls d' (List.mem_cons_of_mem d hd')) hstep.safe
    exact ⟨hsafe, hdata.trans hstep.buffer⟩

end DecoderCall

/-- The bytes begin with a length, that many bytes of data and their padding. -/
def HoldsOpaque (bs : Bytes) : Prop :=
  4 ≤ bs.length ∧ 4 + (beVal (bs.take 4) + padLen (beVal (bs.take 4))) ≤ bs.length

theorem getOpaque_succeeds_iff {bs : Bytes} :
    (∃ x rest, getOpaque bs = .ok (x, rest)) ↔ HoldsOpaque bs := by
  constructor
  · rintro ⟨x, rest, h⟩
    obtain ⟨pad, hx, hpad, rfl⟩ := getOpaque_ok.mp h
    -- the count in front is that of the data
    have hlen : beVal (word (UInt32.ofNat x.length)) = x.length := by
      rw [word, beVal_beBytes, toNat_ofNat_of_lt hx, Nat.mod_eq_of_lt (by omega)]
    unfold HoldsOpaque
    rw [List.take_left' (length_word _), hlen]
    simp only [List.length_append, length_word, hpad]
    omega
  · rintro ⟨h₄, hlen⟩
    generalize hlenval : beVal (bs.take 4) = len at hlen
    -- conversely, cut the input at its count, the data and the padding
    have hprefix : bs.take 4 = word (UInt32.ofNat len) := by
      have htake : (bs.take 4).length = 4 := List.length_take_of_le h₄
      have hlt := beVal_lt (bs.take 4)
      rw [htake, hlenval] at hlt
      rw [word, toNat_ofNat_of_lt (by omega), ← hlenval]
      have hdigits := beBytes_beVal (bs.take 4)
      rw [htake] at hdigits
      exact hdigits.symm
    have hlt : len < 2 ^ 32 := by
      have h := beVal_lt (bs.take 4)
      rw [hlenval, List.length_take_of_le h₄] at h
      omega
    have hx : ((bs.drop 4).take len).length = len := by
      rw [List.length_take_of_le]
      rw [List.length_drop]
      omega
    refine ⟨(bs.drop 4).take len, ((bs.drop 4).drop len).drop (padLen len), getOpaque_ok.mpr
      ⟨((bs.drop 4).drop len).take (padLen len), by rwa [hx], ?_, ?_⟩⟩
    · rw [hx, List.length_take_of_le]
      rw [List.length_drop, List.length_drop]
      omega
    · rw [hx, ← hprefix, List.take_append_drop, List.take_append_drop, List.take_append_drop]

/-- **A decoder never leaves its buffer.** After any sequence of calls, those that threw included,
the offset is inside the buffer and has always been, every byte read was in the buffer, and
`remaining()` is the number of bytes behind the offset. The next call throws or moves over exactly
its item, and the next `get_opaque` succeeds exactly when the item is there. -/
theorem decoder_stays_in_buffer (data : Bytes) (hdata : data.length < 2 ^ 63)
    (calls : List DecoderCall) (hcalls : ∀ d ∈ calls, d.InRange) :
    let c := DecoderCall.performAll calls (Cursor.ofBuffer data)
    c.data_ = data ∧ c.size_.toNat = data.length ∧
    (c.offset_ ≤ c.size_ ∧ ∀ o ∈ c.trail, o ≤ c.size_) ∧
    (∀ i ∈ c.reads, i < c.size_.toNat) ∧
    (∃ n, Cursor.remaining c = (.ok n, c) ∧ n.toNat + c.offset_.toNat = c.size_.toNat) ∧
    (∀ (d : DecoderCall) v c', d.InRange → d ≠ .getRemaining → d.perform c = (.ok v, c') →
      c'.offset_.toNat = c.offset_.toNat + d.itemSize v) ∧
    ((∃ v c', Cursor.getOpaque c = (.ok v, c')) ↔
      HoldsOpaque (data.drop c.offset_.toNat)) := by
  intro c
  obtain ⟨hsafe, hbuffer⟩ := DecoderCall.performAll_safe hcalls (Cursor.safe_ofBuffer hdata)
  change c.Safe at hsafe
  change c.data_ = data at hbuffer
  have hsize : c.size_.toNat = data.length := by rw [hsafe.size, hbuffer]
  refine ⟨hbuffer, hsize, ⟨hsafe.inside, hsafe.trail⟩, ?_, ⟨_, rfl, ?_⟩, ?_, ?_⟩
  · rw [hsafe.size]
    exact hsafe.reads
  · rw [hsafe.toNat_remaining, hsafe.size]
    exact hsafe.length_left
  · exact fun d v c' hd hne hv => DecoderCall.offset_of_perform hsafe hd hne hv
  -- `get_opaque` on the cursor returns exactly where the reader does
  · have hresult := (Cursor.getOpaque_refines hsafe).result
    have hleft : data.drop c.offset_.toNat = c.left := by
      rw [← hbuffer]
      rfl
    rw [hleft, ← getOpaque_succeeds_iff]
    constructor
    · rintro ⟨v, c', hv⟩
      rw [hv] at hresult
      cases hread : getOpaque c.left with
      | error e =>
        rw [hread] at hresult
        cases hresult
      | ok x => exact ⟨x.1, x.2, rfl⟩
    · rintro ⟨x, rest, hread⟩
      rw [hread] at hresult
      exact ⟨x, (Cursor.getOpaque c).2, Prod.ext hresult rfl⟩

/-- An opaque whose data is cut short, and three more calls behind the one that threw. -/
theorem decoder_stays_in_buffer_truncated :
    let c := DecoderCall.performAll [.getOpaque, .getUint32, .getFixedOpaque 1, .remaining]
      (Cursor.ofBuffer [0, 0, 0, 5, 1])
    c.data_ = [0, 0, 0, 5, 1] ∧ c.size_.toNat = 5 ∧
    (c.offset_ ≤ c.size_ ∧ ∀ o ∈ c.trail, o ≤ c.size_) ∧
    (∀ i ∈ c.reads, i < c.size_.toNat) ∧
    (∃ n, Cursor.remaining c = (.ok n, c) ∧ n.toNat + c.offset_.toNat = c.size_.toNat) ∧
    (∀ (d : DecoderCall) v c', d.InRange → d ≠ .getRemaining → d.perform c = (.ok v, c') →
      c'.offset_.toNat = c.offset_.toNat + d.itemSize v) ∧
    ((∃ v c', Cursor.getOpaque c = (.ok v, c')) ↔
      HoldsOpaque ([0, 0, 0, 5, 1].drop c.offset_.toNat)) :=
  decoder_stays_in_buffer [0, 0, 0, 5, 1] (by decide)
    [.getOpaque, .getUint32, .getFixedOpaque 1, .remaining]
    (by
      intro d hd
      fin_cases hd
      · trivial
      · trivial
      · change (1 : UInt64).toNat < 2 ^ 32
        decide
      · trivial)

end NfsClient

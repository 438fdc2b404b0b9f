import NfsClient.Lib.XdrFormat

/-!
# Formats: what a strict peer reads

A `Format α` is an XDR type for values in `α`: how a value is written, which values have an
encoding at all, and a reader that accepts exactly the encodings. `read_ok` is the law that ties
the three together: the reader yields `a` and leaves `rest` if and only if `a` has an encoding and
the input is that encoding followed by `rest`. It says at once that the reader inverts the writer,
that nothing else is accepted, and that the encoding is unambiguous (`Format.unique`).

The combinators are the constructors of the XDR language: words, opaques, structures (`pair`),
variable-length arrays and discriminated unions. Each keeps the law, so a grammar assembled from
them needs no proof of its own. The readers are strict: pad bytes are zero, booleans are `0` or
`1`, a discriminant without an arm is rejected.
-/

namespace Xdr

open Reader

/-- Why a strict peer rejects a message. -/
inductive Malformed
  | short
  | padding
  | boolean
  | discriminant (value : UInt32)
  deriving DecidableEq, Repr

/-- The arm with a given discriminant, in a list of all arms. -/
def findArm {κ : Type} (code : κ → UInt32) (all : List κ) (w : UInt32) : Option κ :=
  all.find? fun k => code k = w

theorem findArm_eq {κ : Type} {code : κ → UInt32} {all : List κ}
    (h : ∀ k, findArm code all (code k) = some k) (w : UInt32) (k : κ) :
    findArm code all w = some k ↔ code k = w := by
  constructor
  · intro hfind
    simpa using List.find?_some hfind
  · rintro rfl
    exact h k

/-- An XDR type. -/
structure Format (α : Type) where
  write : α → Bytes
  /-- The values that have an encoding: counts below `2 ^ 32`. -/
  Fits : α → Prop
  read : Reader UInt8 Malformed α
  read_ok : ∀ {bs rest : Bytes} {a : α}, read bs = .ok (a, rest) ↔ Fits a ∧ bs = write a ++ rest

namespace Format

variable {α β κ : Type} {f : Format α}

theorem reads {a : α} (h : f.Fits a) : Reads f.read (f.write a) a :=
  fun _ => f.read_ok.mpr ⟨h, rfl⟩

/-- No input starts with the encodings of two values. -/
theorem unique {a b : α} {r s : Bytes} (ha : f.Fits a) (hb : f.Fits b)
    (h : f.write a ++ r = f.write b ++ s) : a = b ∧ r = s := by
  have hread : f.read (f.write b ++ s) = .ok (a, r) := f.read_ok.mpr ⟨ha, h.symm⟩
  rw [f.reads hb s] at hread
  cases hread
  exact ⟨rfl, rfl⟩

/-! ### Raw bytes -/

/-- Exactly `n` bytes. -/
def readOctets (n : ℕ) : Reader UInt8 Malformed (Octets n) := fun bs =>
  if h : n ≤ bs.length then .ok (⟨bs.take n, List.length_take_of_le h⟩, bs.drop n)
  else .error .short

theorem readOctets_ok {n : ℕ} {bs rest : Bytes} {x : Octets n} :
    readOctets n bs = .ok (x, rest) ↔ bs = x.1 ++ rest := by
  unfold readOctets
  constructor
  · intro h
    split at h
    · cases h
      exact (List.take_append_drop n bs).symm
    · cases h
  · rintro rfl
    -- there are enough octets, and the cut is behind them
    have hlen : n ≤ (x.1 ++ rest).length := by
      rw [List.length_append, x.2]
      omega
    rw [dif_pos hlen]
    refine congrArg Except.ok (Prod.ext (Subtype.ext ?_) ?_)
    · exact List.take_left' x.2
    · exact List.drop_left' x.2

/-- Zero bytes up to the next multiple of four after `n` bytes. -/
def readPadding (n : ℕ) : Reader UInt8 Malformed Unit := do
  let pad ← readOctets (padLen n)
  if pad = Octets.zero (padLen n) then return () else throw .padding

theorem readPadding_ok {n : ℕ} {bs rest : Bytes} {u : Unit} :
    readPadding n bs = .ok (u, rest) ↔ bs = List.replicate (padLen n) 0 ++ rest := by
  unfold readPadding
  rw [bind_ok]
  constructor
  · rintro ⟨pad, mid, hpad, h⟩
    -- padding of anything but zeros is refused
    split at h
    · next hzero =>
      obtain ⟨-, rfl⟩ := pure_ok.mp h
      rw [readOctets_ok.mp hpad, hzero]
      rfl
    · exact absurd h throw_ok
  · intro h
    refine ⟨Octets.zero (padLen n), rest, readOctets_ok.mpr h, ?_⟩
    rw [if_pos rfl]
    exact pure_ok.mpr ⟨rfl, rfl⟩

/-! ### Basic types -/

/-- An unsigned integer. -/
def word : Format UInt32 where
  write := Xdr.word
  Fits _ := True
  read := do
    let x ← readOctets 4
    return UInt32.ofNat (beVal x.1)
  read_ok {bs rest v} := by
    rw [bind_ok, true_and]
    constructor
    · rintro ⟨x, mid, hx, h⟩
      obtain ⟨rfl, rfl⟩ := pure_ok.mp h
      have hlt := beVal_lt x.1
      rw [x.2] at hlt
      have hdigits := beBytes_beVal x.1
      rw [x.2] at hdigits
      rw [readOctets_ok.mp hx, Xdr.word, toNat_ofNat_of_lt (by omega), hdigits]
    · rintro rfl
      have hlt := v.toNat_lt
      refine ⟨⟨Xdr.word v, length_word v⟩, rest, readOctets_ok.mpr rfl, pure_ok.mpr ⟨?_, rfl⟩⟩
      change UInt32.ofNat (beVal (beBytes 4 v.toNat)) = v
      rw [beVal_beBytes, Nat.mod_eq_of_lt (by omega), UInt32.ofNat_toNat]

/-- An unsigned hyper integer. -/
def hyper : Format UInt64 where
  write := Xdr.hyper
  Fits _ := True
  read := do
    let x ← readOctets 8
    return UInt64.ofNat (beVal x.1)
  read_ok {bs rest v} := by
    rw [bind_ok, true_and]
    constructor
    · rintro ⟨x, mid, hx, h⟩
      obtain ⟨rfl, rfl⟩ := pure_ok.mp h
      have hlt := beVal_lt x.1
      rw [x.2] at hlt
      have hdigits := beBytes_beVal x.1
      rw [x.2] at hdigits
      have hval : (UInt64.ofNat (beVal x.1)).toNat = beVal x.1 := by
        rw [UInt64.toNat_ofNat', Nat.mod_eq_of_lt (by omega)]
      rw [readOctets_ok.mp hx, Xdr.hyper, hval, hdigits]
    · rintro rfl
      have hlt := v.toNat_lt
      refine ⟨⟨Xdr.hyper v, length_hyper v⟩, rest, readOctets_ok.mpr rfl, pure_ok.mpr ⟨?_, rfl⟩⟩
      change UInt64.ofNat (beVal (beBytes 8 v.toNat)) = v
      rw [beVal_beBytes, Nat.mod_eq_of_lt (by omega), UInt64.ofNat_toNat]

/-- A boolean. -/
def bool : Format Bool where
  write := Xdr.bool
  Fits _ := True
  read := do
    let w ← word.read
    if w = 0 then return false
    else if w = 1 then return true
    else throw .boolean
  read_ok {bs rest b} := by
    rw [bind_ok, true_and]
    constructor
    · rintro ⟨w, mid, hw, h⟩
      obtain ⟨-, rfl⟩ := word.read_ok.mp hw
      split at h
      · next h0 =>
        obtain ⟨rfl, rfl⟩ := pure_ok.mp h
        rw [h0]
        rfl
      · split at h
        · next h1 =>
          obtain ⟨rfl, rfl⟩ := pure_ok.mp h
          rw [h1]
          rfl
        · exact absurd h throw_ok
    · rintro rfl
      refine ⟨if b then 1 else 0, rest, word.read_ok.mpr ⟨trivial, rfl⟩, ?_⟩
      cases b <;> exact pure_ok.mpr ⟨rfl, rfl⟩

/-- Fixed-length opaque data. -/
def octets (n : ℕ) : Format (Octets n) where
  write x := fixedOpaque x.1
  Fits _ := True
  read := do
    let x ← readOctets n
    readPadding n
    return x
  read_ok {bs rest x} := by
    rw [bind_ok, true_and]
    constructor
    · rintro ⟨y, mid, hy, h⟩
      obtain ⟨u, mid', hpad, h'⟩ := bind_ok.mp h
      obtain ⟨rfl, rfl⟩ := pure_ok.mp h'
      rw [readOctets_ok.mp hy, readPadding_ok.mp hpad, fixedOpaque, y.2, List.append_assoc]
    · rintro rfl
      refine ⟨x, List.replicate (padLen n) 0 ++ rest, readOctets_ok.mpr ?_, ?_⟩
      · rw [fixedOpaque, x.2, List.append_assoc]
      · exact bind_ok.mpr ⟨(), rest, readPadding_ok.mpr rfl, pure_ok.mpr ⟨rfl, rfl⟩⟩

/-- Variable-length opaque data or a string. -/
def bytes : Format Bytes where
  write := varOpaque
  Fits x := x.length < 2 ^ 32
  read := do
    let len ← word.read
    let x ← (octets len.toNat).read
    return x.1
  read_ok {bs rest x} := by
    rw [bind_ok]
    constructor
    · rintro ⟨len, mid, hlen, h⟩
      obtain ⟨y, mid', hy, h'⟩ := bind_ok.mp h
      obtain ⟨rfl, rfl⟩ := pure_ok.mp h'
      obtain ⟨-, rfl⟩ := word.read_ok.mp hlen
      obtain ⟨-, rfl⟩ := (octets len.toNat).read_ok.mp hy
      have hlt := len.toNat_lt
      refine ⟨by rw [y.2]; exact hlt, ?_⟩
      rw [varOpaque, y.2, UInt32.ofNat_toNat, List.append_assoc]
      rfl
    · rintro ⟨hx, rfl⟩
      have hlen : x.length = (UInt32.ofNat x.length).toNat := (toNat_ofNat_of_lt hx).symm
      refine ⟨UInt32.ofNat x.length, fixedOpaque x ++ rest, word.read_ok.mpr ⟨trivial, ?_⟩, ?_⟩
      · rw [varOpaque, List.append_assoc]
        rfl
      · exact bind_ok.mpr ⟨⟨x, hlen⟩, rest, (octets _).read_ok.mpr ⟨trivial, rfl⟩,
          pure_ok.mpr ⟨rfl, rfl⟩⟩

/-! ### Composite types -/

/-- No data. -/
def void : Format Unit where
  write _ := []
  Fits _ := True
  read := return ()
  read_ok {bs rest u} := by
    rw [pure_ok]
    simp

/-- Two components in sequence. -/
def pair (f : Format α) (g : Format β) : Format (α × β) where
  write x := f.write x.1 ++ g.write x.2
  Fits x := f.Fits x.1 ∧ g.Fits x.2
  read := do
    let a ← f.read
    let b ← g.read
    return (a, b)
  read_ok {bs rest x} := by
    rw [bind_ok]
    constructor
    · rintro ⟨a, mid, ha, h⟩
      obtain ⟨b, mid', hb, h'⟩ := bind_ok.mp h
      obtain ⟨rfl, rfl⟩ := pure_ok.mp h'
      obtain ⟨hfa, rfl⟩ := f.read_ok.mp ha
      obtain ⟨hgb, rfl⟩ := g.read_ok.mp hb
      exact ⟨⟨hfa, hgb⟩, (List.append_assoc _ _ _).symm⟩
    · rintro ⟨⟨hfa, hgb⟩, rfl⟩
      refine ⟨x.1, g.write x.2 ++ rest, f.read_ok.mpr ⟨hfa, List.append_assoc _ _ _⟩, ?_⟩
      exact bind_ok.mpr ⟨x.2, rest, g.read_ok.mpr ⟨hgb, rfl⟩, pure_ok.mpr ⟨rfl, rfl⟩⟩

/-- The same bytes for an equivalent type. -/
def map (f : Format α) (e : α ≃ β) : Format β where
  write b := f.write (e.symm b)
  Fits b := f.Fits (e.symm b)
  read := e <$> f.read
  read_ok {bs rest b} := by
    rw [map_ok]
    constructor
    · rintro ⟨a, ha, rfl⟩
      rw [e.symm_apply_apply]
      exact f.read_ok.mp ha
    · intro h
      exact ⟨e.symm b, f.read_ok.mpr h, e.apply_symm_apply b⟩

/-- `n` elements in sequence, read back. -/
theorem times_read_ok {n : ℕ} {bs rest : Bytes} {xs : List α} :
    times f.read n bs = .ok (xs, rest) ↔
      (xs.length = n ∧ ∀ x ∈ xs, f.Fits x) ∧ bs = xs.flatMap f.write ++ rest := by
  induction n generalizing bs xs with
  | zero =>
    rw [times, pure_ok]
    constructor
    · rintro ⟨rfl, rfl⟩
      exact ⟨⟨rfl, by simp⟩, rfl⟩
    · rintro ⟨⟨hlen, -⟩, rfl⟩
      obtain rfl := List.length_eq_zero_iff.mp hlen
      exact ⟨rfl, rfl⟩
  | succ n ih =>
    rw [times, bind_ok]
    constructor
    · rintro ⟨a, mid, ha, h⟩
      obtain ⟨as, mid', has, h'⟩ := bind_ok.mp h
      obtain ⟨rfl, rfl⟩ := pure_ok.mp h'
      obtain ⟨hfa, rfl⟩ := f.read_ok.mp ha
      -- the element was read by `f`, and the rest by induction
      obtain ⟨⟨hlen, hall⟩, rfl⟩ := ih.mp has
      refine ⟨⟨by rw [List.length_cons, hlen], ?_⟩, ?_⟩
      · exact List.forall_mem_cons.mpr ⟨hfa, hall⟩
      · rw [List.flatMap_cons, List.append_assoc]
    · rintro ⟨⟨hlen, hall⟩, rfl⟩
      obtain ⟨a, as, rfl⟩ := List.exists_cons_of_length_eq_add_one hlen
      obtain ⟨hfa, hall⟩ := List.forall_mem_cons.mp hall
      refine ⟨a, as.flatMap f.write ++ rest, f.read_ok.mpr ⟨hfa, ?_⟩, ?_⟩
      · rw [List.flatMap_cons, List.append_assoc]
      · exact bind_ok.mpr ⟨as, rest, ih.mpr ⟨⟨Nat.succ.inj hlen, hall⟩, rfl⟩,
          pure_ok.mpr ⟨rfl, rfl⟩⟩

/-- A variable-length array. -/
def array (f : Format α) : Format (List α) where
  write := Xdr.array f.write
  Fits xs := xs.length < 2 ^ 32 ∧ ∀ x ∈ xs, f.Fits x
  read := do
    let count ← word.read
    times f.read count.toNat
  read_ok {bs rest xs} := by
    rw [bind_ok]
    constructor
    · rintro ⟨count, mid, hcount, h⟩
      obtain ⟨-, rfl⟩ := word.read_ok.mp hcount
      obtain ⟨⟨hlen, hall⟩, rfl⟩ := times_read_ok.mp h
      refine ⟨⟨hlen ▸ count.toNat_lt, hall⟩, ?_⟩
      rw [Xdr.array, hlen, UInt32.ofNat_toNat, List.append_assoc]
      rfl
    · rintro ⟨⟨hlen, hall⟩, rfl⟩
      refine ⟨UInt32.ofNat xs.length, xs.flatMap f.write ++ rest,
        word.read_ok.mpr ⟨trivial, ?_⟩, ?_⟩
      · rw [Xdr.array, List.append_assoc]
        rfl
      · exact times_read_ok.mpr ⟨⟨(toNat_ofNat_of_lt hlen).symm, hall⟩, rfl⟩

/-- A discriminated union: `code` is the discriminant of an arm, `find` the arm of a
discriminant. -/
def union {arm : κ → Type} (code : κ → UInt32) (find : UInt32 → Option κ)
    (hfind : ∀ w k, find w = some k ↔ code k = w) (body : (k : κ) → Format (arm k)) :
    Format ((k : κ) × arm k) where
  write x := Xdr.word (code x.1) ++ (body x.1).write x.2
  Fits x := (body x.1).Fits x.2
  read := do
    let w ← word.read
    match find w with
    | some k => Sigma.mk k <$> (body k).read
    | none => throw (.discriminant w)
  read_ok {bs rest x} := by
    rw [bind_ok]
    constructor
    · rintro ⟨w, mid, hw, h⟩
      obtain ⟨-, rfl⟩ := word.read_ok.mp hw
      cases hk : find w with
      | none =>
        rw [hk] at h
        exact absurd h throw_ok
      | some k =>
        rw [hk] at h
        obtain ⟨a, ha, rfl⟩ := map_ok.mp h
        obtain ⟨hfits, rfl⟩ := (body k).read_ok.mp ha
        refine ⟨hfits, ?_⟩
        rw [(hfind w k).mp hk, List.append_assoc]
        rfl
    · rintro ⟨hfits, rfl⟩
      refine ⟨code x.1, (body x.1).write x.2 ++ rest, word.read_ok.mpr ⟨trivial, ?_⟩, ?_⟩
      · rw [List.append_assoc]
        rfl
      · rw [(hfind _ _).mpr rfl]
        exact map_ok.mpr ⟨x.2, (body x.1).read_ok.mpr ⟨hfits, rfl⟩, rfl⟩

/-- Optional data: `TRUE` and a value, or `FALSE`. -/
def optional (f : Format α) : Format (Option α) where
  write
    | some a => Xdr.bool true ++ f.write a
    | none => Xdr.bool false
  Fits x := ∀ a, x = some a → f.Fits a
  read := do
    let follows ← bool.read
    if follows then some <$> f.read else return none
  read_ok {bs rest x} := by
    rw [bind_ok]
    constructor
    · rintro ⟨follows, mid, hfollows, h⟩
      obtain ⟨-, rfl⟩ := bool.read_ok.mp hfollows
      cases follows with
      | false =>
        obtain ⟨rfl, rfl⟩ := pure_ok.mp h
        refine ⟨fun a ha => ?_, rfl⟩
        cases ha
      | true =>
        obtain ⟨a, ha, rfl⟩ := map_ok.mp h
        obtain ⟨hfits, rfl⟩ := f.read_ok.mp ha
        refine ⟨?_, (List.append_assoc _ _ _).symm⟩
        rintro b ⟨⟩
        exact hfits
    · rintro ⟨hfits, rfl⟩
      cases x with
      | none => exact ⟨false, rest, bool.read_ok.mpr ⟨trivial, rfl⟩, pure_ok.mpr ⟨rfl, rfl⟩⟩
      | some a =>
        have hread : f.read (f.write a ++ rest) = .ok (a, rest) := f.read_ok.mpr ⟨hfits a rfl, rfl⟩
        refine ⟨true, f.write a ++ rest, bool.read_ok.mpr ⟨trivial, ?_⟩, map_ok.mpr ⟨a, hread, rfl⟩⟩
        exact List.append_assoc _ _ _

/-- Data that is there if `b` holds, and of which nothing in the input tells. -/
def given (b : Bool) (f : Format α) : Format (Option α) where
  write
    | some a => f.write a
    | none => []
  Fits x := x.isSome = b ∧ ∀ a, x = some a → f.Fits a
  read := if b then some <$> f.read else return none
  read_ok {bs rest x} := by
    cases b with
    | false =>
      rw [if_neg Bool.false_ne_true, pure_ok]
      constructor
      · rintro ⟨rfl, rfl⟩
        exact ⟨⟨rfl, fun a h => nomatch h⟩, rfl⟩
      · rintro ⟨⟨hx, -⟩, rfl⟩
        cases x with
        | none => exact ⟨rfl, rfl⟩
        | some a => cases hx
    | true =>
      rw [if_pos rfl, map_ok]
      constructor
      · rintro ⟨a, ha, rfl⟩
        obtain ⟨hfits, rfl⟩ := f.read_ok.mp ha
        refine ⟨⟨rfl, ?_⟩, rfl⟩
        rintro b ⟨⟩
        exact hfits
      · rintro ⟨⟨hx, hfits⟩, rfl⟩
        cases x with
        | none => cases hx
        | some a => exact ⟨a, f.read_ok.mpr ⟨hfits a rfl, rfl⟩, rfl⟩

/-- A word with one legal value, such as the discriminant of a union of which one arm is in use. -/
def literal (w : UInt32) : Format Unit where
  write _ := Xdr.word w
  Fits _ := True
  read := do
    let v ← word.read
    if v = w then return () else throw (.discriminant v)
  read_ok {bs rest u} := by
    rw [bind_ok, true_and]
    constructor
    · rintro ⟨v, mid, hv, h⟩
      obtain ⟨-, rfl⟩ := word.read_ok.mp hv
      split at h
      · next hvw =>
        obtain ⟨-, rfl⟩ := pure_ok.mp h
        rw [hvw]
        rfl
      · exact absurd h throw_ok
    · rintro rfl
      refine ⟨w, rest, word.read_ok.mpr ⟨trivial, rfl⟩, ?_⟩
      rw [if_pos rfl]
      exact pure_ok.mpr ⟨rfl, rfl⟩

/-- Another encoding as opaque data, of which it is all. -/
def inside (f : Format α) : Format α where
  write a := varOpaque (f.write a)
  Fits a := f.Fits a ∧ (f.write a).length < 2 ^ 32
  read := do
    let body ← bytes.read
    match f.read body with
    | .ok (a, []) => return a
    | .ok (_, _ :: _) => throw .padding
    | .error e => throw e
  read_ok {bs rest a} := by
    rw [bind_ok]
    constructor
    · rintro ⟨body, mid, hbody, h⟩
      obtain ⟨hlen, rfl⟩ := bytes.read_ok.mp hbody
      rcases hread : f.read body with e | ⟨b, _ | ⟨c, left⟩⟩
      · rw [hread] at h
        exact absurd h throw_ok
      · rw [hread] at h
        obtain ⟨rfl, rfl⟩ := pure_ok.mp h
        obtain ⟨hfits, hwrite⟩ := f.read_ok.mp hread
        rw [List.append_nil] at hwrite
        subst hwrite
        exact ⟨⟨hfits, hlen⟩, rfl⟩
      · rw [hread] at h
        exact absurd h throw_ok
    · rintro ⟨⟨hfits, hlen⟩, rfl⟩
      refine ⟨f.write a, rest, bytes.read_ok.mpr ⟨hlen, rfl⟩, ?_⟩
      have hread : f.read (f.write a) = .ok (a, []) := (f.reads hfits).run
      rw [hread]
      exact pure_ok.mpr ⟨rfl, rfl⟩

/-! ### Linked lists

A linked list is a chain of optional items: `TRUE` and an item for each element, `FALSE` at the
end. -/

/-- The chain of a list. -/
def writeChain (f : Format α) (xs : List α) : Bytes :=
  xs.flatMap (fun x => Xdr.bool true ++ f.write x) ++ Xdr.bool false

/-- Every link has its four bytes, so the length of the input bounds their number. -/
def readChain (f : Format α) : ℕ → Reader UInt8 Malformed (List α)
  | 0 => throw .short
  | fuel + 1 => do
    let follows ← bool.read
    if follows then
      let x ← f.read
      let xs ← readChain f fuel
      return x :: xs
    else return []

theorem readChain_ok {fuel : ℕ} {bs rest : Bytes} {xs : List α} :
    readChain f fuel bs = .ok (xs, rest) ↔
      xs.length < fuel ∧ (∀ x ∈ xs, f.Fits x) ∧ bs = writeChain f xs ++ rest := by
  induction fuel generalizing bs xs with
  | zero => exact ⟨fun h => absurd h throw_ok, fun h => absurd h.1 (Nat.not_lt_zero _)⟩
  | succ fuel ih =>
    rw [readChain, bind_ok]
    constructor
    · rintro ⟨follows, mid, hfollows, h⟩
      obtain ⟨-, rfl⟩ := bool.read_ok.mp hfollows
      -- induction on the fuel; the flag in front says whether another element follows
      cases follows with
      | false =>
        obtain ⟨rfl, rfl⟩ := pure_ok.mp h
        exact ⟨Nat.succ_pos fuel, by simp, rfl⟩
      | true =>
        obtain ⟨x, mid', hx, h'⟩ := bind_ok.mp h
        obtain ⟨xs', mid'', hxs, h''⟩ := bind_ok.mp h'
        obtain ⟨rfl, rfl⟩ := pure_ok.mp h''
        obtain ⟨hfx, rfl⟩ := f.read_ok.mp hx
        obtain ⟨hlen, hall, rfl⟩ := ih.mp hxs
        refine ⟨Nat.succ_lt_succ hlen, List.forall_mem_cons.mpr ⟨hfx, hall⟩, ?_⟩
        simp only [writeChain, List.flatMap_cons, List.append_assoc]
        rfl
    · rintro ⟨hlen, hall, rfl⟩
      cases xs with
      | nil => exact ⟨false, rest, bool.read_ok.mpr ⟨trivial, rfl⟩, pure_ok.mpr ⟨rfl, rfl⟩⟩
      | cons x xs =>
        obtain ⟨hfx, hall⟩ := List.forall_mem_cons.mp hall
        -- a flag, the element, and the chain of the rest
        refine ⟨true, f.write x ++ (writeChain f xs ++ rest), bool.read_ok.mpr ⟨trivial, ?_⟩, ?_⟩
        · simp only [writeChain, List.flatMap_cons, List.append_assoc]
          rfl
        · refine bind_ok.mpr ⟨x, writeChain f xs ++ rest, f.read_ok.mpr ⟨hfx, rfl⟩, ?_⟩
          exact bind_ok.mpr ⟨xs, rest, ih.mpr ⟨Nat.lt_of_succ_lt_succ hlen, hall, rfl⟩,
            pure_ok.mpr ⟨rfl, rfl⟩⟩

theorem length_lt_writeChain (f : Format α) (xs : List α) :
    xs.length < (writeChain f xs).length := by
  induction xs with
  | nil => simp [writeChain]
  | cons x xs ih =>
    have hcons : writeChain f (x :: xs) = Xdr.bool true ++ (f.write x ++ writeChain f xs) := by
      simp only [writeChain, List.flatMap_cons, List.append_assoc]
    rw [hcons, List.length_cons, List.length_append, List.length_append, length_bool]
    omega

/-- A linked list. -/
def chain (f : Format α) : Format (List α) where
  write := writeChain f
  Fits xs := ∀ x ∈ xs, f.Fits x
  read := fun bs => readChain f bs.length bs
  read_ok {bs rest xs} := by
    rw [readChain_ok]
    constructor
    · exact fun h => h.2
    · rintro ⟨hall, rfl⟩
      have hlen := length_lt_writeChain f xs
      refine ⟨?_, hall, rfl⟩
      rw [List.length_append]
      omega

end Format

end Xdr
